/-!
# Finite tables

A table holds at most one value for each key.  Values are read with `get?`;
every operation states what it does to `get?` and to the keys.
-/

namespace Parley

/-- The entries of a table with one key set to a value.  A key that is already
present keeps its place. -/
def setEntry [DecidableEq κ] (key : κ) (value : α) : List (κ × α) → List (κ × α)
  | [] => [(key, value)]
  | entry :: rest =>
      if entry.1 = key then (key, value) :: rest
      else entry :: setEntry key value rest

theorem keys_setEntry [DecidableEq κ] (key : κ) (value : α) (entries : List (κ × α)) :
    (setEntry key value entries).map Prod.fst =
      if key ∈ entries.map Prod.fst then entries.map Prod.fst
      else entries.map Prod.fst ++ [key] := by
  induction entries with
  | nil => simp [setEntry]
  | cons entry rest induction =>
      unfold setEntry
      by_cases same : entry.1 = key
      · simp [same]
      · have other : ¬key = entry.1 := fun equal => same equal.symm
        simp only [same, if_false, List.map_cons, induction, List.mem_cons, other, false_or]
        split <;> simp

/-- A finite map from keys to values, each key at most once. -/
structure Table (κ : Type) (α : Type) where
  entries : List (κ × α)
  distinct : (entries.map Prod.fst).Nodup

namespace Table

variable {κ α : Type}

/-- The table without entries. -/
def empty : Table κ α := ⟨[], List.nodup_nil⟩

instance : Inhabited (Table κ α) := ⟨empty⟩

/-- The keys, in the order in which they were first set. -/
def keys (table : Table κ α) : List κ := table.entries.map Prod.fst

/-- The values, in the order of their keys. -/
def values (table : Table κ α) : List α := table.entries.map Prod.snd

/-- The number of keys. -/
def size (table : Table κ α) : Nat := table.entries.length

/-- Whether the table has no entries. -/
def isEmpty (table : Table κ α) : Bool := table.entries.isEmpty

/-- The same keys with other values. -/
def mapValues (change : κ → α → α) (table : Table κ α) : Table κ α where
  entries := table.entries.map fun entry => (entry.1, change entry.1 entry.2)
  distinct := by
    have same : (table.entries.map fun entry => (entry.1, change entry.1 entry.2)).map Prod.fst
        = table.entries.map Prod.fst := by
      simp [List.map_map, Function.comp_def]
    rw [same]
    exact table.distinct

/-- A table is its entries. -/
theorem ext {left right : Table κ α} (equal : left.entries = right.entries) : left = right := by
  cases left
  cases right
  simp_all

variable [DecidableEq κ]

/-- The value of a key. -/
def get? (table : Table κ α) (key : κ) : Option α :=
  (table.entries.find? fun entry => entry.1 = key).map Prod.snd

/-- Whether a key has a value. -/
def contains (table : Table κ α) (key : κ) : Bool := (table.get? key).isSome

/-- Give a key a value, in place of the one it had. -/
def set (table : Table κ α) (key : κ) (value : α) : Table κ α where
  entries := setEntry key value table.entries
  distinct := by
    rw [keys_setEntry]
    split
    · exact table.distinct
    · rename_i absent
      refine List.nodup_append.2 ⟨table.distinct, by simp, ?_⟩
      intro present member other equal
      simp only [List.mem_singleton] at equal
      subst equal
      intro same
      exact absent (same ▸ member)

/-- Take a key out of the table. -/
def erase (table : Table κ α) (key : κ) : Table κ α where
  entries := table.entries.filter fun entry => entry.1 ≠ key
  distinct := by
    refine List.Nodup.sublist ?_ table.distinct
    exact List.Sublist.map _ List.filter_sublist

/-- Change the value of a key that is present. -/
def modify (table : Table κ α) (key : κ) (change : α → α) : Table κ α :=
  match table.get? key with
  | some value => table.set key (change value)
  | none => table

@[simp]
theorem get?_empty (key : κ) : (empty : Table κ α).get? key = none := rfl

theorem get?_eq_none_iff {table : Table κ α} {key : κ} :
    table.get? key = none ↔ key ∉ table.keys := by
  simp only [get?, keys, Option.map_eq_none_iff, List.find?_eq_none, decide_eq_true_eq,
    List.mem_map, not_exists, not_and]

theorem contains_iff_mem_keys {table : Table κ α} {key : κ} :
    table.contains key = true ↔ key ∈ table.keys := by
  unfold contains
  rw [Option.isSome_iff_ne_none, ne_eq, get?_eq_none_iff, Decidable.not_not]

theorem find?_setEntry_self (key : κ) (value : α) (entries : List (κ × α)) :
    (setEntry key value entries).find? (fun entry => entry.1 = key) = some (key, value) := by
  induction entries with
  | nil => simp [setEntry]
  | cons entry rest induction =>
      unfold setEntry
      by_cases same : entry.1 = key
      · simp [same]
      · simp [same, induction]

theorem find?_setEntry_of_ne {key other : κ} (different : other ≠ key) (value : α)
    (entries : List (κ × α)) :
    (setEntry key value entries).find? (fun entry => entry.1 = other) =
      entries.find? fun entry => entry.1 = other := by
  have different' : ¬key = other := fun equal => different equal.symm
  induction entries with
  | nil => simp [setEntry, different']
  | cons entry rest induction =>
      unfold setEntry
      by_cases same : entry.1 = key
      · simp [same, different']
      · simp only [same, if_false, List.find?_cons, induction]

/-- A key that was set has the value it was given. -/
@[simp]
theorem get?_set_self (table : Table κ α) (key : κ) (value : α) :
    (table.set key value).get? key = some value := by
  simp [get?, set, find?_setEntry_self]

/-- Setting one key leaves every other key alone. -/
theorem get?_set_of_ne (table : Table κ α) {key other : κ} (different : other ≠ key)
    (value : α) : (table.set key value).get? other = table.get? other := by
  simp [get?, set, find?_setEntry_of_ne different]

theorem get?_set (table : Table κ α) (key other : κ) (value : α) :
    (table.set key value).get? other = if other = key then some value else table.get? other := by
  split
  · rename_i same
    simp [same]
  · rename_i different
    exact table.get?_set_of_ne different value

/-- A key that was taken out has no value. -/
@[simp]
theorem get?_erase_self (table : Table κ α) (key : κ) : (table.erase key).get? key = none := by
  simp [get?, erase, List.find?_eq_none]

/-- Taking out one key leaves every other key alone. -/
theorem get?_erase_of_ne (table : Table κ α) {key other : κ} (different : other ≠ key) :
    (table.erase key).get? other = table.get? other := by
  unfold get? erase
  simp only [List.find?_filter]
  congr 2
  funext entry
  by_cases same : entry.1 = other
  · simp [same, different]
  · simp [same]

theorem get?_erase (table : Table κ α) (key other : κ) :
    (table.erase key).get? other = if other = key then none else table.get? other := by
  split
  · rename_i same
    simp [same]
  · rename_i different
    exact table.get?_erase_of_ne different

theorem setEntry_eq_self {key : κ} {value : α} {entries : List (κ × α)}
    (present : (entries.find? fun entry => entry.1 = key) = some (key, value)) :
    setEntry key value entries = entries := by
  induction entries with
  | nil => simp at present
  | cons entry rest induction =>
      unfold setEntry
      by_cases same : entry.1 = key
      · simp only [List.find?_cons, same, decide_true, Option.some.injEq] at present
        simp [present]
      · simp only [List.find?_cons, same, decide_false] at present
        simp [same, induction present]

/-- Setting a key to the value it has changes nothing. -/
theorem set_of_get?_eq_some {table : Table κ α} {key : κ} {value : α}
    (present : table.get? key = some value) : table.set key value = table := by
  apply ext
  simp only [get?, Option.map_eq_some_iff] at present
  obtain ⟨entry, found, rfl⟩ := present
  have same : entry.1 = key := by simpa using List.find?_some found
  apply setEntry_eq_self
  rw [found]
  simp [← same]

/-- An entry of the list is what looking up its key gives. -/
theorem mem_entries_iff {table : Table κ α} {key : κ} {value : α} :
    (key, value) ∈ table.entries ↔ table.get? key = some value := by
  obtain ⟨entries, distinct⟩ := table
  simp only [get?]
  induction entries with
  | nil => simp
  | cons entry rest induction =>
      simp only [List.map_cons, List.nodup_cons] at distinct
      have inner := induction distinct.2
      by_cases same : entry.1 = key
      · subst same
        simp only [List.mem_cons, List.find?_cons, decide_true, Option.map_some,
          Option.some.injEq]
        constructor
        · rintro (equal | member)
          · rw [← equal]
          · exact absurd (List.mem_map.2 ⟨_, member, rfl⟩) distinct.1
        · intro equal
          exact Or.inl (by rw [← equal])
      · have other : ¬(key, value) = entry := fun equal => same (by rw [← equal])
        simp [List.mem_cons, same, other, inner]

end Table
end Parley
