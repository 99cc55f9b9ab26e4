import Parley.Roster

/-!
# More about tables and indexes

What `modify` does to `get?`, which keys a table has, when it has none, how its size
changes, and what two tables with the same keys have in common.  An index is full when
none of its keys stands for an empty list or lists a value twice; adding and removing
values keep it full.
-/

namespace Parley
namespace Table

variable {κ α β : Type} [DecidableEq κ]

/-- Changing the value of one key leaves every other key alone. -/
theorem get?_modify (table : Table κ α) (key other : κ) (change : α → α) :
    (table.modify key change).get? other =
      if other = key then (table.get? key).map change else table.get? other := by
  unfold modify
  cases present : table.get? key with
  | none =>
      by_cases same : other = key
      · simp [same, present]
      · simp [same]
  | some value => simp [get?_set]

/-- A key is one of the keys when it has a value. -/
theorem mem_keys_iff {table : Table κ α} {key : κ} :
    key ∈ table.keys ↔ ∃ value, table.get? key = some value := by
  rw [← Option.ne_none_iff_exists', ne_eq, get?_eq_none_iff, Decidable.not_not]

theorem contains_eq_true_iff {table : Table κ α} {key : κ} :
    table.contains key = true ↔ ∃ value, table.get? key = some value :=
  contains_iff_mem_keys.trans mem_keys_iff

theorem contains_of_get?_eq_some {table : Table κ α} {key : κ} {value : α}
    (present : table.get? key = some value) : table.contains key = true :=
  contains_eq_true_iff.2 ⟨value, present⟩

/-- Setting a key makes it one of the keys. -/
theorem contains_set (table : Table κ α) (key other : κ) (value : α) :
    (table.set key value).contains other = true ↔
      other = key ∨ table.contains other = true := by
  unfold contains
  rw [get?_set]
  by_cases same : other = key <;> simp [same]

/-- A key that is set twice has the value that it was given last. -/
@[simp]
theorem set_set (table : Table κ α) (key : κ) (first second : α) :
    (table.set key first).set key second = table.set key second := by
  apply ext
  simp only [set]
  induction table.entries with
  | nil => simp [setEntry]
  | cons entry rest induction =>
      by_cases same : entry.1 = key
      · simp [setEntry, same]
      · simp [setEntry, same, induction]

/-- A table in which no key has a value is the empty one. -/
theorem eq_empty_of_get?_eq_none {table : Table κ α}
    (absent : ∀ key, table.get? key = none) : table = .empty := by
  apply ext
  cases entries : table.entries with
  | nil => rfl
  | cons entry rest =>
      have member : (entry.1, entry.2) ∈ table.entries := by simp [entries]
      rw [mem_entries_iff, absent entry.1] at member
      cases member

/-- A table without entries gives no key a value. -/
theorem get?_eq_none_of_isEmpty {table : Table κ α} (nothing : table.isEmpty = true)
    (key : κ) : table.get? key = none := by
  have entries : table.entries = [] := by simpa [isEmpty] using nothing
  simp [get?, entries]

/-- Revising a key that is present keeps all keys in their places. -/
theorem keys_set_of_mem {table : Table κ α} {key : κ} (present : key ∈ table.keys) (value : α) :
    (table.set key value).keys = table.keys :=
  (keys_setEntry key value table.entries).trans (if_pos present)

/-! ## Two tables side by side -/

/-- What is read off the entries of a table is what its keys, in their order, stand for. -/
theorem map_entries_eq (table : Table κ α) (read : κ × α → β) :
    table.entries.map (fun entry => some (read entry)) =
      table.keys.map fun key => (table.get? key).map fun value => read (key, value) := by
  unfold keys
  rw [List.map_map]
  refine List.map_congr_left fun entry member => ?_
  rw [Function.comp_apply, mem_entries_iff.1 member, Option.map_some]

/-- Two tables have the same keys in the same order, and what they stand for is related. -/
structure Corresponds (related : κ → α → α → Prop) (left right : Table κ α) : Prop where
  keys : left.keys = right.keys
  values : ∀ key first second, left.get? key = some first → right.get? key = some second →
    related key first second

namespace Corresponds

variable {related : κ → α → α → Prop} {left right : Table κ α} {key : κ}

theorem refl (alike : ∀ key value, related key value value) (table : Table κ α) :
    Corresponds related table table := by
  refine ⟨rfl, fun key first second found again => ?_⟩
  rw [found] at again
  cases again
  exact alike key first

theorem get?_eq_none (corresponds : Corresponds related left right)
    (absent : left.get? key = none) : right.get? key = none := by
  rw [get?_eq_none_iff] at absent ⊢
  rwa [← corresponds.keys]

theorem exists_get? (corresponds : Corresponds related left right) {first : α}
    (present : left.get? key = some first) :
    ∃ second, right.get? key = some second ∧ related key first second := by
  have member : key ∈ right.keys := corresponds.keys ▸ mem_keys_iff.2 ⟨first, present⟩
  obtain ⟨second, found⟩ := mem_keys_iff.1 member
  exact ⟨second, found, corresponds.values key first second present found⟩

theorem contains_eq (corresponds : Corresponds related left right) (key : κ) :
    left.contains key = right.contains key := by
  rw [Bool.eq_iff_iff, contains_iff_mem_keys, contains_iff_mem_keys, corresponds.keys]

theorem set (corresponds : Corresponds related left right) {first second : α}
    (alike : related key first second) :
    Corresponds related (left.set key first) (right.set key second) := by
  refine ⟨?_, fun other one two found again => ?_⟩
  · have keys := corresponds.keys
    unfold Table.keys at keys ⊢
    unfold Table.set
    rw [keys_setEntry, keys_setEntry, keys]
  · rw [get?_set] at found again
    by_cases same : other = key
    · subst same
      rw [if_pos rfl] at found again
      cases found
      cases again
      exact alike
    · rw [if_neg same] at found again
      exact corresponds.values other one two found again

theorem erase (corresponds : Corresponds related left right) (key : κ) :
    Corresponds related (left.erase key) (right.erase key) := by
  have keys (table : Table κ α) :
      (table.erase key).keys = table.keys.filter fun other => other ≠ key := by
    unfold Table.keys Table.erase
    rw [List.filter_map]
    rfl
  refine ⟨by rw [keys, keys, corresponds.keys], fun other one two found again => ?_⟩
  rw [get?_erase] at found again
  by_cases same : other = key
  · rw [if_pos same] at found
    cases found
  · rw [if_neg same] at found again
    exact corresponds.values other one two found again

theorem modify (corresponds : Corresponds related left right) {change : α → α}
    (alike : ∀ first second, related key first second →
      related key (change first) (change second)) :
    Corresponds related (left.modify key change) (right.modify key change) := by
  unfold Table.modify
  cases present : left.get? key with
  | none =>
      rw [corresponds.get?_eq_none present]
      exact corresponds
  | some first =>
      obtain ⟨second, found, paired⟩ := corresponds.exists_get? present
      rw [found]
      exact corresponds.set (alike first second paired)

/-- What is the same of all related values is the same of the two tables. -/
theorem map_entries_eq (corresponds : Corresponds related left right) {read : κ × α → β}
    (same : ∀ key first second, related key first second →
      read (key, first) = read (key, second)) :
    left.entries.map read = right.entries.map read := by
  refine (List.map_inj_right fun _ _ => Option.some.inj).1 ?_
  rw [List.map_map, List.map_map]
  refine (left.map_entries_eq read).trans (.trans ?_ (right.map_entries_eq read).symm)
  rw [corresponds.keys]
  refine List.map_congr_left fun key member => ?_
  obtain ⟨second, found⟩ := mem_keys_iff.1 member
  obtain ⟨first, present⟩ := mem_keys_iff.1 (corresponds.keys ▸ member)
  rw [present, found, Option.map_some, Option.map_some,
    same key first second (corresponds.values key first second present found)]

end Corresponds

/-- A table is its keys in their order and what they stand for. -/
theorem eq_of_get?_eq {left right : Table κ α} (sameKeys : left.keys = right.keys)
    (same : ∀ key, left.get? key = right.get? key) : left = right := by
  have corresponds : Corresponds (fun _ first second => first = second) left right :=
    ⟨sameKeys, fun key first second found again =>
      Option.some.inj (found.symm.trans ((same key).trans again))⟩
  have entries : left.entries.map id = right.entries.map id :=
    corresponds.map_entries_eq fun key first second equal => by rw [equal]
  rw [List.map_id, List.map_id] at entries
  exact ext entries

/-- Tables in which every key has the same value have the same entries, if in another
order. -/
theorem perm_entries_of_get?_eq {left right : Table κ α}
    (same : ∀ key, left.get? key = right.get? key) : left.entries.Perm right.entries := by
  have distinct (table : Table κ α) : table.entries.Nodup :=
    (List.pairwise_map.1 table.distinct).imp fun different equal => different (by rw [equal])
  refine (List.perm_ext_iff_of_nodup (distinct left) (distinct right)).2 fun entry => ?_
  obtain ⟨key, value⟩ := entry
  rw [mem_entries_iff, mem_entries_iff, same]

/-! ## Sizes -/

omit [DecidableEq κ] in
theorem size_eq_length_keys (table : Table κ α) : table.size = table.keys.length := by
  rw [size, keys, List.length_map]

/-- Setting a key makes room for that key only. -/
theorem size_set (table : Table κ α) (key : κ) (value : α) :
    (table.set key value).size = if key ∈ table.keys then table.size else table.size + 1 := by
  have keys : (table.set key value).keys =
      if key ∈ table.keys then table.keys else table.keys ++ [key] :=
    keys_setEntry key value table.entries
  rw [size_eq_length_keys, size_eq_length_keys, keys]
  split <;> simp

theorem size_set_of_present {table : Table κ α} {key : κ} {before : α}
    (present : table.get? key = some before) (value : α) :
    (table.set key value).size = table.size := by
  rw [size_set, if_pos (mem_keys_iff.2 ⟨before, present⟩)]

theorem size_set_of_absent {table : Table κ α} {key : κ} (absent : table.get? key = none)
    (value : α) : (table.set key value).size = table.size + 1 := by
  rw [size_set, if_neg (get?_eq_none_iff.1 absent)]

theorem size_erase_le (table : Table κ α) (key : κ) : (table.erase key).size ≤ table.size :=
  List.length_filter_le _ _

end Table

namespace Index

variable {κ α : Type} [DecidableEq κ]

/-- No key stands for an empty list, and no list repeats a value. -/
def Full (index : Index κ α) : Prop :=
  ∀ key values, index.get? key = some values → values ≠ [] ∧ values.Nodup

theorem Full.empty : Full (Table.empty : Index κ α) := by
  intro key values present
  simp at present

/-- In a full index a key is present exactly when it has values. -/
theorem Full.get?_eq_none_iff {index : Index κ α} (full : index.Full) {key : κ} :
    index.get? key = none ↔ index.group key = [] := by
  unfold group
  cases present : index.get? key with
  | none => simp
  | some values => simp [(full key values present).1]

/-- The values of a key of a full index differ. -/
theorem Full.nodup_group {index : Index κ α} (full : index.Full) (key : κ) :
    (index.group key).Nodup := by
  unfold group
  cases present : index.get? key with
  | none => simp
  | some values => simpa using (full key values present).2

/-- Taking a key out keeps an index full. -/
theorem Full.erase {index : Index κ α} (full : index.Full) (key : κ) :
    Full (Table.erase index key) := by
  intro other values present
  rw [Table.get?_erase] at present
  split at present
  · cases present
  · exact full other values present

variable [DecidableEq α]

/-- Adding a value keeps an index full. -/
theorem Full.add {index : Index κ α} (full : index.Full) (key : κ) (value : α) :
    (index.add key value).Full := by
  unfold Index.add
  split
  · exact full
  · rename_i fresh
    intro other values present
    rw [Table.get?_set] at present
    split at present
    · obtain rfl := Option.some.inj present
      refine ⟨by simp, ?_⟩
      rw [List.nodup_append]
      refine ⟨full.nodup_group key, by simp, ?_⟩
      intro entry member last equal
      rw [List.mem_singleton] at equal
      rintro rfl
      exact fresh (equal ▸ member)
    · exact full other values present

/-- Removing a value keeps an index full. -/
theorem Full.remove {index : Index κ α} (full : index.Full) (key : κ) (value : α) :
    (index.remove key value).Full := by
  unfold Index.remove
  cases present : index.get? key with
  | none => exact full
  | some values =>
      intro other rest found
      by_cases emptied : (values.filter (· ≠ value)).isEmpty
      · simp only [emptied, if_true] at found
        rw [Table.get?_erase] at found
        split at found
        · cases found
        · exact full other rest found
      · simp only [emptied] at found
        rw [if_neg Bool.false_ne_true, Table.get?_set] at found
        split at found
        · obtain rfl := Option.some.inj found
          exact ⟨by simpa using emptied, (full key values present).2.filter _⟩
        · exact full other rest found

/-! ## Sizes -/

/-- A value for a key that has one already takes no further key. -/
theorem size_add_of_present {index : Index κ α} {key : κ} {values : List α}
    (present : index.get? key = some values) (value : α) :
    (index.add key value).size = index.size := by
  unfold add
  split
  · rfl
  · exact Table.size_set_of_present present _

theorem size_add_of_absent {index : Index κ α} {key : κ} (absent : index.get? key = none)
    (value : α) : (index.add key value).size = index.size + 1 := by
  have nothing : index.group key = [] := by simp [group, absent]
  unfold add
  rw [nothing, if_neg List.not_mem_nil]
  exact Table.size_set_of_absent absent _

theorem size_remove_le (index : Index κ α) (key : κ) (value : α) :
    (index.remove key value).size ≤ index.size := by
  unfold remove
  cases present : index.get? key with
  | none => exact Nat.le_refl _
  | some values =>
      dsimp only
      split
      · exact index.size_erase_le key
      · exact Nat.le_of_eq (Table.size_set_of_present present _)

end Index
end Parley
