import Parley.Name.Basic
import Parley.Table

/-!
# Rosters

A roster records who is in which room, indexed both by room and by connection.
A room exists exactly while it has members.
-/

namespace Parley

/-- A table of lists in which a key without values is absent. -/
abbrev Index (κ : Type) (α : Type) := Table κ (List α)

namespace Index

variable {κ α : Type} [DecidableEq κ] [DecidableEq α]

/-- The values of a key. -/
def group (index : Index κ α) (key : κ) : List α := (index.get? key).getD []

/-- Give a key one more value. -/
def add (index : Index κ α) (key : κ) (value : α) : Index κ α :=
  if value ∈ index.group key then index else index.set key (index.group key ++ [value])

/-- Take one value from a key; a key without values leaves. -/
def remove (index : Index κ α) (key : κ) (value : α) : Index κ α :=
  match index.get? key with
  | none => index
  | some values =>
      let rest := values.filter (· ≠ value)
      if rest.isEmpty then index.erase key else index.set key rest

/-- Adding a value puts it under its key and changes nothing else. -/
theorem mem_group_add (index : Index κ α) (key other : κ) (value entry : α) :
    entry ∈ (index.add key value).group other ↔
      entry ∈ index.group other ∨ (other = key ∧ entry = value) := by
  unfold add
  split
  · rename_i present
    constructor
    · exact Or.inl
    · rintro (member | ⟨rfl, rfl⟩)
      · exact member
      · exact present
  · unfold group
    rw [Table.get?_set]
    split
    · rename_i same
      subst same
      simp
    · rename_i different
      simp [different]

/-- Removing a value takes it from its key and changes nothing else. -/
theorem mem_group_remove (index : Index κ α) (key other : κ) (value entry : α) :
    entry ∈ (index.remove key value).group other ↔
      entry ∈ index.group other ∧ ¬(other = key ∧ entry = value) := by
  unfold remove
  split
  · rename_i absent
    constructor
    · intro member
      refine ⟨member, ?_⟩
      rintro ⟨rfl, rfl⟩
      simp [group, absent] at member
    · exact fun both => both.1
  · rename_i values present
    have kept : entry ∈ values.filter (· ≠ value) ↔ entry ∈ values ∧ ¬entry = value := by
      simp
    dsimp only
    generalize values.filter (· ≠ value) = rest at kept ⊢
    by_cases same : other = key
    · subst same
      have before : index.group other = values := by simp [group, present]
      rw [before]
      simp only [true_and]
      rw [← kept]
      cases rest <;> simp [group]
    · cases rest <;> simp [group, Table.get?_erase, Table.get?_set, same]

end Index

/-- Who is in which room. -/
structure Roster where
  /-- The members of each room. -/
  rooms : Index RoomName ConnectionId := .empty
  /-- The rooms of each connection. -/
  memberships : Index ConnectionId RoomName := .empty
  /-- The largest number of rooms. -/
  maxRooms : Option Nat := none

/-- What a join did. -/
inductive Join
  | created
  | joined
  | alreadyMember
  deriving DecidableEq, Repr

/-- What a leave did. -/
inductive Leave
  | left
  | roomDeleted
  | notMember
  deriving DecidableEq, Repr

namespace Roster

/-- The members of a room. -/
def members (roster : Roster) (room : RoomName) : List ConnectionId := roster.rooms.group room

/-- The rooms of a connection. -/
def roomsOf (roster : Roster) (id : ConnectionId) : List RoomName := roster.memberships.group id

/-- Whether a room exists. -/
def containsRoom (roster : Roster) (room : RoomName) : Bool := roster.rooms.contains room

/-- The number of rooms. -/
def roomCount (roster : Roster) : Nat := roster.rooms.size

/-- The ceiling that keeps another room from being created. -/
def ceiling? (roster : Roster) : Option Nat :=
  roster.maxRooms.filter fun limit => limit ≤ roster.roomCount

/-- Enter a connection into both indexes. -/
def enter (roster : Roster) (id : ConnectionId) (room : RoomName) : Roster :=
  { roster with
    rooms := roster.rooms.add room id
    memberships := roster.memberships.add id room }

/-- Add a connection to a room, which is created when it does not exist.  Fails
with the ceiling when there would be too many rooms. -/
def join (roster : Roster) (id : ConnectionId) (room : RoomName) :
    Except Nat (Join × Roster) :=
  match roster.rooms.get? room with
  | some present =>
      if id ∈ present then .ok (.alreadyMember, roster)
      else .ok (.joined, roster.enter id room)
  | none =>
      match roster.ceiling? with
      | some limit => .error limit
      | none => .ok (.created, roster.enter id room)

/-- Take a connection out of a room, which is deleted with its last member. -/
def leave (roster : Roster) (id : ConnectionId) (room : RoomName) : Leave × Roster :=
  if id ∈ roster.members room then
    let rest : Roster :=
      { roster with
        rooms := roster.rooms.remove room id
        memberships := roster.memberships.remove id room }
    (if rest.containsRoom room then .left else .roomDeleted, rest)
  else (.notMember, roster)

/-- Take a connection out of one room, and tell whether that deleted the room. -/
def expel (id : ConnectionId) (state : List RoomName × Index RoomName ConnectionId)
    (room : RoomName) : List RoomName × Index RoomName ConnectionId :=
  let rooms := state.2.remove room id
  if state.2.contains room && !rooms.contains room then (state.1 ++ [room], rooms)
  else (state.1, rooms)

/-- Take a connection out of all rooms.  Tells which rooms it was the last
member of. -/
def removeEverywhere (roster : Roster) (id : ConnectionId) : List RoomName × Roster :=
  let (deleted, rooms) := (roster.roomsOf id).foldl (expel id) ([], roster.rooms)
  (deleted, { roster with rooms, memberships := roster.memberships.erase id })

/-- A roster without rooms. -/
def clear (roster : Roster) : Roster :=
  { roster with rooms := .empty, memberships := .empty }

end Roster
end Parley
