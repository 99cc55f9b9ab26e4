import Mathlib.Data.Finset.Card
import Mathlib.Data.Finset.Image
import Parley.Proofs.Roster

/-!
# Rosters as relations

A roster stands for a finite relation between connections and rooms.  The relation is
an attendance, a finite set of pairs; whatever is done to a roster is done to its
attendance by adding or taking away pairs, and every answer and every view of the
roster can be read off the attendance alone.
-/

namespace Parley

/-- What can be done to a roster. -/
inductive RosterAct
  | join (id : ConnectionId) (room : RoomName)
  | leave (id : ConnectionId) (room : RoomName)
  | removeEverywhere (id : ConnectionId)
  | clear
  deriving DecidableEq, Repr

/-- What is answered.  The rooms that were deleted come in no particular order. -/
inductive RosterAnswer
  | join (result : Except Nat Join)
  | leave (result : Leave)
  | removed (rooms : Multiset RoomName)
  | cleared

namespace Roster

/-- The answer to an act, and the roster after it.  A join that fails leaves the roster
as it is. -/
def perform (roster : Roster) : RosterAct → RosterAnswer × Roster
  | .join id room =>
      match roster.join id room with
      | .ok (what, joined) => (.join (.ok what), joined)
      | .error limit => (.join (.error limit), roster)
  | .leave id room => (.leave (roster.leave id room).1, (roster.leave id room).2)
  | .removeEverywhere id =>
      (.removed (roster.removeEverywhere id).1, (roster.removeEverywhere id).2)
  | .clear => (.cleared, roster.clear)

/-- The answers to several acts, one after the other. -/
def answers (roster : Roster) : List RosterAct → List RosterAnswer
  | [] => []
  | act :: rest => (roster.perform act).1 :: (roster.perform act).2.answers rest

/-- What several acts make of a roster. -/
def run (roster : Roster) (acts : List RosterAct) : Roster :=
  acts.foldl (fun roster act => (roster.perform act).2) roster

end Roster

/-- Who is in which room. -/
abbrev Attendance := Finset (ConnectionId × RoomName)

namespace Attendance

/-- The connections in a room. -/
def members (attendance : Attendance) (room : RoomName) : Finset ConnectionId :=
  (attendance.filter fun pair => pair.2 = room).image Prod.fst

/-- The rooms of a connection. -/
def roomsOf (attendance : Attendance) (id : ConnectionId) : Finset RoomName :=
  (attendance.filter fun pair => pair.1 = id).image Prod.snd

/-- The rooms that somebody is in. -/
def rooms (attendance : Attendance) : Finset RoomName := attendance.image Prod.snd

/-- The rooms that a connection is alone in. -/
def roomsAlone (attendance : Attendance) (id : ConnectionId) : Finset RoomName :=
  attendance.rooms.filter fun room => attendance.members room = {id}

/-- The answer to a join: a room without members is created, unless as many rooms as
there may be have members already. -/
def joinAnswer (attendance : Attendance) (maxRooms : Option Nat) (id : ConnectionId)
    (room : RoomName) : Except Nat Join :=
  if attendance.members room = ∅ then
    match maxRooms.filter fun limit => limit ≤ attendance.rooms.card with
    | some limit => .error limit
    | none => .ok .created
  else if (id, room) ∈ attendance then .ok .alreadyMember
  else .ok .joined

/-- The answer to a leave: the last member of a room takes the room along. -/
def leaveAnswer (attendance : Attendance) (id : ConnectionId) (room : RoomName) : Leave :=
  if (id, room) ∉ attendance then .notMember
  else if attendance.members room = {id} then .roomDeleted
  else .left

/-- The answer to an act, and the attendance after it. -/
def perform (attendance : Attendance) (maxRooms : Option Nat) :
    RosterAct → RosterAnswer × Attendance
  | .join id room =>
      match attendance.joinAnswer maxRooms id room with
      | .ok what => (.join (.ok what), insert (id, room) attendance)
      | .error limit => (.join (.error limit), attendance)
  | .leave id room => (.leave (attendance.leaveAnswer id room), attendance.erase (id, room))
  | .removeEverywhere id =>
      (.removed (attendance.roomsAlone id).val, attendance.filter fun pair => pair.1 ≠ id)
  | .clear => (.cleared, ∅)

/-- The answers to several acts, one after the other. -/
def answers (attendance : Attendance) (maxRooms : Option Nat) :
    List RosterAct → List RosterAnswer
  | [] => []
  | act :: rest =>
      (attendance.perform maxRooms act).1 ::
        (attendance.perform maxRooms act).2.answers maxRooms rest

/-- What several acts make of an attendance. -/
def run (attendance : Attendance) (maxRooms : Option Nat) (acts : List RosterAct) : Attendance :=
  acts.foldl (fun attendance act => (attendance.perform maxRooms act).2) attendance

variable {attendance : Attendance} {id : ConnectionId} {room : RoomName}

@[simp]
theorem mem_members : id ∈ attendance.members room ↔ (id, room) ∈ attendance := by
  simp [members]

@[simp]
theorem mem_roomsOf : room ∈ attendance.roomsOf id ↔ (id, room) ∈ attendance := by
  simp [roomsOf]

@[simp]
theorem mem_rooms : room ∈ attendance.rooms ↔ ∃ id, (id, room) ∈ attendance := by
  simp [rooms]

theorem members_eq_empty_iff : attendance.members room = ∅ ↔ room ∉ attendance.rooms := by
  simp [Finset.eq_empty_iff_forall_notMem]

/-- A connection is alone in a room that it is in and that nobody else is in. -/
theorem members_eq_singleton_iff : attendance.members room = {id} ↔
    (id, room) ∈ attendance ∧ ∀ other, (other, room) ∈ attendance → other = id := by
  simp [Finset.eq_singleton_iff_unique_mem]

theorem mem_roomsAlone : room ∈ attendance.roomsAlone id ↔
    (id, room) ∈ attendance ∧ ∀ other, (other, room) ∈ attendance → other = id := by
  rw [roomsAlone, Finset.mem_filter, members_eq_singleton_iff, mem_rooms]
  exact and_iff_right_of_imp fun alone => ⟨id, alone.1⟩

end Attendance

/-- A list names the elements of a finite set, each of them once. -/
theorem coe_eq_val_iff {α : Type} {values : List α} {set : Finset α} :
    (values : Multiset α) = set.val ↔ values.Nodup ∧ ∀ value, value ∈ values ↔ value ∈ set := by
  constructor
  · intro same
    refine ⟨Multiset.coe_nodup.1 (same ▸ set.nodup), fun value => ?_⟩
    rw [← Multiset.mem_coe, same, Finset.mem_val]
  · rintro ⟨distinct, same⟩
    exact (Multiset.Nodup.ext (Multiset.coe_nodup.2 distinct) set.nodup).2 same

/-! ## Taking a connection out of several rooms -/

namespace Index

variable {κ α : Type} [DecidableEq κ] [DecidableEq α] {index : Index κ α} {key : κ}

omit [DecidableEq α] in
/-- In a full index a key is present exactly when it has a value. -/
theorem Full.contains_iff (full : index.Full) :
    index.contains key = true ↔ ∃ value, value ∈ index.group key := by
  rw [Table.contains, Option.isSome_iff_ne_none, ne_eq, full.get?_eq_none_iff]
  exact ⟨List.exists_mem_of_ne_nil _, fun ⟨value, member⟩ => List.ne_nil_of_mem member⟩

theorem get?_remove_of_ne (index : Index κ α) {other : κ} (different : other ≠ key) (value : α) :
    (index.remove key value).get? other = index.get? other := by
  unfold remove
  cases index.get? key with
  | none => rfl
  | some values =>
      dsimp only
      split
      · exact index.get?_erase_of_ne different
      · exact index.get?_set_of_ne different _

/-- What removing a value leaves of a key depends on that key only. -/
theorem get?_remove_self (index : Index κ α) (key : κ) (value : α) :
    (index.remove key value).get? key =
      (index.get? key).bind fun values =>
        if (values.filter (· ≠ value)).isEmpty then none else some (values.filter (· ≠ value)) := by
  unfold remove
  cases present : index.get? key with
  | none => simpa using present
  | some values =>
      dsimp only [Option.bind_some]
      split
      · exact index.get?_erase_self key
      · exact index.get?_set_self key _

end Index

namespace Roster

/-- Whether a room goes when a connection is taken out of it. -/
def goesWith (id : ConnectionId) (rooms : Index RoomName ConnectionId) (room : RoomName) : Bool :=
  rooms.contains room && !(rooms.remove room id).contains room

/-- A room does not depend on who is taken out of another one. -/
theorem goesWith_remove_of_ne (id : ConnectionId) (rooms : Index RoomName ConnectionId)
    {room place : RoomName} (different : room ≠ place) :
    goesWith id (rooms.remove place id) room = goesWith id rooms room := by
  unfold goesWith Table.contains
  rw [Index.get?_remove_self, Index.get?_remove_self, rooms.get?_remove_of_ne different]

/-- The rooms that are deleted are those that the connection was the last member of,
whatever the order in which the rooms are gone through. -/
theorem fst_expelAll (id : ConnectionId) {places : List RoomName} (distinct : places.Nodup)
    (state : List RoomName × Index RoomName ConnectionId) :
    (places.foldl (expel id) state).1 = state.1 ++ places.filter (goesWith id state.2) := by
  induction places generalizing state with
  | nil => simp
  | cons place rest induction =>
      rw [List.nodup_cons] at distinct
      -- the table changes on the way, but not for the rooms that are still to come
      have later : rest.filter (goesWith id (state.2.remove place id)) =
          rest.filter (goesWith id state.2) := by
        refine List.filter_congr fun room member => goesWith_remove_of_ne id state.2 ?_
        rintro rfl
        exact distinct.1 member
      have first : (expel id state place).1 =
          state.1 ++ if goesWith id state.2 place then [place] else [] := by
        unfold expel goesWith
        dsimp only
        split <;> simp
      rw [List.foldl_cons, induction distinct.2, snd_expel, later, first, List.append_assoc,
        List.filter_cons]
      split <;> rfl

/-! ## The relation of a roster -/

/-- A roster that records an attendance, with a ceiling for the number of rooms. -/
structure Records (roster : Roster) (maxRooms : Option Nat) (attendance : Attendance) : Prop where
  consistent : roster.Consistent
  mem_members : ∀ id room, id ∈ roster.members room ↔ (id, room) ∈ attendance
  maxRooms_eq : roster.maxRooms = maxRooms

namespace Records

variable {roster : Roster} {maxRooms : Option Nat} {attendance : Attendance}
  {id : ConnectionId} {room : RoomName}

theorem new (maxRooms : Option Nat) : Records { maxRooms } maxRooms ∅ where
  consistent := consistent_of_empty rfl rfl
  mem_members id room := by simp [members, Index.group]
  maxRooms_eq := rfl

theorem containsRoom_iff (records : roster.Records maxRooms attendance) :
    roster.containsRoom room = true ↔ room ∈ attendance.rooms := by
  rw [Attendance.mem_rooms]
  refine records.consistent.rooms_full.contains_iff.trans (exists_congr fun id => ?_)
  exact records.mem_members id room

theorem coe_members (records : roster.Records maxRooms attendance) (room : RoomName) :
    (roster.members room : Multiset ConnectionId) = (attendance.members room).val := by
  refine coe_eq_val_iff.2 ⟨records.consistent.rooms_full.nodup_group room, fun id => ?_⟩
  rw [records.mem_members, Attendance.mem_members]

theorem coe_roomsOf (records : roster.Records maxRooms attendance) (id : ConnectionId) :
    (roster.roomsOf id : Multiset RoomName) = (attendance.roomsOf id).val := by
  refine coe_eq_val_iff.2 ⟨records.consistent.memberships_full.nodup_group id, fun room => ?_⟩
  rw [← records.consistent.agree, records.mem_members, Attendance.mem_roomsOf]

theorem coe_keys (records : roster.Records maxRooms attendance) :
    (roster.rooms.keys : Multiset RoomName) = attendance.rooms.val := by
  refine coe_eq_val_iff.2 ⟨roster.rooms.distinct, fun room => ?_⟩
  rw [← Table.contains_iff_mem_keys]
  exact records.containsRoom_iff

theorem roomCount_eq (records : roster.Records maxRooms attendance) :
    roster.roomCount = attendance.rooms.card := by
  rw [Finset.card, ← records.coe_keys, Multiset.coe_card]
  exact roster.rooms.size_eq_length_keys

/-- The answer to a join can be read off the attendance. -/
theorem join_eq (records : roster.Records maxRooms attendance) (id : ConnectionId)
    (room : RoomName) :
    (roster.join id room).map Prod.fst = attendance.joinAnswer maxRooms id room := by
  unfold Roster.join Attendance.joinAnswer
  cases present : roster.rooms.get? room with
  | some others =>
      have paired : id ∈ others ↔ (id, room) ∈ attendance := by
        rw [← records.mem_members, members, Index.group, present, Option.getD_some]
      have found : roster.containsRoom room = true := Table.contains_of_get?_eq_some present
      have somebody : ¬attendance.members room = ∅ := by
        rw [Attendance.members_eq_empty_iff, not_not, ← records.containsRoom_iff]
        exact found
      rw [if_neg somebody]
      dsimp only
      by_cases already : id ∈ others
      · rw [if_pos already, if_pos (paired.1 already)]
        rfl
      · rw [if_neg already, if_neg fun member => already (paired.2 member)]
        rfl
  | none =>
      have nobody : attendance.members room = ∅ := by
        rw [Attendance.members_eq_empty_iff, ← records.containsRoom_iff]
        simp [containsRoom, Table.contains, present]
      rw [if_pos nobody, ← records.maxRooms_eq, ← records.roomCount_eq]
      -- the ceiling is now written out on one side and named on the other
      change Except.map Prod.fst (match roster.ceiling? with | some limit => _ | none => _) =
        match roster.ceiling? with | some limit => _ | none => _
      cases roster.ceiling? <;> rfl

/-- A join that succeeds adds a pair. -/
theorem joined (records : roster.Records maxRooms attendance) {what : Join} {later : Roster}
    (success : roster.join id room = .ok (what, later)) :
    later.Records maxRooms (insert (id, room) attendance) where
  consistent := records.consistent.join success
  mem_members other place := by
    rw [mem_members_join success, records.mem_members, Finset.mem_insert, Prod.mk.injEq, or_comm,
      and_comm]
  maxRooms_eq := by
    rcases join_cases success with ⟨rfl, _⟩ | rfl
    · exact records.maxRooms_eq
    · exact records.maxRooms_eq

/-- A leave takes a pair away. -/
theorem left (records : roster.Records maxRooms attendance) (id : ConnectionId)
    (room : RoomName) :
    (roster.leave id room).2.Records maxRooms (attendance.erase (id, room)) where
  consistent := records.consistent.leave id room
  mem_members other place := by
    rw [mem_members_leave, records.mem_members, Finset.mem_erase, ne_eq, Prod.mk.injEq, and_comm,
      and_comm (a := place = room)]
  maxRooms_eq := by
    unfold Roster.leave
    split <;> exact records.maxRooms_eq

/-- The answer to a leave can be read off the attendance. -/
theorem leave_eq (records : roster.Records maxRooms attendance) (id : ConnectionId)
    (room : RoomName) : (roster.leave id room).1 = attendance.leaveAnswer id room := by
  have rest : (roster.leave id room).2.containsRoom room = true ↔
      room ∈ Attendance.rooms (attendance.erase (id, room)) :=
    (records.left id room).containsRoom_iff
  unfold Roster.leave at rest ⊢
  unfold Attendance.leaveAnswer
  by_cases member : id ∈ roster.members room
  · have paired := (records.mem_members id room).1 member
    simp only [if_pos member] at rest ⊢
    rw [if_neg (not_not.2 paired)]
    by_cases alone : attendance.members room = {id}
    · rw [if_pos alone, if_neg]
      rw [rest, Attendance.mem_rooms]
      rintro ⟨other, present⟩
      obtain ⟨different, stays⟩ := Finset.mem_erase.1 present
      rw [(Attendance.members_eq_singleton_iff.1 alone).2 other stays] at different
      exact different rfl
    · rw [if_neg alone, if_pos]
      rw [Attendance.members_eq_singleton_iff, not_and, not_forall] at alone
      obtain ⟨other, stays⟩ := alone paired
      rw [Classical.not_imp] at stays
      rw [rest, Attendance.mem_rooms]
      refine ⟨other, Finset.mem_erase.2 ⟨fun same => stays.2 ?_, stays.1⟩⟩
      rw [Prod.mk.injEq] at same
      exact same.1
  · rw [if_neg member, if_pos fun paired => member ((records.mem_members id room).2 paired)]

/-- A room goes with a connection that is alone in it. -/
theorem goesWith_iff (records : roster.Records maxRooms attendance) :
    goesWith id roster.rooms room = true ↔ room ∈ attendance.roomsAlone id := by
  have full := records.consistent.rooms_full
  have after : (roster.rooms.remove room id).contains room = true ↔
      ∃ other, (other, room) ∈ attendance ∧ other ≠ id := by
    refine (full.remove room id).contains_iff.trans (exists_congr fun other => ?_)
    rw [Index.mem_group_remove]
    exact and_congr (records.mem_members other room) (by simp)
  have before : roster.rooms.contains room = true ↔ ∃ other, (other, room) ∈ attendance :=
    records.containsRoom_iff.trans Attendance.mem_rooms
  rw [goesWith, Bool.and_eq_true, Bool.not_eq_true', ← Bool.not_eq_true, before, after,
    Attendance.mem_roomsAlone]
  constructor
  · rintro ⟨⟨other, present⟩, nobodyElse⟩
    have alone (another : ConnectionId) (stays : (another, room) ∈ attendance) : another = id :=
      Classical.byContradiction fun different => nobodyElse ⟨another, stays, different⟩
    exact ⟨alone other present ▸ present, alone⟩
  · rintro ⟨present, alone⟩
    exact ⟨⟨id, present⟩, fun ⟨other, stays, different⟩ => different (alone other stays)⟩

/-- In whatever order its rooms are gone through, taking a connection out of all of them
deletes the rooms that it was alone in and takes away all of its pairs. -/
theorem expelAll (records : roster.Records maxRooms attendance) {places : List RoomName}
    (order : places.Perm (roster.roomsOf id)) :
    let result := places.foldl (expel id) ([], roster.rooms)
    (result.1 : Multiset RoomName) = (attendance.roomsAlone id).val ∧
      Records { roster with rooms := result.2, memberships := roster.memberships.erase id }
        maxRooms (attendance.filter fun pair => pair.1 ≠ id) := by
  intro result
  have distinct : places.Nodup :=
    order.nodup_iff.2 (records.consistent.memberships_full.nodup_group id)
  have visited (room : RoomName) : room ∈ places ↔ (id, room) ∈ attendance := by
    rw [order.mem_iff, ← records.consistent.agree, records.mem_members]
  have deleted : result.1 = places.filter (goesWith id roster.rooms) :=
    fst_expelAll id distinct ([], roster.rooms)
  have members (other : ConnectionId) (room : RoomName) :
      other ∈ result.2.group room ↔ (other, room) ∈ attendance ∧ other ≠ id := by
    rw [mem_group_expelAll id other places room ([], roster.rooms), visited]
    refine (and_congr_left' (records.mem_members other room)).trans ?_
    exact and_congr_right fun paired =>
      not_congr ⟨And.right, fun same => ⟨same ▸ paired, same⟩⟩
  have filtered (other : ConnectionId) (room : RoomName) :
      (other, room) ∈ (attendance.filter fun pair => pair.1 ≠ id) ↔
        (other, room) ∈ attendance ∧ other ≠ id :=
    Finset.mem_filter
  refine ⟨?_, ⟨fun other room => ?_, ?_, records.consistent.memberships_full.erase id⟩,
    fun other room => ?_, records.maxRooms_eq⟩
  · refine coe_eq_val_iff.2 ⟨deleted ▸ distinct.filter _, fun room => ?_⟩
    rw [deleted, List.mem_filter, visited, records.goesWith_iff, Attendance.mem_roomsAlone]
    exact and_iff_right_of_imp And.left
  · refine (members other room).trans ?_
    rw [← records.mem_members, records.consistent.agree]
    unfold roomsOf Index.group
    rw [Table.get?_erase]
    by_cases same : other = id <;> simp [same]
  · exact Full.expelAll id places _ records.consistent.rooms_full
  · rw [filtered]
    exact members other room

theorem cleared (records : roster.Records maxRooms attendance) :
    roster.clear.Records maxRooms ∅ where
  consistent := consistent_of_empty rfl rfl
  mem_members id room := by simp [clear, members, Index.group]
  maxRooms_eq := records.maxRooms_eq

/-- An act is answered as the attendance tells, and does to the attendance what it does
to the roster. -/
theorem perform (records : roster.Records maxRooms attendance) (act : RosterAct) :
    (roster.perform act).1 = (attendance.perform maxRooms act).1 ∧
      (roster.perform act).2.Records maxRooms (attendance.perform maxRooms act).2 := by
  cases act with
  | join id room =>
      have answer := records.join_eq id room
      unfold Roster.perform Attendance.perform
      dsimp only
      rw [← answer]
      cases result : roster.join id room with
      | error limit => exact ⟨rfl, records⟩
      | ok success => exact ⟨rfl, records.joined result⟩
  | leave id room =>
      exact ⟨congrArg RosterAnswer.leave (records.leave_eq id room), records.left id room⟩
  | removeEverywhere id =>
      obtain ⟨deleted, later⟩ := records.expelAll (.refl (roster.roomsOf id))
      exact ⟨congrArg RosterAnswer.removed deleted, later⟩
  | clear => exact ⟨rfl, records.cleared⟩

theorem run (records : roster.Records maxRooms attendance) (acts : List RosterAct) :
    roster.answers acts = attendance.answers maxRooms acts ∧
      (roster.run acts).Records maxRooms (attendance.run maxRooms acts) := by
  induction acts generalizing roster attendance with
  | nil => exact ⟨rfl, records⟩
  | cons act rest induction =>
      obtain ⟨answer, later⟩ := records.perform act
      obtain ⟨answers, after⟩ := induction later
      exact ⟨List.cons_eq_cons.2 ⟨answer, answers⟩, after⟩

end Records

/-- Every view of a roster is the corresponding projection of an attendance: members,
rooms of a connection and rooms are listed without repetition, and a room that is listed
has members. -/
structure Shows (roster : Roster) (attendance : Attendance) : Prop where
  members : ∀ room,
    (roster.members room : Multiset ConnectionId) = (attendance.members room).val
  roomsOf : ∀ id, (roster.roomsOf id : Multiset RoomName) = (attendance.roomsOf id).val
  containsRoom : ∀ room, roster.containsRoom room = true ↔ room ∈ attendance.rooms
  roomCount : roster.roomCount = attendance.rooms.card
  rooms : (roster.rooms.keys : Multiset RoomName) = attendance.rooms.val
  listed : ∀ room others, (room, others) ∈ roster.rooms.entries →
    others = roster.members room ∧ others ≠ []

theorem Records.shows {roster : Roster} {maxRooms : Option Nat} {attendance : Attendance}
    (records : roster.Records maxRooms attendance) : roster.Shows attendance where
  members := records.coe_members
  roomsOf := records.coe_roomsOf
  containsRoom _ := records.containsRoom_iff
  roomCount := records.roomCount_eq
  rooms := records.coe_keys
  listed room others listed := by
    have present := Table.mem_entries_iff.1 listed
    refine ⟨by simp [Roster.members, Index.group, present], ?_⟩
    exact (records.consistent.rooms_full room others present).1

/-- A roster is a finite relation between connections and rooms.  Whatever is done to a
new roster, (1) every act is answered as the relation tells, (2) every view of the roster
is a projection of the relation, and (3) the order in which the rooms of a connection are
gone through matters neither for the rooms that are deleted with it nor for what is left. -/
theorem rosters_are_relations (maxRooms : Option Nat) (acts : List RosterAct) :
    let start : Roster := { maxRooms }
    let roster := start.run acts
    let attendance := Attendance.run ∅ maxRooms acts
    start.answers acts = Attendance.answers ∅ maxRooms acts ∧
      roster.Shows attendance ∧
      ∀ id places, List.Perm places (roster.roomsOf id) →
        let result := places.foldl (expel id) ([], roster.rooms)
        (result.1 : Multiset RoomName) = (attendance.roomsAlone id).val ∧
          Shows { roster with rooms := result.2, memberships := roster.memberships.erase id }
            (attendance.filter fun pair => pair.1 ≠ id) := by
  intro start roster attendance
  obtain ⟨answers, records⟩ := (Records.new maxRooms).run acts
  refine ⟨answers, records.shows, fun id places order => ?_⟩
  obtain ⟨deleted, later⟩ := records.expelAll order
  exact ⟨deleted, later.shows⟩

end Roster
end Parley
