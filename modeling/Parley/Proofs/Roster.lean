import Parley.Proofs.Table

/-!
# Consistent rosters

A roster keeps one relation between connections and rooms in two indexes.  It is
consistent when the indexes agree and both are full, so that a room exists
exactly while it has members.  Every operation on a roster says what it does to
the relation and keeps it consistent.
-/

namespace Parley
namespace Roster

/-- Both indexes record the same relation, without empty groups. -/
structure Consistent (roster : Roster) : Prop where
  /-- A connection is a member of a room exactly when the room is one of its
  rooms. -/
  agree : ∀ id room, id ∈ roster.members room ↔ room ∈ roster.roomsOf id
  rooms_full : roster.rooms.Full
  memberships_full : roster.memberships.Full

/-- A roster without rooms is consistent. -/
theorem consistent_of_empty {roster : Roster} (noRooms : roster.rooms = .empty)
    (noMemberships : roster.memberships = .empty) : roster.Consistent where
  agree id room := by simp [members, roomsOf, Index.group, noRooms, noMemberships]
  rooms_full := by rw [noRooms]; exact .empty
  memberships_full := by rw [noMemberships]; exact .empty

/-- Entering a connection adds it to the members of the room only. -/
theorem mem_members_enter (roster : Roster) (id other : ConnectionId) (room place : RoomName) :
    other ∈ (roster.enter id room).members place ↔
      other ∈ roster.members place ∨ (place = room ∧ other = id) :=
  Index.mem_group_add roster.rooms room place id other

theorem mem_roomsOf_enter (roster : Roster) (id other : ConnectionId) (room place : RoomName) :
    place ∈ (roster.enter id room).roomsOf other ↔
      place ∈ roster.roomsOf other ∨ (other = id ∧ place = room) :=
  Index.mem_group_add roster.memberships id other room place

/-- Entering a connection into a room keeps a roster consistent. -/
theorem Consistent.enter {roster : Roster} (consistent : roster.Consistent)
    (id : ConnectionId) (room : RoomName) : (roster.enter id room).Consistent where
  agree other place := by
    rw [mem_members_enter, mem_roomsOf_enter, consistent.agree,
      and_comm (a := place = room)]
  rooms_full := consistent.rooms_full.add room id
  memberships_full := consistent.memberships_full.add id room

/-- A join that succeeds leaves the roster as it is, because the connection is a
member already, or enters the connection. -/
theorem join_cases {roster joined : Roster} {id : ConnectionId} {room : RoomName} {what : Join}
    (success : roster.join id room = .ok (what, joined)) :
    (joined = roster ∧ id ∈ roster.members room) ∨ joined = roster.enter id room := by
  unfold join at success
  cases present : roster.rooms.get? room with
  | some others =>
      simp only [present] at success
      split at success
      · rename_i member
        cases success
        exact Or.inl ⟨rfl, by simpa [members, Index.group, present] using member⟩
      · cases success
        exact Or.inr rfl
  | none =>
      simp only [present] at success
      split at success
      · cases success
      · cases success
        exact Or.inr rfl

/-- Joining keeps a roster consistent. -/
theorem Consistent.join {roster joined : Roster} (consistent : roster.Consistent)
    {id : ConnectionId} {room : RoomName} {what : Join}
    (success : roster.join id room = .ok (what, joined)) : joined.Consistent := by
  rcases join_cases success with ⟨rfl, _⟩ | rfl
  · exact consistent
  · exact consistent.enter id room

/-- After a successful join the members are those from before and the connection
that joined. -/
theorem mem_members_join {roster joined : Roster} {id other : ConnectionId}
    {room place : RoomName} {what : Join}
    (success : roster.join id room = .ok (what, joined)) :
    other ∈ joined.members place ↔
      other ∈ roster.members place ∨ (place = room ∧ other = id) := by
  rcases join_cases success with ⟨rfl, member⟩ | rfl
  · constructor
    · exact Or.inl
    · rintro (already | ⟨rfl, rfl⟩)
      · exact already
      · exact member
  · exact mem_members_enter roster id other room place

/-- After a leave the members are those from before without the connection that
left. -/
theorem mem_members_leave (roster : Roster) (id other : ConnectionId) (room place : RoomName) :
    other ∈ (roster.leave id room).2.members place ↔
      other ∈ roster.members place ∧ ¬(place = room ∧ other = id) := by
  unfold leave
  split
  · exact Index.mem_group_remove roster.rooms room place id other
  · rename_i stranger
    constructor
    · intro member
      refine ⟨member, ?_⟩
      rintro ⟨rfl, rfl⟩
      exact stranger member
    · exact And.left

/-- Leaving keeps a roster consistent. -/
theorem Consistent.leave {roster : Roster} (consistent : roster.Consistent)
    (id : ConnectionId) (room : RoomName) : (roster.leave id room).2.Consistent := by
  unfold Roster.leave
  split
  · refine ⟨fun other place => ?_, consistent.rooms_full.remove room id,
      consistent.memberships_full.remove id room⟩
    unfold members roomsOf
    rw [Index.mem_group_remove, Index.mem_group_remove]
    exact and_congr (consistent.agree other place) (not_congr And.comm)
  · exact consistent

theorem snd_expel (id : ConnectionId) (state : List RoomName × Index RoomName ConnectionId)
    (room : RoomName) : (expel id state room).2 = state.2.remove room id := by
  unfold expel
  dsimp only
  split <;> rfl

/-- Expelling a connection from several rooms takes it from the members of just
those rooms. -/
theorem mem_group_expelAll (id other : ConnectionId) (places : List RoomName)
    (room : RoomName) (state : List RoomName × Index RoomName ConnectionId) :
    other ∈ (places.foldl (expel id) state).2.group room ↔
      other ∈ state.2.group room ∧ ¬(room ∈ places ∧ other = id) := by
  induction places generalizing state with
  | nil => simp
  | cons place rest induction =>
      rw [List.foldl_cons, induction, snd_expel, Index.mem_group_remove, and_assoc, ← not_or,
        ← or_and_right, ← List.mem_cons]

theorem Full.expelAll (id : ConnectionId) (places : List RoomName)
    (state : List RoomName × Index RoomName ConnectionId) (full : state.2.Full) :
    (places.foldl (expel id) state).2.Full := by
  induction places generalizing state with
  | nil => exact full
  | cons place rest induction =>
      refine induction _ ?_
      rw [snd_expel]
      exact full.remove place id

/-- Removing a connection everywhere takes it from the members of every room and
leaves all others where they are. -/
theorem Consistent.mem_members_removeEverywhere {roster : Roster}
    (consistent : roster.Consistent) (id other : ConnectionId) (room : RoomName) :
    other ∈ (roster.removeEverywhere id).2.members room ↔
      other ∈ roster.members room ∧ other ≠ id := by
  have kept := mem_group_expelAll id other (roster.roomsOf id) room ([], roster.rooms)
  refine kept.trans (and_congr_right fun member => not_congr ?_)
  constructor
  · exact And.right
  · rintro rfl
    exact ⟨(consistent.agree other room).1 member, rfl⟩

/-- Removing a connection everywhere keeps a roster consistent. -/
theorem Consistent.removeEverywhere {roster : Roster} (consistent : roster.Consistent)
    (id : ConnectionId) : (roster.removeEverywhere id).2.Consistent where
  agree other room := by
    rw [consistent.mem_members_removeEverywhere, consistent.agree]
    unfold roomsOf Index.group Roster.removeEverywhere
    dsimp only
    rw [Table.get?_erase]
    by_cases same : other = id <;> simp [same]
  rooms_full := Full.expelAll id _ _ consistent.rooms_full
  memberships_full := consistent.memberships_full.erase id

/-- In a consistent roster a connection with an entry is a member of a room. -/
theorem Consistent.exists_room {roster : Roster} (consistent : roster.Consistent)
    {id : ConnectionId} (present : roster.memberships.contains id = true) :
    ∃ room, id ∈ roster.members room := by
  obtain ⟨rooms, found⟩ := Table.contains_eq_true_iff.1 present
  obtain ⟨room, member⟩ :=
    List.exists_mem_of_ne_nil rooms (consistent.memberships_full id rooms found).1
  exact ⟨room, (consistent.agree id room).2 (by simpa [roomsOf, Index.group, found] using member)⟩

end Roster
end Parley
