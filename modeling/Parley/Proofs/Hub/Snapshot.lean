import Parley.Proofs.Hub.Consistency

/-!
# What a snapshot shows

A snapshot lists every connection and every room once, in the order of their texts, and
both lists tell the same about who is where.  Nothing of it depends on the order in which
the tables happen to keep their entries.
-/

namespace Parley

theorem ConnectionId.eq_of_text_eq {left right : ConnectionId} (same : left.text = right.text) :
    left = right := by
  cases left
  cases right
  cases same
  rfl

theorem RoomName.eq_of_text_eq {left right : RoomName} (same : left.text = right.text) :
    left = right := by
  cases left
  cases right
  cases same
  rfl

/-! ## Sorting by a text -/

section Sorting

variable {α : Type} {text : α → String} {values others : List α}

/-- The texts grow from one value to the next, so that none comes twice. -/
def Ascending (text : α → String) (values : List α) : Prop :=
  values.Pairwise fun left right => text left < text right

namespace Ascending

theorem nodup (ascending : Ascending text values) : values.Nodup := by
  refine List.Pairwise.imp (fun less => ?_) ascending
  rintro rfl
  exact String.lt_irrefl _ less

/-- Values whose texts grow are in the only order that there is for them. -/
theorem eq_of_mem_iff (ascending : Ascending text values) (growing : Ascending text others)
    (same : ∀ value, value ∈ values ↔ value ∈ others) : values = others :=
  List.Perm.eq_of_pairwise
    (fun _ _ _ _ before after => absurd after (String.lt_asymm before)) ascending growing
    ((List.perm_ext_iff_of_nodup ascending.nodup growing.nodup).2 same)

end Ascending

theorem perm_sortByText (text : α → String) (values : List α) :
    (sortByText text values).Perm values :=
  List.mergeSort_perm _ _

theorem mem_sortByText {value : α} : value ∈ sortByText text values ↔ value ∈ values :=
  (perm_sortByText text values).mem_iff

/-- Values with different texts are sorted strictly. -/
theorem ascending_sortByText (distinct : (values.map text).Nodup) :
    Ascending text (sortByText text values) := by
  have sorted : (sortByText text values).Pairwise fun left right =>
      (!decide (text right < text left)) = true := by
    refine List.pairwise_mergeSort (fun first second third before after => ?_)
      (fun left right => ?_) values
    · simp only [Bool.not_eq_true', decide_eq_false_iff_not, String.not_lt] at before after ⊢
      exact String.le_trans before after
    · simp only [Bool.or_eq_true, Bool.not_eq_true', decide_eq_false_iff_not, String.not_lt]
      exact String.le_total _ _
  have different : (sortByText text values).Pairwise fun left right => text left ≠ text right :=
    List.pairwise_map.1 (((perm_sortByText text values).map text).nodup_iff.2 distinct)
  refine (sorted.and different).imp fun ⟨atMost, unequal⟩ => ?_
  rw [Bool.not_eq_true', decide_eq_false_iff_not, String.not_lt] at atMost
  refine Decidable.byContradiction fun notLess => unequal ?_
  exact String.le_antisymm atMost (String.not_lt.1 notLess)

/-- The order in which values with different texts come does not matter. -/
theorem sortByText_congr (distinct : (values.map text).Nodup) (same : values.Perm others) :
    sortByText text values = sortByText text others := by
  refine Ascending.eq_of_mem_iff (ascending_sortByText distinct)
    (ascending_sortByText ((same.map text).nodup_iff.1 distinct)) fun value => ?_
  rw [mem_sortByText, mem_sortByText, same.mem_iff]

end Sorting

theorem ConnectionId.nodup_texts {ids : List ConnectionId} (distinct : ids.Nodup) :
    (ids.map ConnectionId.text).Nodup :=
  List.pairwise_map.2 (distinct.imp fun unequal same => unequal (eq_of_text_eq same))

theorem RoomName.nodup_texts {names : List RoomName} (distinct : names.Nodup) :
    (names.map RoomName.text).Nodup :=
  List.pairwise_map.2 (distinct.imp fun unequal same => unequal (eq_of_text_eq same))

/-- What is found first is the only one that there is to find. -/
theorem find?_eq_some_of_unique {α : Type} {values : List α} {wanted : α → Bool} {value : α}
    (member : value ∈ values) (suits : wanted value = true)
    (unique : ∀ other ∈ values, wanted other = true → other = value) :
    values.find? wanted = some value := by
  obtain ⟨found, result⟩ :=
    Option.isSome_iff_exists.1 (List.find?_isSome.2 ⟨value, member, suits⟩)
  rw [result, unique found (List.mem_of_find?_eq_some result) (List.find?_some result)]

namespace Hub

variable {hub other : Hub}

/-! ## Connections -/

/-- Every entry carries the id that it is filed under. -/
theorem Consistent.map_id_values (consistent : hub.Consistent) :
    hub.connections.values.map Connection.id = hub.connections.keys := by
  unfold Table.values Table.keys
  rw [List.map_map]
  refine List.map_congr_left fun entry member => ?_
  exact (consistent.filed entry.1 entry.2 (Table.mem_entries_iff.1 member)).id_eq

theorem Consistent.map_text_views (consistent : hub.Consistent) :
    (hub.connections.values.map hub.viewConnection).map (·.id.text) =
      hub.connections.keys.map ConnectionId.text := by
  rw [← consistent.map_id_values, List.map_map, List.map_map]
  rfl

/-- The views of connections are those of the entries in the table. -/
theorem Consistent.mem_connections_snapshot (consistent : hub.Consistent)
    {view : ConnectionView} :
    view ∈ hub.snapshot.connections ↔
      (hub.connections.get? view.id).map hub.viewConnection = some view := by
  unfold snapshot Table.values
  rw [mem_sortByText, List.map_map, List.mem_map]
  constructor
  · rintro ⟨⟨id, connection⟩, member, rfl⟩
    have present := Table.mem_entries_iff.1 member
    -- the view takes its id from the connection, the table files it under a key
    have own : connection.id = id := (consistent.filed id connection present).id_eq
    simp only [Function.comp_apply, viewConnection, own, present, Option.map_some]
  · intro shown
    obtain ⟨connection, present, same⟩ := Option.map_eq_some_iff.1 shown
    exact ⟨(view.id, connection), Table.mem_entries_iff.2 present, same⟩

/-- A connection is found in a snapshot as it is found in the table. -/
theorem Consistent.connection?_snapshot (consistent : hub.Consistent) (id : ConnectionId) :
    hub.snapshot.connection? id = (hub.connections.get? id).map hub.viewConnection := by
  cases present : hub.connections.get? id with
  | none =>
      refine List.find?_eq_none.2 fun view member same => ?_
      rw [decide_eq_true_eq] at same
      have shown := consistent.mem_connections_snapshot.1 member
      rw [same, present] at shown
      cases shown
  | some connection =>
      have own : (hub.viewConnection connection).id = id :=
        (consistent.filed id connection present).id_eq
      refine find?_eq_some_of_unique ?_ (decide_eq_true own) fun view member same => ?_
      · rw [consistent.mem_connections_snapshot, own, present, Option.map_some]
      · have shown := consistent.mem_connections_snapshot.1 member
        rw [of_decide_eq_true same, present] at shown
        exact (Option.some.inj shown).symm

/-! ## Rooms -/

/-- The views of rooms are those of the groups in the index. -/
theorem mem_rooms_snapshot {view : RoomView} :
    view ∈ hub.snapshot.rooms ↔
      (hub.roster.rooms.get? view.name).map (fun members => viewRoom (view.name, members)) =
        some view := by
  unfold snapshot
  rw [mem_sortByText, List.mem_map]
  constructor
  · rintro ⟨⟨room, members⟩, member, rfl⟩
    simp only [viewRoom, Table.mem_entries_iff.1 member, Option.map_some]
  · intro shown
    obtain ⟨members, present, same⟩ := Option.map_eq_some_iff.1 shown
    exact ⟨(view.name, members), Table.mem_entries_iff.2 present, same⟩

theorem ascending_rooms_snapshot (hub : Hub) : Ascending (·.name.text) hub.snapshot.rooms := by
  refine ascending_sortByText ?_
  have names : (hub.roster.rooms.entries.map viewRoom).map (·.name.text) =
      hub.roster.rooms.keys.map RoomName.text := by
    unfold Table.keys
    rw [List.map_map, List.map_map]
    rfl
  rw [names]
  exact RoomName.nodup_texts hub.roster.rooms.distinct

/-- A room that is listed has members, which are those that the roster tells of. -/
theorem Consistent.members_of_mem_rooms (consistent : hub.Consistent) {view : RoomView}
    (listed : view ∈ hub.snapshot.rooms) :
    view.members ≠ [] ∧ Ascending ConnectionId.text view.members ∧
      ∀ id, id ∈ view.members ↔ id ∈ hub.roster.members view.name := by
  obtain ⟨members, present, same⟩ := Option.map_eq_some_iff.1 (mem_rooms_snapshot.1 listed)
  obtain ⟨nonempty, distinct⟩ := consistent.roster.rooms_full view.name members present
  have shown : view.members = sortByText ConnectionId.text members := by rw [← same, viewRoom]
  have group : hub.roster.members view.name = members := by
    rw [Roster.members, Index.group, present, Option.getD_some]
  rw [shown, group]
  refine ⟨fun nobody => nonempty ?_, ascending_sortByText (ConnectionId.nodup_texts distinct),
    fun id => mem_sortByText⟩
  have empty := perm_sortByText ConnectionId.text members
  rw [nobody] at empty
  exact empty.nil_eq.symm

end Hub

/-! ## The two sides of a snapshot -/

/-- A view that tells of a connection what the table does. -/
structure ConnectionView.Shows (view : ConnectionView) (connection : Connection) : Prop where
  name : view.name = connection.name
  connectedAt : view.connectedAt = connection.connectedAt
  live : view.live = true ↔ ∃ outbox, connection.link = .live outbox
  detachedSince : ∀ since, view.detachedSince = some since ↔ connection.link = .detached since
  backlogSize : view.backlogSize = connection.backlog.held.length

namespace Snapshot

/-- A snapshot that shows everything that a hub knows, as it is and each thing once. -/
structure Mirrors (snapshot : Snapshot) (hub : Hub) : Prop where
  ids : (snapshot.connections.map ConnectionView.id).Perm hub.connections.keys
  connections_ascend : Ascending (·.id.text) snapshot.connections
  /-- Every view tells of the connection that is filed under its id. -/
  entries : ∀ view ∈ snapshot.connections, ∃ connection,
    hub.connections.get? view.id = some connection ∧ view.Shows connection
  /-- A connection is found in the list by its id. -/
  found : ∀ id view, snapshot.connection? id = some view ↔
    view ∈ snapshot.connections ∧ view.id = id
  places : ∀ view ∈ snapshot.connections,
    Ascending RoomName.text view.rooms ∧
      ∀ room, room ∈ view.rooms ↔ view.id ∈ hub.roster.members room
  names : (snapshot.rooms.map RoomView.name).Perm hub.roster.rooms.keys
  rooms_ascend : Ascending (·.name.text) snapshot.rooms
  attendance : ∀ view ∈ snapshot.rooms,
    view.members ≠ [] ∧ Ascending ConnectionId.text view.members ∧
      ∀ id, id ∈ view.members ↔ id ∈ hub.roster.members view.name

/-- A snapshot whose parts do not contradict each other. -/
structure Coherent (snapshot : Snapshot) : Prop where
  /-- A connection lists a room exactly when the room lists the connection. -/
  agree : ∀ connection ∈ snapshot.connections, ∀ room ∈ snapshot.rooms,
    (room.name ∈ connection.rooms ↔ connection.id ∈ room.members)
  rooms_listed : ∀ connection ∈ snapshot.connections, ∀ name ∈ connection.rooms,
    ∃ room ∈ snapshot.rooms, room.name = name
  members_listed : ∀ room ∈ snapshot.rooms, ∀ id ∈ room.members,
    ∃ connection ∈ snapshot.connections, connection.id = id
  detached : ∀ view ∈ snapshot.connections, view.detachedSince.isSome = !view.live
  detailed : ∀ name, (snapshot.roomDetail? name).isSome = true ↔
    ∃ view ∈ snapshot.rooms, view.name.text = name
  /-- The detail of a room has the view of every member. -/
  complete : ∀ name detail, snapshot.roomDetail? name = some detail →
    ∃ view ∈ snapshot.rooms, view.name.text = name ∧ detail.name = view.name ∧
      detail.members.map ConnectionView.id = view.members ∧
      ∀ member ∈ detail.members, member ∈ snapshot.connections

end Snapshot

namespace Hub

variable {hub other : Hub}

/-- What the hub shows of a connection is what the table tells of it. -/
theorem shows_viewConnection (hub : Hub) (connection : Connection) :
    (hub.viewConnection connection).Shows connection where
  name := rfl
  connectedAt := rfl
  live := by
    unfold viewConnection Connection.isLive
    cases connection.link <;> simp
  detachedSince since := by
    unfold viewConnection Connection.detachedSince
    cases connection.link <;> simp
  backlogSize := rfl

theorem Consistent.mirrors (consistent : hub.Consistent) : hub.snapshot.Mirrors hub where
  ids := by
    have shown := (perm_sortByText (·.id.text)
      (hub.connections.values.map hub.viewConnection)).map ConnectionView.id
    rw [List.map_map] at shown
    exact consistent.map_id_values ▸ shown
  connections_ascend := by
    refine ascending_sortByText ?_
    rw [consistent.map_text_views]
    exact ConnectionId.nodup_texts hub.connections.distinct
  entries view listed := by
    obtain ⟨connection, present, same⟩ :=
      Option.map_eq_some_iff.1 (consistent.mem_connections_snapshot.1 listed)
    exact ⟨connection, present, same ▸ hub.shows_viewConnection connection⟩
  found id view := by
    rw [consistent.connection?_snapshot]
    constructor
    · intro shown
      obtain ⟨connection, present, rfl⟩ := Option.map_eq_some_iff.1 shown
      have own : (hub.viewConnection connection).id = id :=
        (consistent.filed id connection present).id_eq
      rw [consistent.mem_connections_snapshot, own]
      exact ⟨shown, rfl⟩
    · rintro ⟨listed, rfl⟩
      exact consistent.mem_connections_snapshot.1 listed
  places view listed := by
    obtain ⟨connection, _, same⟩ :=
      Option.map_eq_some_iff.1 (consistent.mem_connections_snapshot.1 listed)
    have shown : view.rooms = sortByText RoomName.text (hub.roster.roomsOf view.id) := by
      rw [← same, viewConnection]
    rw [shown]
    refine ⟨ascending_sortByText (RoomName.nodup_texts ?_), fun room => ?_⟩
    · exact consistent.roster.memberships_full.nodup_group view.id
    · rw [mem_sortByText, consistent.roster.agree]
  names := by
    have shown := (perm_sortByText (·.name.text)
      (hub.roster.rooms.entries.map viewRoom)).map RoomView.name
    rw [List.map_map] at shown
    exact shown
  rooms_ascend := hub.ascending_rooms_snapshot
  attendance _ listed := consistent.members_of_mem_rooms listed

/-- Every member that is listed is a connection that is listed. -/
theorem Consistent.connection?_of_member (consistent : hub.Consistent) {id : ConnectionId}
    {room : RoomName} (member : id ∈ hub.roster.members room) :
    ∃ view, hub.snapshot.connection? id = some view ∧ view.id = id := by
  obtain ⟨connection, present⟩ :=
    Table.contains_eq_true_iff.1 (consistent.known id room member)
  refine ⟨hub.viewConnection connection, ?_, (consistent.filed id connection present).id_eq⟩
  rw [consistent.connection?_snapshot, present, Option.map_some]

/-- The views of the members of a room are looked up without a gap. -/
theorem Consistent.map_id_filterMap (consistent : hub.Consistent) {ids : List ConnectionId}
    {room : RoomName} (members : ∀ id ∈ ids, id ∈ hub.roster.members room) :
    (ids.filterMap hub.snapshot.connection?).map ConnectionView.id = ids := by
  induction ids with
  | nil => rfl
  | cons id rest induction =>
      obtain ⟨view, found, own⟩ :=
        consistent.connection?_of_member (members id List.mem_cons_self)
      rw [List.filterMap_cons_some found, List.map_cons, own,
        induction fun id member => members id (List.mem_cons_of_mem _ member)]

theorem Consistent.coherent (consistent : hub.Consistent) : hub.snapshot.Coherent where
  agree connection present room listed :=
    ((consistent.mirrors.places connection present).2 room.name).trans
      ((consistent.members_of_mem_rooms listed).2.2 connection.id).symm
  rooms_listed connection present name inRoom := by
    have member := ((consistent.mirrors.places connection present).2 name).1 inRoom
    cases found : hub.roster.rooms.get? name with
    | none =>
        rw [Roster.members, Index.group, found] at member
        cases member
    | some members =>
        refine ⟨viewRoom (name, members), ?_, rfl⟩
        rw [mem_rooms_snapshot]
        simp only [viewRoom, found, Option.map_some]
  members_listed room listed id member := by
    obtain ⟨view, found, own⟩ := consistent.connection?_of_member
      (((consistent.members_of_mem_rooms listed).2.2 id).1 member)
    exact ⟨view, List.mem_of_find?_eq_some found, own⟩
  detached view listed := by
    obtain ⟨connection, _, rfl⟩ :=
      Option.map_eq_some_iff.1 (consistent.mem_connections_snapshot.1 listed)
    simp only [viewConnection, Connection.detachedSince, Connection.isLive]
    cases connection.link <;> rfl
  detailed name := by
    rw [Snapshot.roomDetail?, Option.isSome_map, Snapshot.room?, List.find?_isSome]
    simp only [decide_eq_true_eq]
  complete name detail found := by
    obtain ⟨view, first, rfl⟩ := Option.map_eq_some_iff.1 found
    unfold Snapshot.room? at first
    have listed := List.mem_of_find?_eq_some first
    have called := List.find?_some first
    refine ⟨view, listed, of_decide_eq_true called, rfl, ?_, fun member shown => ?_⟩
    · exact consistent.map_id_filterMap fun id member =>
        ((consistent.members_of_mem_rooms listed).2.2 id).1 member
    · obtain ⟨id, _, looked⟩ := List.mem_filterMap.1 shown
      exact List.mem_of_find?_eq_some looked

/-! ## The order of the tables -/

/-- A hub with the same connections and rooms, where tables and groups may be gone through
in another order. -/
structure Reordered (hub other : Hub) : Prop where
  connections : ∀ id, other.connections.get? id = hub.connections.get? id
  rooms : ∀ room,
    Option.Rel List.Perm (hub.roster.rooms.get? room) (other.roster.rooms.get? room)
  memberships : ∀ id,
    Option.Rel List.Perm (hub.roster.memberships.get? id) (other.roster.memberships.get? id)

theorem Reordered.roomsOf_perm (reordered : hub.Reordered other) (id : ConnectionId) :
    (hub.roster.roomsOf id).Perm (other.roster.roomsOf id) := by
  have related := reordered.memberships id
  unfold Roster.roomsOf Index.group
  generalize hub.roster.memberships.get? id = here at related ⊢
  generalize other.roster.memberships.get? id = there at related ⊢
  cases related with
  | none => exact .refl _
  | some same => exact same

theorem Reordered.viewConnection_eq (reordered : hub.Reordered other)
    (consistent : hub.Consistent) : other.viewConnection = hub.viewConnection := by
  funext connection
  have sorted := sortByText_congr
    (RoomName.nodup_texts (consistent.roster.memberships_full.nodup_group connection.id))
    (reordered.roomsOf_perm connection.id)
  rw [viewConnection, viewConnection]
  exact congrArg _ sorted.symm

theorem Reordered.viewRoom_eq (reordered : hub.Reordered other) (consistent : hub.Consistent)
    (room : RoomName) :
    (other.roster.rooms.get? room).map (fun members => viewRoom (room, members)) =
      (hub.roster.rooms.get? room).map fun members => viewRoom (room, members) := by
  have related := reordered.rooms room
  have full := consistent.roster.rooms_full room
  generalize hub.roster.rooms.get? room = here at related full ⊢
  generalize other.roster.rooms.get? room = there at related ⊢
  cases related with
  | none => rfl
  | some same =>
      have sorted := sortByText_congr (ConnectionId.nodup_texts (full _ rfl).2) same
      rw [Option.map_some, Option.map_some, viewRoom, viewRoom, sorted]

/-- A snapshot does not tell in which order the tables keep their entries. -/
theorem Reordered.snapshot_eq (reordered : hub.Reordered other) (consistent : hub.Consistent) :
    other.snapshot = hub.snapshot := by
  have entries : hub.connections.entries.Perm other.connections.entries :=
    Table.perm_entries_of_get?_eq fun id => (reordered.connections id).symm
  have connections : other.snapshot.connections = hub.snapshot.connections := by
    have distinct : ((hub.connections.values.map hub.viewConnection).map (·.id.text)).Nodup := by
      rw [consistent.map_text_views]
      exact ConnectionId.nodup_texts hub.connections.distinct
    have same := sortByText_congr distinct ((entries.map Prod.snd).map hub.viewConnection)
    rw [snapshot, snapshot, reordered.viewConnection_eq consistent]
    exact same.symm
  have rooms : other.snapshot.rooms = hub.snapshot.rooms := by
    refine Ascending.eq_of_mem_iff other.ascending_rooms_snapshot hub.ascending_rooms_snapshot
      fun view => ?_
    rw [mem_rooms_snapshot, mem_rooms_snapshot, reordered.viewRoom_eq consistent]
  cases shown : other.snapshot
  cases hidden : hub.snapshot
  rw [shown, hidden] at connections rooms
  exact Snapshot.mk.injEq .. ▸ ⟨connections, rooms⟩

/-- Whatever was asked of a hub, its snapshot (1) shows every connection and every room
once, sorted strictly, and tells of each what the tables do, (2) tells the same in all its parts, the detail of a room
with the view of each member, (3) is taken without changing anything, and (4) would be the
same in any other order of the tables. -/
theorem snapshots_mirror_hubs (settings : Settings) (startedAt : Stamp)
    (events : List HubEvent) :
    let hub := (Hub.new settings startedAt).run events
    hub.snapshot.Mirrors hub ∧ hub.snapshot.Coherent ∧
      hub.serve .inspect = (.ok (.inspected hub.snapshot), hub) ∧
      ∀ other, hub.Reordered other → other.snapshot = hub.snapshot := by
  intro hub
  have consistent : hub.Consistent := (Consistent.new settings startedAt).run events
  exact ⟨consistent.mirrors, consistent.coherent, rfl,
    fun _ reordered => reordered.snapshot_eq consistent⟩

end Hub
end Parley
