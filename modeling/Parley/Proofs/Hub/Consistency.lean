import Parley.Proofs.Hub.Run
import Parley.Proofs.Roster

/-!
# Consistent hubs

The connections of a hub and the two indexes of its roster fit together: only
known connections are in rooms, and every entry carries its own id and a backlog
within its capacity.  Every event keeps this, so it holds along every run.
-/

namespace Parley

/-- An entry that belongs under an id, with a backlog within its capacity. -/
structure Connection.Filed (id : ConnectionId) (capacity : Nat) (connection : Connection) :
    Prop where
  id_eq : connection.id = id
  capacity_eq : connection.backlog.capacity = capacity
  fits : connection.backlog.Fits

namespace Connection

theorem Filed.of_agrees {id : ConnectionId} {capacity : Nat} {before after : Connection}
    (filed : before.Filed id capacity) (agrees : AgreesButBacklog before after)
    (sameCapacity : after.backlog.capacity = before.backlog.capacity)
    (fits : after.backlog.Fits) : after.Filed id capacity :=
  ⟨agrees.id_eq.trans filed.id_eq, sameCapacity.trans filed.capacity_eq, fits⟩

theorem Filed.deliver {id : ConnectionId} {capacity : Nat} {connection : Connection}
    (filed : connection.Filed id capacity) (payload : Payload) (boxes : Outboxes) :
    (connection.deliver payload boxes).2.1.Filed id capacity :=
  filed.of_agrees (connection.agreesButBacklog_deliver payload boxes)
    (connection.capacity_deliver payload boxes) (fits_deliver filed.fits payload boxes)

theorem Filed.deliverAll {id : ConnectionId} {capacity : Nat} {connection : Connection}
    (filed : connection.Filed id capacity) (payloads : List Payload) (boxes : Outboxes) :
    (connection.deliverAll payloads boxes).2.1.Filed id capacity :=
  filed.of_agrees (connection.agreesButBacklog_deliverAll payloads boxes)
    (connection.capacity_deliverAll payloads boxes) (fits_deliverAll filed.fits payloads boxes)

theorem Filed.attach {id : ConnectionId} {capacity : Nat} {connection : Connection}
    (filed : connection.Filed id capacity) (name : DisplayName) (outbox : OutboxId)
    (generation : Generation) (boxes : Outboxes) :
    (connection.attach name outbox generation boxes).2.1.Filed id capacity := by
  rw [attach_eq]
  exact ⟨filed.id_eq, filed.capacity_eq, .restoreFront _ _⟩

theorem Filed.detach {id : ConnectionId} {capacity : Nat} {connection : Connection}
    (filed : connection.Filed id capacity) (undelivered : List Payload) (since : Stamp)
    (boxes : Outboxes) :
    (connection.detach undelivered since boxes).2.1.Filed id capacity := by
  rw [detach_eq]
  exact ⟨filed.id_eq, filed.capacity_eq, .restoreFront _ _⟩

theorem Filed.new (id : ConnectionId) (name : DisplayName) (generation : Generation)
    (outbox : OutboxId) (capacity : Nat) (connectedAt : Stamp) :
    (Connection.new id name generation outbox capacity connectedAt).Filed id capacity :=
  ⟨rfl, rfl, Nat.zero_le _⟩

end Connection

/-- Connections and rooms fit together. -/
structure Hub.Consistent (hub : Hub) : Prop where
  roster : hub.roster.Consistent
  known : ∀ id room, id ∈ hub.roster.members room → hub.connections.contains id = true
  filed : ∀ id connection, hub.connections.get? id = some connection →
    connection.Filed id hub.settings.backlogCapacity

namespace Hub

theorem Consistent.new (settings : Settings) (startedAt : Stamp) :
    (Hub.new settings startedAt).Consistent where
  roster := Roster.consistent_of_empty rfl rfl
  known id room member := by simp [Hub.new, Roster.members, Index.group] at member
  filed id connection present := by simp [Hub.new] at present

/-- Only settings, connections and rooms matter. -/
theorem Consistent.congr {hub later : Hub} (consistent : hub.Consistent)
    (settings : later.settings = hub.settings) (connections : later.connections = hub.connections)
    (roster : later.roster = hub.roster) : later.Consistent where
  roster := by rw [roster]; exact consistent.roster
  known := by rw [roster, connections]; exact consistent.known
  filed := by rw [connections, settings]; exact consistent.filed

/-- An entry may be revised or entered. -/
theorem Consistent.set {hub later : Hub} (consistent : hub.Consistent) {id : ConnectionId}
    {connection : Connection} (filed : connection.Filed id hub.settings.backlogCapacity)
    (settings : later.settings = hub.settings)
    (connections : later.connections = hub.connections.set id connection)
    (roster : later.roster = hub.roster) : later.Consistent where
  roster := by rw [roster]; exact consistent.roster
  known other room member := by
    rw [roster] at member
    rw [connections, Table.contains_set]
    exact .inr (consistent.known other room member)
  filed other entry present := by
    rw [connections, Table.get?_set] at present
    rw [settings]
    split at present
    · rename_i same
      obtain rfl := Option.some.inj present
      rw [same]
      exact filed
    · exact consistent.filed other entry present

theorem Consistent.deliverTo {hub : Hub} (consistent : hub.Consistent) (payload : Payload)
    (id : ConnectionId) : (hub.deliverTo payload id).Consistent := by
  cases present : hub.connections.get? id with
  | none =>
      rw [deliverTo_of_absent present]
      exact consistent
  | some connection =>
      rw [deliverTo_of_present present]
      exact consistent.set ((consistent.filed id connection present).deliver payload _)
        rfl rfl rfl

theorem Consistent.purge {hub : Hub} (consistent : hub.Consistent) (id : ConnectionId) :
    (hub.purge id).Consistent := by
  cases present : hub.connections.get? id with
  | none =>
      rw [purge_of_absent present]
      exact consistent
  | some connection =>
      rw [purge_of_present present]
      refine ⟨consistent.roster.removeEverywhere id, fun other room member => ?_,
        fun other entry found => ?_⟩
      · obtain ⟨earlier, different⟩ :=
          (consistent.roster.mem_members_removeEverywhere id other room).1 member
        have known := consistent.known other room earlier
        unfold Table.contains at known ⊢
        rwa [Table.get?_erase_of_ne _ different]
      · rw [Table.get?_erase] at found
        split at found
        · cases found
        · exact consistent.filed other entry found

theorem Consistent.register {hub : Hub} (consistent : hub.Consistent) (id : ConnectionId)
    (name : DisplayName) (outbox : OutboxId) : (hub.register id name outbox).2.Consistent := by
  rcases hub.register_cases id name outbox with
    ⟨connection, present, result⟩ | ⟨limit, _, result⟩ | ⟨_, result⟩ <;> rw [result]
  · exact consistent.set ((consistent.filed id connection present).attach name outbox _ _)
      rfl rfl rfl
  · exact consistent.congr rfl rfl rfl
  · exact consistent.set (.new id name _ outbox _ _) rfl rfl rfl

theorem Consistent.detach {hub : Hub} (consistent : hub.Consistent) (id : ConnectionId)
    (generation : Generation) (undelivered : List Payload) :
    (hub.detach id generation undelivered).Consistent := by
  rcases hub.detach_cases id generation undelivered with
    ⟨_, result⟩ | ⟨connection, present, _, result⟩ | ⟨_, _, _, _, result⟩ |
      ⟨connection, present, _, _, result⟩ <;> rw [result]
  · exact consistent
  · exact consistent.set ((consistent.filed id connection present).deliverAll undelivered _)
      rfl rfl rfl
  · exact consistent.purge id
  · exact consistent.set ((consistent.filed id connection present).detach undelivered _ _)
      rfl rfl rfl

theorem Consistent.joinRoom {hub : Hub} (consistent : hub.Consistent) (id : ConnectionId)
    (room : RoomName) : (hub.joinRoom id room).2.Consistent := by
  rcases hub.joinRoom_cases id room with ⟨refusal, result⟩ | ⟨what, roster, known, joined, result⟩
  · rw [result]
    exact consistent
  · rw [result]
    refine ⟨consistent.roster.join joined, fun other place member => ?_, consistent.filed⟩
    rcases (Roster.mem_members_join joined).1 member with earlier | ⟨_, rfl⟩
    · exact consistent.known other place earlier
    · exact known

theorem Consistent.leaveRoom {hub : Hub} (consistent : hub.Consistent) (id : ConnectionId)
    (room : RoomName) : (hub.leaveRoom id room).Consistent where
  roster := consistent.roster.leave id room
  known other place member :=
    consistent.known other place ((hub.roster.mem_members_leave id other room place).1 member).1
  filed := consistent.filed

/-- Without connections there are no rooms to clear, so closing always leaves neither
connections nor rooms. -/
theorem Consistent.closeAll_eq_empty {hub : Hub} (consistent : hub.Consistent) :
    hub.closeAll.connections = .empty ∧ hub.closeAll.roster.rooms = .empty ∧
      hub.closeAll.roster.memberships = .empty := by
  unfold Hub.closeAll
  cases nothing : hub.connections.isEmpty with
  | false => exact ⟨rfl, rfl, rfl⟩
  | true =>
      simp only [if_true]
      have unknown (id : ConnectionId) : hub.connections.get? id = none :=
        Table.get?_eq_none_of_isEmpty nothing id
      have nobody (id : ConnectionId) (room : RoomName) : id ∉ hub.roster.members room := by
        intro member
        have known := consistent.known id room member
        simp [Table.contains, unknown id] at known
      refine ⟨Table.eq_empty_of_get?_eq_none unknown, Table.eq_empty_of_get?_eq_none fun room => ?_,
        Table.eq_empty_of_get?_eq_none fun id => ?_⟩
      · rw [consistent.roster.rooms_full.get?_eq_none_iff]
        exact List.eq_nil_iff_forall_not_mem.2 fun id member => nobody id room member
      · rw [consistent.roster.memberships_full.get?_eq_none_iff]
        exact List.eq_nil_iff_forall_not_mem.2 fun room member =>
          nobody id room ((consistent.roster.agree id room).2 member)

theorem Consistent.closeAll {hub : Hub} (consistent : hub.Consistent) :
    hub.closeAll.Consistent := by
  obtain ⟨noConnections, noRooms, noMemberships⟩ := consistent.closeAll_eq_empty
  refine ⟨Roster.consistent_of_empty noRooms noMemberships, fun id room member => ?_,
    fun id connection present => ?_⟩
  · simp [Roster.members, Index.group, noRooms] at member
  · simp [noConnections] at present

/-- Every request keeps a hub consistent. -/
theorem Consistent.serve {hub : Hub} (consistent : hub.Consistent) (request : Request) :
    (hub.serve request).2.Consistent := by
  apply serve_keeps Consistent hub request
  case register => exact fun id name outbox _ => consistent.register id name outbox
  case unregister =>
    intro id generation _
    rcases hub.unregister_cases id generation with ⟨_, _, _, result⟩ | result <;> rw [result]
    · exact consistent.purge id
    · exact consistent
  case detach => exact fun id generation undelivered _ => consistent.detach id generation undelivered
  case expire =>
    intro id generation _
    rcases hub.expire_cases id generation with ⟨_, _, _, _, result⟩ | result <;> rw [result]
    · exact consistent.purge id
    · exact consistent
  case deliver => exact fun _ payload id consistent => consistent.deliverTo payload id
  case join => exact fun id room _ => consistent.joinRoom id room
  case leave => exact fun id room _ => consistent.leaveRoom id room
  case close => exact fun _ => consistent.closeAll
  case start => exact consistent

theorem Consistent.step {hub : Hub} (consistent : hub.Consistent) (event : HubEvent) :
    (hub.step event).Consistent := by
  cases event with
  | serve request => exact consistent.serve request
  | stop => exact consistent.closeAll
  | bring outbox capacity =>
      rcases hub.bring_cases outbox capacity with result | ⟨_, result⟩ <;> rw [result]
      · exact consistent
      · exact consistent.congr rfl rfl rfl
  | act outbox act => exact consistent.congr rfl rfl rfl
  | elapse moment => exact consistent.congr rfl rfl rfl

theorem Consistent.run {hub : Hub} (consistent : hub.Consistent) (events : List HubEvent) :
    (hub.run events).Consistent :=
  run_keeps (fun _ event consistent => consistent.step event) hub events consistent

/-- Along every run of a hub, whatever is asked of it: (a) both indexes of the roster
record the same relation, (b) no group is empty, (c) whoever occurs in an index is
connected, (d) an entry carries the id that it is filed under and a backlog within
the capacity; and closing all connections also leaves no room. -/
theorem tables_agree_along_runs (settings : Settings) (startedAt : Stamp)
    (events : List HubEvent) :
    let hub := (Hub.new settings startedAt).run events
    (∀ id room, id ∈ hub.roster.members room ↔ room ∈ hub.roster.roomsOf id) ∧
      (∀ room members, hub.roster.rooms.get? room = some members → members ≠ []) ∧
      (∀ id rooms, hub.roster.memberships.get? id = some rooms → rooms ≠ []) ∧
      (∀ id room, id ∈ hub.roster.members room → id ∈ hub.connections.keys) ∧
      (∀ id, id ∈ hub.roster.memberships.keys → id ∈ hub.connections.keys) ∧
      (∀ id connection, hub.connections.get? id = some connection →
        connection.id = id ∧ connection.backlog.held.length ≤ settings.backlogCapacity) ∧
      hub.closeAll.roster.rooms = .empty ∧ hub.closeAll.roster.memberships = .empty := by
  intro hub
  have consistent : hub.Consistent := (Consistent.new settings startedAt).run events
  have sameSettings : hub.settings = settings := settings_run _ events
  have known (id : ConnectionId) (room : RoomName) (member : id ∈ hub.roster.members room) :
      id ∈ hub.connections.keys :=
    Table.contains_iff_mem_keys.1 (consistent.known id room member)
  refine ⟨consistent.roster.agree, fun room members found => ?_, fun id rooms found => ?_, known,
    fun id present => ?_, fun id connection present => ?_, consistent.closeAll_eq_empty.2⟩
  · exact (consistent.roster.rooms_full room members found).1
  · exact (consistent.roster.memberships_full id rooms found).1
  · obtain ⟨room, member⟩ :=
      consistent.roster.exists_room (Table.contains_iff_mem_keys.2 present)
    exact known id room member
  · obtain ⟨ownId, capacity, fits⟩ := consistent.filed id connection present
    rw [sameSettings] at capacity
    exact ⟨ownId, capacity ▸ fits⟩

end Hub
end Parley
