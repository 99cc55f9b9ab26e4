import Parley.Proofs.Hub.Generation
import Parley.Proofs.Hub.Queue

/-!
# Attached outboxes

The hub only ever touches outboxes that a transport has or that a registration
brings.
-/

namespace Parley
namespace Hub

/-- The outboxes of all transports. -/
def attached (hub : Hub) : List OutboxId := hub.connections.values.filterMap Connection.outbox?

theorem mem_attached_iff {hub : Hub} {outbox : OutboxId} :
    outbox ∈ hub.attached ↔ ∃ id connection, hub.connections.get? id = some connection ∧
      connection.link = .live outbox := by
  simp only [attached, Table.values, List.mem_filterMap, List.mem_map,
    Connection.outbox?_eq_some_iff]
  constructor
  · rintro ⟨connection, ⟨⟨id, _⟩, member, rfl⟩, link⟩
    exact ⟨id, _, Table.mem_entries_iff.1 member, link⟩
  · rintro ⟨id, connection, present, link⟩
    exact ⟨connection, ⟨(id, connection), Table.mem_entries_iff.2 present, rfl⟩, link⟩

theorem link_ne_of_spare {hub : Hub} {outbox : OutboxId} (spare : outbox ∉ hub.attached)
    {id : ConnectionId} {connection : Connection}
    (present : hub.connections.get? id = some connection) : connection.link ≠ .live outbox :=
  fun link => spare (mem_attached_iff.2 ⟨id, connection, present, link⟩)

/-- An entry may be revised or entered without touching an outbox. -/
theorem not_mem_attached_of_set {hub later : Hub} {outbox : OutboxId}
    (spare : outbox ∉ hub.attached) {id : ConnectionId} {revised : Connection}
    (elsewhere : revised.link ≠ .live outbox)
    (connections : later.connections = hub.connections.set id revised) :
    outbox ∉ later.attached := by
  intro attached
  obtain ⟨other, entry, present, link⟩ := mem_attached_iff.1 attached
  rw [connections, Table.get?_set] at present
  split at present
  · obtain rfl := Option.some.inj present
    exact elsewhere link
  · exact spare (mem_attached_iff.2 ⟨other, entry, present, link⟩)

/-- An outbox that no transport has stays as it is, and nobody gets it. -/
def LeavesAlone (outbox : OutboxId) (hub later : Hub) : Prop :=
  later.outboxes.get? outbox = hub.outboxes.get? outbox ∧ outbox ∉ later.attached

theorem leavesAlone_deliverTo {hub : Hub} {outbox : OutboxId} (spare : outbox ∉ hub.attached)
    (payload : Payload) (id : ConnectionId) :
    LeavesAlone outbox hub (hub.deliverTo payload id) := by
  cases present : hub.connections.get? id with
  | none =>
      rw [deliverTo_of_absent present]
      exact ⟨rfl, spare⟩
  | some connection =>
      have elsewhere := link_ne_of_spare spare present
      have agrees := connection.agreesButBacklog_deliver payload hub.outboxes
      rw [deliverTo_of_present present]
      exact ⟨connection.get?_deliver_of_ne payload _ elsewhere,
        not_mem_attached_of_set spare (agrees.link_eq ▸ elsewhere) rfl⟩

theorem leavesAlone_purge {hub : Hub} {outbox : OutboxId} (spare : outbox ∉ hub.attached)
    (id : ConnectionId) : LeavesAlone outbox hub (hub.purge id) := by
  cases present : hub.connections.get? id with
  | none =>
      rw [purge_of_absent present]
      exact ⟨rfl, spare⟩
  | some connection =>
      have elsewhere := link_ne_of_spare spare present
      rw [purge_of_present present]
      refine ⟨Connection.get?_releaseLink_of_ne _ elsewhere, fun attached => ?_⟩
      obtain ⟨other, entry, found, link⟩ := mem_attached_iff.1 attached
      rw [Table.get?_erase] at found
      split at found
      · cases found
      · exact spare (mem_attached_iff.2 ⟨other, entry, found, link⟩)

theorem get?_releaseLinks {outbox : OutboxId} (connections : List Connection)
    (elsewhere : ∀ connection ∈ connections, connection.link ≠ .live outbox) (boxes : Outboxes) :
    (connections.foldl
      (fun boxes connection => Connection.releaseLink connection.link boxes) boxes).get? outbox =
        boxes.get? outbox := by
  induction connections generalizing boxes with
  | nil => rfl
  | cons connection rest induction =>
      rw [List.forall_mem_cons] at elsewhere
      exact (induction elsewhere.2 _).trans (Connection.get?_releaseLink_of_ne _ elsewhere.1)

theorem leavesAlone_closeAll {hub : Hub} {outbox : OutboxId} (spare : outbox ∉ hub.attached) :
    LeavesAlone outbox hub hub.closeAll := by
  refine ⟨?_, fun attached => ?_⟩
  · unfold closeAll
    split
    · rfl
    · refine get?_releaseLinks _ (fun connection member link => spare ?_) _
      refine List.mem_filterMap.2 ⟨connection, member, ?_⟩
      simp [Connection.outbox?, link]
  · obtain ⟨id, entry, found, _⟩ := mem_attached_iff.1 attached
    rw [get?_closeAll] at found
    cases found

/-- A request leaves alone what it does not bring. -/
theorem leavesAlone_serve {hub : Hub} {outbox : OutboxId} (spare : outbox ∉ hub.attached)
    {request : Request} (other : request.outbox? ≠ some outbox) :
    LeavesAlone outbox hub (hub.serve request).2 := by
  have elsewhere {id : ConnectionId} {connection : Connection}
      (present : hub.connections.get? id = some connection) : connection.link ≠ .live outbox :=
    link_ne_of_spare spare present
  apply serve_keeps (LeavesAlone outbox hub) hub request
  case register =>
    rintro id name brought rfl
    have different : outbox ≠ brought := fun same => other (congrArg some same.symm)
    have away : Link.live brought ≠ .live outbox := fun same => different (Link.live.inj same).symm
    rcases hub.register_cases id name brought with
      ⟨connection, present, result⟩ | ⟨_, _, result⟩ | ⟨_, result⟩ <;> rw [result]
    · exact ⟨connection.get?_attach_of_ne name (hub.lastGeneration + 1) _ different
        (elsewhere present), not_mem_attached_of_set spare away rfl⟩
    · exact ⟨Outboxes.get?_release_of_ne _ different, spare⟩
    · exact ⟨rfl, not_mem_attached_of_set spare away rfl⟩
  case unregister =>
    intro id generation _
    rcases hub.unregister_cases id generation with ⟨_, _, _, result⟩ | result <;> rw [result]
    · exact leavesAlone_purge spare id
    · exact ⟨rfl, spare⟩
  case detach =>
    intro id generation undelivered _
    rcases hub.detach_cases id generation undelivered with
      ⟨_, result⟩ | ⟨connection, present, _, result⟩ | ⟨_, _, _, _, result⟩ |
        ⟨connection, present, _, _, result⟩ <;> rw [result]
    · exact ⟨rfl, spare⟩
    · have agrees := connection.agreesButBacklog_deliverAll undelivered hub.outboxes
      exact ⟨connection.get?_deliverAll_of_ne undelivered _ (elsewhere present),
        not_mem_attached_of_set spare (agrees.link_eq ▸ elsewhere present) rfl⟩
    · exact leavesAlone_purge spare id
    · exact ⟨Connection.get?_releaseLink_of_ne _ (elsewhere present),
        not_mem_attached_of_set spare (by simp [Connection.detach_eq]) rfl⟩
  case expire =>
    intro id generation _
    rcases hub.expire_cases id generation with ⟨_, _, _, _, result⟩ | result <;> rw [result]
    · exact leavesAlone_purge spare id
    · exact ⟨rfl, spare⟩
  case deliver =>
    intro later payload id alone
    have delivered := leavesAlone_deliverTo alone.2 payload id
    exact ⟨delivered.1.trans alone.1, delivered.2⟩
  case join =>
    intro id room _
    rcases hub.joinRoom_cases id room with ⟨_, result⟩ | ⟨_, _, _, _, result⟩ <;> rw [result]
    · exact ⟨rfl, spare⟩
    · exact ⟨rfl, spare⟩
  case leave => exact fun _ _ _ => ⟨rfl, spare⟩
  case close => exact fun _ => leavesAlone_closeAll spare
  case start => exact ⟨rfl, spare⟩

end Hub
end Parley
