import Parley.Proofs.Hub.Run
import Parley.Proofs.Transport.Reader

/-!
# What passes through an outbox

Whatever the hub adds to an outbox stands behind what is held, and a consumer takes
the oldest payloads.  So what has been taken from an outbox, followed by what it
still holds, only ever grows at the end.
-/

namespace Parley

namespace OutboxAct

/-- A consumer takes from the front, and a confirmation is added at the back. -/
theorem taken_append_held (act : OutboxAct) (box : Outbox) :
    ∃ added, act.taken box ++ (act.apply box).held = box.held ++ added := by
  cases act with
  | take count => exact ⟨[], by rw [List.append_nil]; exact List.take_append_drop count box.held⟩
  | refuse => exact ⟨[], by simp [taken, apply, Outbox.refuse]⟩
  | abandon => exact ⟨[], by simp [taken, apply, Outbox.abandon]⟩
  | confirm confirmation =>
      obtain ⟨added, grown⟩ := (Reader.fed_confirm confirmation box).held
      exact ⟨added, grown.symm⟩

/-- A consumer that has closed its outbox does not open it again. -/
theorem isOpen_of_isOpen_apply {act : OutboxAct} {box : Outbox}
    (listening : (act.apply box).isOpen = true) : box.isOpen = true := by
  cases act with
  | take count => exact listening
  | refuse =>
      unfold apply Outbox.refuse at listening
      by_cases before : box.consumer = .listening
      · simp [Outbox.isOpen, before]
      · simp [Outbox.isOpen, before] at listening
  | abandon => simp [apply, Outbox.abandon, Outbox.isOpen] at listening
  | confirm confirmation =>
      rwa [apply, (Reader.fed_confirm confirmation box).isOpen] at listening

end OutboxAct

namespace Hub

theorem extends_deliverTo (hub : Hub) (payload : Payload) (id : ConnectionId) :
    hub.outboxes.Extends (hub.deliverTo payload id).outboxes := by
  cases present : hub.connections.get? id with
  | none =>
      rw [deliverTo_of_absent present]
      exact .refl _
  | some connection =>
      rw [deliverTo_of_present present]
      exact connection.extends_deliver payload hub.outboxes

theorem extends_purge (hub : Hub) (id : ConnectionId) :
    hub.outboxes.Extends (hub.purge id).outboxes := by
  cases present : hub.connections.get? id with
  | none =>
      rw [purge_of_absent present]
      exact .refl _
  | some connection =>
      rw [purge_of_present present]
      exact Connection.extends_releaseLink connection.link hub.outboxes

theorem letsGo_releaseLinks (connections : List Connection) (boxes : Outboxes) :
    boxes.LetsGo (connections.foldl
      (fun boxes connection => Connection.releaseLink connection.link boxes) boxes) := by
  induction connections generalizing boxes with
  | nil => exact .refl boxes
  | cons connection rest induction =>
      exact (Connection.letsGo_releaseLink connection.link boxes).trans (induction _)

theorem letsGo_closeAll (hub : Hub) : hub.outboxes.LetsGo hub.closeAll.outboxes := by
  unfold closeAll
  split
  · exact .refl _
  · exact letsGo_releaseLinks hub.connections.values hub.outboxes

theorem extends_closeAll (hub : Hub) : hub.outboxes.Extends hub.closeAll.outboxes :=
  hub.letsGo_closeAll.extends

/-- No request takes a payload out of an outbox. -/
theorem extends_serve (hub : Hub) (request : Request) :
    hub.outboxes.Extends (hub.serve request).2.outboxes := by
  apply serve_keeps (fun later => hub.outboxes.Extends later.outboxes) hub request
  case register =>
    intro id name outbox _
    rcases hub.register_cases id name outbox with
      ⟨connection, _, result⟩ | ⟨_, _, result⟩ | ⟨_, result⟩ <;> rw [result]
    · exact connection.extends_attach name outbox (hub.lastGeneration + 1) hub.outboxes
    · exact hub.outboxes.extends_release outbox
    · exact .refl _
  case unregister =>
    intro id generation _
    rcases hub.unregister_cases id generation with ⟨_, _, _, result⟩ | result <;> rw [result]
    · exact hub.extends_purge id
    · exact .refl _
  case detach =>
    intro id generation undelivered _
    rcases hub.detach_cases id generation undelivered with
      ⟨_, result⟩ | ⟨connection, _, _, result⟩ | ⟨_, _, _, _, result⟩ |
        ⟨connection, _, _, _, result⟩ <;> rw [result]
    · exact .refl _
    · exact connection.extends_deliverAll undelivered _
    · exact hub.extends_purge id
    · exact Connection.extends_releaseLink connection.link _
  case expire =>
    intro id generation _
    rcases hub.expire_cases id generation with ⟨_, _, _, _, result⟩ | result <;> rw [result]
    · exact hub.extends_purge id
    · exact .refl _
  case deliver =>
    intro later payload id growth
    exact growth.trans (later.extends_deliverTo payload id)
  case join =>
    intro id room _
    rcases hub.joinRoom_cases id room with ⟨_, result⟩ | ⟨_, _, _, _, result⟩ <;> rw [result]
    · exact .refl _
    · exact .refl _
  case leave => exact fun _ _ _ => .refl _
  case close => exact fun _ => hub.extends_closeAll
  case start => exact .refl _

/-! ## Streams -/

/-- The payloads in an outbox. -/
def heldIn (hub : Hub) (outbox : OutboxId) : List Payload :=
  (hub.outboxes.get? outbox).elim [] Outbox.held

/-- The payloads that an event takes out of an outbox. -/
def passedBy (hub : Hub) (outbox : OutboxId) : HubEvent → List Payload
  | .act other act => if other = outbox then (hub.outboxes.get? outbox).elim [] act.taken else []
  | _ => []

/-- The payloads that a run takes out of an outbox, in order. -/
def passed (hub : Hub) (outbox : OutboxId) : List HubEvent → List Payload
  | [] => []
  | event :: rest => hub.passedBy outbox event ++ (hub.step event).passed outbox rest

theorem heldIn_of_extends {hub later : Hub} (growth : hub.outboxes.Extends later.outboxes)
    (outbox : OutboxId) : hub.heldIn outbox <+: later.heldIn outbox := by
  have related := growth outbox
  unfold heldIn
  generalize hub.outboxes.get? outbox = before at related
  generalize later.outboxes.get? outbox = after at related
  cases related with
  | none => exact List.prefix_rfl
  | some extended => exact extended.held

/-- One event takes payloads from the front of an outbox and adds others at its
back. -/
theorem passedBy_append_heldIn (hub : Hub) (outbox : OutboxId) (event : HubEvent) :
    hub.heldIn outbox <+: hub.passedBy outbox event ++ (hub.step event).heldIn outbox := by
  cases event with
  | serve request => exact heldIn_of_extends (hub.extends_serve request) outbox
  | stop => exact heldIn_of_extends hub.extends_closeAll outbox
  | bring other capacity =>
      rcases hub.bring_cases other capacity with result | ⟨absent, result⟩ <;> rw [result]
      · exact List.prefix_rfl
      · unfold heldIn
        dsimp only [passedBy]
        rw [Table.get?_set]
        split
        · rename_i same
          rw [same, absent]
          exact List.nil_prefix
        · exact List.prefix_rfl
  | act other act =>
      unfold heldIn passedBy step
      dsimp only
      rw [Table.get?_modify]
      by_cases same : outbox = other
      · subst same
        rw [if_pos rfl, if_pos rfl]
        cases hub.outboxes.get? outbox with
        | none => exact List.prefix_rfl
        | some box =>
            obtain ⟨added, grown⟩ := act.taken_append_held box
            exact ⟨added, grown.symm⟩
      · rw [if_neg same, if_neg (Ne.symm same)]
        exact List.prefix_rfl
  | elapse moment => exact List.prefix_rfl

/-- What is held in an outbox leaves it before anything that comes later. -/
theorem passed_append_heldIn (hub : Hub) (outbox : OutboxId) (events : List HubEvent) :
    hub.heldIn outbox <+: hub.passed outbox events ++ (hub.run events).heldIn outbox := by
  induction events generalizing hub with
  | nil => exact List.prefix_rfl
  | cons event rest induction =>
      have first := hub.passedBy_append_heldIn outbox event
      have later := induction (hub.step event)
      rw [passed, List.append_assoc]
      exact first.trans ((List.prefix_append_right_inj _).2 later)

end Hub
end Parley
