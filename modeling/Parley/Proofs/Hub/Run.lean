import Parley.Broker
import Parley.Proofs.Connection
import Parley.Transport.Reader

/-!
# Runs of a hub

A hub serves requests in any order.  Between two requests its surroundings move
on: transports bring outboxes, their consumers take payloads or leave, readers
confirm, time passes.  A run is any sequence of such events.
-/

namespace Parley

/-- What the transport behind an outbox does with it. -/
inductive OutboxAct
  /-- Its writer takes payloads, the oldest first. -/
  | take (count : Nat)
  /-- Its writer accepts nothing new. -/
  | refuse
  /-- Its writer leaves with everything that is held. -/
  | abandon
  /-- Its reader adds a confirmation. -/
  | confirm (confirmation : Confirmation)
  deriving DecidableEq, Repr

namespace OutboxAct

/-- What an act makes of an outbox. -/
def apply : OutboxAct → Outbox → Outbox
  | .take count, box => { box with held := box.held.drop count }
  | .refuse, box => box.refuse
  | .abandon, box => box.abandon
  | .confirm confirmation, box => Reader.confirm confirmation box

/-- What an act takes out of an outbox. -/
def taken : OutboxAct → Outbox → List Payload
  | .take count, box => box.held.take count
  | .abandon, box => box.held
  | .refuse, _ | .confirm _, _ => []

end OutboxAct

/-- What happens to a hub. -/
inductive HubEvent
  | serve (request : Request)
  /-- The broker stops, and all connections are closed. -/
  | stop
  /-- A transport brings an outbox of its own. -/
  | bring (outbox : OutboxId) (capacity : Nat)
  | act (outbox : OutboxId) (act : OutboxAct)
  /-- Time passes, and the graces that are over no longer run. -/
  | elapse (moment : Moment)
  deriving DecidableEq, Repr

namespace Hub

/-- What an event makes of a hub.  An outbox that exists is not brought again. -/
def step (hub : Hub) : HubEvent → Hub
  | .serve request => (hub.serve request).2
  | .stop => hub.closeAll
  | .bring outbox capacity =>
      if hub.outboxes.contains outbox then hub
      else { hub with outboxes := hub.outboxes.set outbox { capacity } }
  | .act outbox act => { hub with outboxes := hub.outboxes.modify outbox act.apply }
  | .elapse moment =>
      { hub with
        now := max hub.now moment
        expiries := hub.expiries.filter fun expiry => !Broker.isOver moment expiry }

/-- What several events make of a hub. -/
def run (hub : Hub) (events : List HubEvent) : Hub := events.foldl step hub

@[simp] theorem run_nil (hub : Hub) : hub.run [] = hub := rfl

@[simp] theorem run_cons (hub : Hub) (first : HubEvent) (rest : List HubEvent) :
    hub.run (first :: rest) = (hub.step first).run rest := rfl

theorem run_append (hub : Hub) (first second : List HubEvent) :
    hub.run (first ++ second) = (hub.run first).run second :=
  List.foldl_append

/-- What every event keeps, a run keeps. -/
theorem run_keeps {Kept : Hub → Prop}
    (stepKeeps : ∀ hub event, Kept hub → Kept (step hub event))
    (hub : Hub) (events : List HubEvent) (start : Kept hub) : Kept (hub.run events) := by
  induction events generalizing hub with
  | nil => exact start
  | cons first rest induction => exact induction (hub.step first) (stepKeeps hub first start)

/-! ## What an operation can do -/

/-- A delivery to a connection that the hub does not know has no effect. -/
theorem deliverTo_of_absent {hub : Hub} {id : ConnectionId}
    (absent : hub.connections.get? id = none) (payload : Payload) :
    hub.deliverTo payload id = hub := by
  simp [deliverTo, absent]

theorem deliverTo_of_present {hub : Hub} {id : ConnectionId} {connection : Connection}
    (present : hub.connections.get? id = some connection) (payload : Payload) :
    hub.deliverTo payload id =
      { hub with
        connections :=
          hub.connections.set id (connection.deliver payload hub.outboxes).2.1
        outboxes := (connection.deliver payload hub.outboxes).2.2 } := by
  simp [deliverTo, present]

theorem purge_of_absent {hub : Hub} {id : ConnectionId}
    (absent : hub.connections.get? id = none) : hub.purge id = hub := by
  simp [purge, absent]

theorem purge_of_present {hub : Hub} {id : ConnectionId} {connection : Connection}
    (present : hub.connections.get? id = some connection) :
    hub.purge id =
      { hub with
        connections := hub.connections.erase id
        roster := (hub.roster.removeEverywhere id).2
        outboxes := Connection.releaseLink connection.link hub.outboxes } := by
  simp [purge, present]

/-- A registration attaches a known connection, is refused, or enters a new
connection. -/
theorem register_cases (hub : Hub) (id : ConnectionId) (name : DisplayName)
    (outbox : OutboxId) :
    (∃ connection, hub.connections.get? id = some connection ∧
        hub.register id name outbox =
          (.ok (.registered (hub.lastGeneration + 1)),
            { hub with
              connections := hub.connections.set id
                (connection.attach name outbox (hub.lastGeneration + 1) hub.outboxes).2.1
              outboxes :=
                (connection.attach name outbox (hub.lastGeneration + 1) hub.outboxes).2.2
              lastGeneration := hub.lastGeneration + 1 })) ∨
      (∃ limit, hub.connections.get? id = none ∧
        hub.register id name outbox = (.error (.connectionLimit limit), hub.release outbox)) ∨
      (hub.connections.get? id = none ∧
        hub.register id name outbox =
          (.ok (.registered (hub.lastGeneration + 1)),
            { hub with
              connections := hub.connections.set id
                (Connection.new id name (hub.lastGeneration + 1) outbox
                  hub.settings.backlogCapacity hub.stamp)
              lastGeneration := hub.lastGeneration + 1 })) := by
  unfold register
  cases present : hub.connections.get? id with
  | some connection => exact .inl ⟨connection, rfl, rfl⟩
  | none =>
      cases limit? : hub.ceiling? with
      | some limit => exact .inr (.inl ⟨limit, rfl, rfl⟩)
      | none => exact .inr (.inr ⟨rfl, rfl⟩)

/-- Only the latest transport of a connection can unregister it. -/
theorem unregister_cases (hub : Hub) (id : ConnectionId) (generation : Generation) :
    (∃ connection, hub.connections.get? id = some connection ∧
        connection.generation = generation ∧ hub.unregister id generation = hub.purge id) ∨
      hub.unregister id generation = hub := by
  unfold unregister
  cases hub.connections.get? id with
  | none => exact .inr rfl
  | some connection =>
      by_cases current : connection.generation = generation
      · exact .inl ⟨connection, rfl, current, if_pos current⟩
      · exact .inr (if_neg current)

/-- Only a detached connection expires, and only at the end of its latest grace. -/
theorem expire_cases (hub : Hub) (id : ConnectionId) (generation : Generation) :
    (∃ connection, hub.connections.get? id = some connection ∧
        connection.generation = generation ∧ connection.isLive = false ∧
        hub.expire id generation = hub.purge id) ∨
      hub.expire id generation = hub := by
  unfold expire
  cases hub.connections.get? id with
  | none => exact .inr rfl
  | some connection =>
      by_cases current : connection.generation = generation
      · cases live : connection.isLive with
        | false => exact .inl ⟨connection, rfl, current, live, by simp [current, live]⟩
        | true => exact .inr (by simp [live])
      · exact .inr (by simp [current])

/-- A detachment of an unknown connection has no effect, a superseded transport only
hands over what it could not write, a connection without a grace is forgotten, and
any other one is detached. -/
theorem detach_cases (hub : Hub) (id : ConnectionId) (generation : Generation)
    (undelivered : List Payload) :
    (hub.connections.get? id = none ∧ hub.detach id generation undelivered = hub) ∨
      (∃ connection, hub.connections.get? id = some connection ∧
        connection.generation ≠ generation ∧
        hub.detach id generation undelivered =
          { hub with
            connections :=
              hub.connections.set id (connection.deliverAll undelivered hub.outboxes).2.1
            outboxes := (connection.deliverAll undelivered hub.outboxes).2.2 }) ∨
      (∃ connection, hub.connections.get? id = some connection ∧
        connection.generation = generation ∧ hub.settings.reconnectGrace.isZero = true ∧
        hub.detach id generation undelivered = hub.purge id) ∨
      (∃ connection, hub.connections.get? id = some connection ∧
        connection.generation = generation ∧ hub.settings.reconnectGrace.isZero = false ∧
        hub.detach id generation undelivered =
          { hub with
            connections := hub.connections.set id
              (connection.detach undelivered hub.stamp hub.outboxes).2.1
            outboxes := (connection.detach undelivered hub.stamp hub.outboxes).2.2
            expiries := hub.expiries ++
              [⟨hub.now + hub.settings.reconnectGrace.nanoseconds, id, generation⟩] }) := by
  unfold detach
  cases hub.connections.get? id with
  | none => exact .inl ⟨rfl, rfl⟩
  | some connection =>
      refine .inr ?_
      by_cases current : connection.generation = generation
      · refine .inr ?_
        cases grace : hub.settings.reconnectGrace.isZero with
        | true => exact .inl ⟨connection, rfl, current, rfl, by simp [current]⟩
        | false => exact .inr ⟨connection, rfl, current, rfl, by simp [current]⟩
      · exact .inl ⟨connection, rfl, current, by simp [current]⟩

/-- A join is refused, or changes the roster and nothing else. -/
theorem joinRoom_cases (hub : Hub) (id : ConnectionId) (room : RoomName) :
    (∃ refusal, hub.joinRoom id room = (.error refusal, hub)) ∨
      (∃ what roster, hub.connections.contains id = true ∧
        hub.roster.join id room = .ok (what, roster) ∧
        hub.joinRoom id room = (.ok .done, { hub with roster })) := by
  unfold joinRoom
  cases known : hub.connections.contains id with
  | false => exact .inl ⟨_, rfl⟩
  | true =>
      cases joined : hub.roster.join id room with
      | error limit => exact .inl ⟨_, rfl⟩
      | ok result => exact .inr ⟨result.1, result.2, rfl, rfl, rfl⟩

/-- An outbox is brought only under a name that no outbox has. -/
theorem bring_cases (hub : Hub) (outbox : OutboxId) (capacity : Nat) :
    hub.step (.bring outbox capacity) = hub ∨
      (hub.outboxes.get? outbox = none ∧
        hub.step (.bring outbox capacity) =
          { hub with outboxes := hub.outboxes.set outbox { capacity } }) := by
  unfold step
  dsimp only
  split
  · exact .inl rfl
  · rename_i absent
    refine .inr ⟨?_, rfl⟩
    simpa [Table.contains] using absent

/-! ## What every operation keeps -/

/-- What every delivery keeps, a message to several connections keeps. -/
theorem deliverToAll_keeps {Kept : Hub → Prop} {payload : Payload}
    (deliverKeeps : ∀ hub id, Kept hub → Kept (deliverTo hub payload id))
    (hub : Hub) (ids : List ConnectionId) (start : Kept hub) :
    Kept (hub.deliverToAll payload ids) := by
  unfold deliverToAll
  induction ids generalizing hub with
  | nil => exact start
  | cons id rest induction => exact induction _ (deliverKeeps hub id start)

/-- What every operation on a hub keeps, every request keeps. -/
theorem serve_keeps (Kept : Hub → Prop) (hub : Hub) (request : Request)
    (register : ∀ id name outbox, request = .register id name outbox →
      Kept (hub.register id name outbox).2)
    (unregister : ∀ id generation, request = .unregister id generation →
      Kept (hub.unregister id generation))
    (detach : ∀ id generation undelivered, request = .detach id generation undelivered →
      Kept (hub.detach id generation undelivered))
    (expire : ∀ id generation, request = .expire id generation → Kept (hub.expire id generation))
    (deliver : ∀ hub payload id, Kept hub → Kept (deliverTo hub payload id))
    (join : ∀ id room, request = .joinRoom id room → Kept (hub.joinRoom id room).2)
    (leave : ∀ id room, request = .leaveRoom id room → Kept (hub.leaveRoom id room))
    (close : request = .shutdown → Kept hub.closeAll) (start : Kept hub) :
    Kept (hub.serve request).2 := by
  cases request with
  | identify requested spare => exact start
  | register id name outbox => exact register id name outbox rfl
  | unregister id generation => exact unregister id generation rfl
  | detach id generation undelivered => exact detach id generation undelivered rfl
  | expire id generation => exact expire id generation rfl
  | broadcast payload => exact deliverToAll_keeps (fun hub => deliver hub payload) hub _ start
  | joinRoom id room => exact join id room rfl
  | leaveRoom id room => exact leave id room rfl
  | sendToRoom room payload sender =>
      exact deliverToAll_keeps (fun hub => deliver hub payload) hub _ start
  | sendToName name payload =>
      exact deliverToAll_keeps (fun hub => deliver hub payload) hub _ start
  | inspect => exact start
  | shutdown => exact close rfl

/-! ## Settings and time -/

/-- What a hub goes by: its settings and the present. -/
def terms (hub : Hub) : Settings × Moment := (hub.settings, hub.now)

theorem terms_deliverTo (hub : Hub) (payload : Payload) (id : ConnectionId) :
    (hub.deliverTo payload id).terms = hub.terms := by
  cases present : hub.connections.get? id with
  | none => rw [deliverTo_of_absent present]
  | some connection => rw [deliverTo_of_present present, terms, terms]

theorem terms_purge (hub : Hub) (id : ConnectionId) : (hub.purge id).terms = hub.terms := by
  cases present : hub.connections.get? id with
  | none => rw [purge_of_absent present]
  | some connection => rw [purge_of_present present, terms, terms]

theorem terms_closeAll (hub : Hub) : hub.closeAll.terms = hub.terms := by
  unfold closeAll
  split <;> rfl

/-- Requests change neither the settings nor the time. -/
theorem terms_serve (hub : Hub) (request : Request) :
    (hub.serve request).2.terms = hub.terms := by
  apply serve_keeps (fun later => later.terms = hub.terms) hub request
  case register =>
    intro id name outbox _
    rcases hub.register_cases id name outbox with
      ⟨_, _, result⟩ | ⟨_, _, result⟩ | ⟨_, result⟩ <;> rw [result] <;> rfl
  case unregister =>
    intro id generation _
    rcases hub.unregister_cases id generation with ⟨_, _, _, result⟩ | result <;> rw [result]
    exact hub.terms_purge id
  case detach =>
    intro id generation undelivered _
    rcases hub.detach_cases id generation undelivered with
      ⟨_, result⟩ | ⟨_, _, _, result⟩ | ⟨_, _, _, _, result⟩ | ⟨_, _, _, _, result⟩ <;> rw [result]
    · rfl
    · exact hub.terms_purge id
    · rfl
  case expire =>
    intro id generation _
    rcases hub.expire_cases id generation with ⟨_, _, _, _, result⟩ | result <;> rw [result]
    exact hub.terms_purge id
  case deliver => exact fun later payload id same => (later.terms_deliverTo payload id).trans same
  case join =>
    intro id room _
    rcases hub.joinRoom_cases id room with ⟨_, result⟩ | ⟨_, _, _, _, result⟩ <;> rw [result]
    rfl
  case leave => exact fun _ _ _ => rfl
  case close => exact fun _ => hub.terms_closeAll
  case start => rfl

theorem settings_closeAll (hub : Hub) : hub.closeAll.settings = hub.settings :=
  congrArg Prod.fst hub.terms_closeAll

/-- Requests do not change the settings. -/
theorem settings_serve (hub : Hub) (request : Request) :
    (hub.serve request).2.settings = hub.settings :=
  congrArg Prod.fst (hub.terms_serve request)

theorem settings_step (hub : Hub) (event : HubEvent) :
    (hub.step event).settings = hub.settings := by
  cases event with
  | serve request => exact hub.settings_serve request
  | stop => exact hub.settings_closeAll
  | bring outbox capacity =>
      rcases hub.bring_cases outbox capacity with result | ⟨_, result⟩ <;> rw [result]
  | act outbox act => rfl
  | elapse moment => rfl

theorem settings_run (hub : Hub) (events : List HubEvent) :
    (hub.run events).settings = hub.settings :=
  run_keeps (fun later event same => (later.settings_step event).trans same) hub events rfl

end Hub
end Parley
