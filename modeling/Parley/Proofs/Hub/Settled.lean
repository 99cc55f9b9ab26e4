import Parley.Proofs.Hub.Attached
import Parley.Proofs.Hub.Delivery

/-!
# Settled hubs

When every registration brings an outbox of its own, fresh and large enough for a
whole backlog, no payload waits for a transport whose outbox is open.  A backlog
begins to fill only after the outbox was closed, and an outbox that is closed never
opens again.
-/

namespace Parley

/-- A backlog that settings admit fits into a fresh outbox. -/
theorem Settings.backlogCapacity_le_queueCapacity {settings : Settings}
    (fit : settings.fault = none) : settings.backlogCapacity ≤ settings.queueCapacity := by
  unfold fault at fit
  split at fit
  · cases fit
  · split at fit
    · cases fit
    · split at fit
      · cases fit
      · rename_i enough
        exact Nat.le_of_not_lt enough

namespace Connection

/-- The outbox of the transport exists, and while it is open no payload waits. -/
structure CaughtUp (connection : Connection) (boxes : Outboxes) : Prop where
  exists_box : ∀ outbox, connection.link = .live outbox → ∃ box, boxes.get? outbox = some box
  nothing_waits : connection.isOpen boxes = true → connection.backlog.held = []

theorem isOpen_of_extends {before after : Outboxes} (growth : before.Extends after)
    (connection : Connection) : connection.isOpen after = connection.isOpen before := by
  unfold isOpen
  cases connection.link with
  | detached since => rfl
  | live outbox =>
      have related := growth outbox
      dsimp only
      generalize before.get? outbox = first at related
      generalize after.get? outbox = second at related
      cases related with
      | none => rfl
      | some extended => exact extended.isOpen

theorem isOpen_congr {left right : Connection} (link : left.link = right.link)
    (boxes : Outboxes) : left.isOpen boxes = right.isOpen boxes := by
  unfold isOpen
  rw [link]

theorem CaughtUp.extend {connection : Connection} {before after : Outboxes}
    (caughtUp : connection.CaughtUp before) (growth : before.Extends after) :
    connection.CaughtUp after where
  exists_box outbox attached := by
    obtain ⟨box, present⟩ := caughtUp.exists_box outbox attached
    obtain ⟨later, found, _⟩ := growth.exists present
    exact ⟨later, found⟩
  nothing_waits listening :=
    caughtUp.nothing_waits ((isOpen_of_extends growth connection).symm.trans listening)

theorem CaughtUp.deliver {connection : Connection} {boxes : Outboxes}
    (caughtUp : connection.CaughtUp boxes) (payload : Payload) :
    (connection.deliver payload boxes).2.1.CaughtUp (connection.deliver payload boxes).2.2 := by
  have growth := connection.extends_deliver payload boxes
  have agrees := connection.agreesButBacklog_deliver payload boxes
  rcases connection.deliver_cases payload boxes with
    ⟨_, _, _, _, _, result⟩ | ⟨_, _, _, _, _, result⟩ | ⟨closed, result⟩
  · rw [result] at growth ⊢
    exact caughtUp.extend growth
  · rw [result]
    exact caughtUp
  · rw [result] at agrees ⊢
    refine ⟨fun outbox attached => caughtUp.exists_box outbox (agrees.link_eq ▸ attached),
      fun listening => ?_⟩
    rw [isOpen_congr agrees.link_eq, closed] at listening
    cases listening

theorem CaughtUp.deliverAll {connection : Connection} {boxes : Outboxes}
    (caughtUp : connection.CaughtUp boxes) (payloads : List Payload) :
    (connection.deliverAll payloads boxes).2.1.CaughtUp
      (connection.deliverAll payloads boxes).2.2 :=
  @deliverAll_keeps CaughtUp (fun _ payload _ caughtUp => caughtUp.deliver payload) payloads
    connection boxes caughtUp

/-- An outbox that accepts a payload is the outbox of a connection for which nothing
waits. -/
theorem CaughtUp.held_of_queued {connection : Connection} {boxes : Outboxes}
    (caughtUp : connection.CaughtUp boxes) {payload : Payload}
    (queued : (connection.deliver payload boxes).1 = .queued) :
    connection.backlog.held = [] := by
  rcases connection.deliver_cases payload boxes with
    ⟨outbox, box, attached, present, accepted, _⟩ | ⟨_, _, _, _, _, result⟩ | ⟨_, result⟩
  · apply caughtUp.nothing_waits
    simp [isOpen, attached, present, (Outbox.answer_eq_accepted_iff.1 accepted).1]
  · simp [result] at queued
  · simp [result, keep] at queued

/-- A backlog moves to a fresh outbox as a whole. -/
theorem attach_of_fresh (connection : Connection) (name : DisplayName) {outbox : OutboxId}
    (generation : Generation) {boxes : Outboxes} {capacity : Nat}
    (fresh : boxes.get? outbox = some { capacity }) (elsewhere : connection.link ≠ .live outbox)
    (fits : connection.backlog.held.length ≤ capacity) :
    (connection.attach name outbox generation boxes).2.1 =
        { connection with
          name
          generation
          link := .live outbox
          backlog := { connection.backlog with held := [] } } ∧
      (connection.attach name outbox generation boxes).2.2.get? outbox =
        some { capacity, held := connection.backlog.held } := by
  have room : ([] : List Payload).length + connection.backlog.held.length ≤ capacity := by
    simpa using fits
  obtain ⟨nothingLeft, replayed⟩ := replay_of_fits fresh rfl room
  constructor
  · rw [attach_eq, nothingLeft]
    simp [Backlog.take, Backlog.restoreFront, Backlog.newest]
  · exact (get?_releaseLink_of_ne _ elsewhere).trans replayed

end Connection

namespace Hub

/-- A fresh outbox, empty and open, that no transport has. -/
def Unused (hub : Hub) (outbox : OutboxId) : Prop :=
  hub.outboxes.get? outbox = some { capacity := hub.settings.queueCapacity } ∧
    outbox ∉ hub.attached

instance (hub : Hub) (outbox : OutboxId) : Decidable (hub.Unused outbox) :=
  inferInstanceAs (Decidable (_ ∧ _))

/-- Every registration brings a fresh outbox. -/
def Admits (hub : Hub) : HubEvent → Prop
  | .serve (.register _ _ outbox) => hub.Unused outbox
  | _ => True

instance (hub : Hub) (event : HubEvent) : Decidable (hub.Admits event) := by
  unfold Admits
  split <;> infer_instance

/-- In a run, every registration brings a fresh outbox. -/
def Orderly (hub : Hub) : List HubEvent → Prop
  | [] => True
  | event :: rest => hub.Admits event ∧ (hub.step event).Orderly rest

instance decidableOrderly : (hub : Hub) → (events : List HubEvent) → Decidable (hub.Orderly events)
  | _, [] => isTrue trivial
  | hub, event :: rest =>
      have := decidableOrderly (hub.step event) rest
      inferInstanceAs (Decidable (_ ∧ _))

/-- Connections and rooms fit together, no two connections share an outbox, and
nothing waits for an open outbox. -/
structure Settled (hub : Hub) : Prop where
  consistent : hub.Consistent
  separate : hub.Separate
  caughtUp : ∀ id connection, hub.connections.get? id = some connection →
    connection.CaughtUp hub.outboxes

variable {hub : Hub}

theorem Orderly.append {first second : List HubEvent} (orderly : hub.Orderly (first ++ second)) :
    hub.Orderly first ∧ (hub.run first).Orderly second := by
  induction first generalizing hub with
  | nil => exact ⟨trivial, orderly⟩
  | cons event rest induction =>
      obtain ⟨start, later⟩ := induction orderly.2
      exact ⟨⟨orderly.1, start⟩, later⟩

theorem Settled.new (settings : Settings) (startedAt : Stamp) :
    (Hub.new settings startedAt).Settled where
  consistent := .new settings startedAt
  separate first second left right outbox present := by simp [Hub.new] at present
  caughtUp id connection present := by simp [Hub.new] at present

/-- Outboxes may grow, and entries may leave. -/
theorem Settled.extend {later : Hub} (settled : hub.Settled) (consistent : later.Consistent)
    (fewer : ∀ id connection, later.connections.get? id = some connection →
      hub.connections.get? id = some connection)
    (growth : hub.outboxes.Extends later.outboxes) : later.Settled where
  consistent := consistent
  separate := settled.separate.subset fewer
  caughtUp id connection present :=
    (settled.caughtUp id connection (fewer id connection present)).extend growth

/-- An entry may be revised or entered. -/
theorem Settled.set {later : Hub} (settled : hub.Settled) {id : ConnectionId}
    {revised : Connection} (consistent : later.Consistent) (separate : later.Separate)
    (connections : later.connections = hub.connections.set id revised)
    (growth : hub.outboxes.Extends later.outboxes)
    (caughtUp : revised.CaughtUp later.outboxes) : later.Settled where
  consistent := consistent
  separate := separate
  caughtUp other entry present := by
    rw [connections, Table.get?_set] at present
    split at present
    · obtain rfl := Option.some.inj present
      exact caughtUp
    · exact (settled.caughtUp other entry present).extend growth

theorem Settled.deliverTo (settled : hub.Settled) (payload : Payload) (id : ConnectionId) :
    (hub.deliverTo payload id).Settled := by
  have consistent := settled.consistent.deliverTo payload id
  have separate := settled.separate.deliverTo payload id
  have growth := hub.extends_deliverTo payload id
  cases present : hub.connections.get? id with
  | none =>
      rw [deliverTo_of_absent present]
      exact settled
  | some connection =>
      rw [deliverTo_of_present present] at consistent separate growth ⊢
      exact settled.set consistent separate rfl growth
        ((settled.caughtUp id connection present).deliver payload)

theorem Settled.purge (settled : hub.Settled) (id : ConnectionId) : (hub.purge id).Settled := by
  refine settled.extend (settled.consistent.purge id) (fun other connection found => ?_)
    (hub.extends_purge id)
  by_cases same : other = id
  · rw [same, get?_purge_self] at found
    cases found
  · rwa [hub.get?_purge_of_ne same] at found

/-- An entry may get an outbox that nobody has. -/
theorem Separate.enter {later : Hub} (separate : hub.Separate) {outbox : OutboxId}
    (spare : outbox ∉ hub.attached) {id : ConnectionId} {revised : Connection}
    (link : revised.link = .live outbox)
    (connections : later.connections = hub.connections.set id revised) : later.Separate := by
  refine separate.set (fun other entry box _ found attached => ?_) connections
  obtain rfl := Link.live.inj (link.symm.trans attached)
  exact link_ne_of_spare spare found

/-- A backlog that fits into a fresh outbox is replayed as a whole. -/
theorem Settled.register (settled : hub.Settled)
    (fits : hub.settings.backlogCapacity ≤ hub.settings.queueCapacity) {outbox : OutboxId}
    (unused : hub.Unused outbox) (id : ConnectionId) (name : DisplayName) :
    (hub.register id name outbox).2.Settled := by
  have consistent := settled.consistent.register id name outbox
  have growth := hub.extends_serve (.register id name outbox)
  simp only [serve] at growth
  have separate {later : Hub} {revised : Connection} (link : revised.link = .live outbox)
      (connections : later.connections = hub.connections.set id revised) : later.Separate :=
    settled.separate.enter unused.2 link connections
  rcases hub.register_cases id name outbox with
    ⟨connection, present, result⟩ | ⟨limit, _, result⟩ | ⟨_, result⟩ <;>
    rw [result] at consistent growth ⊢
  · have filed := settled.consistent.filed id connection present
    have room : connection.backlog.held.length ≤ hub.settings.queueCapacity :=
      Nat.le_trans (filed.capacity_eq ▸ filed.fits) fits
    obtain ⟨revised, replayed⟩ := connection.attach_of_fresh name (hub.lastGeneration + 1)
      unused.1 (link_ne_of_spare unused.2 present) room
    refine settled.set consistent (separate rfl rfl) rfl growth ?_
    rw [revised]
    refine ⟨fun box attached => ?_, fun _ => rfl⟩
    cases attached
    exact ⟨_, replayed⟩
  · exact settled.extend consistent (fun _ _ present => present) growth
  · refine settled.set consistent (separate rfl rfl) rfl growth
      ⟨fun box attached => ?_, fun _ => rfl⟩
    cases attached
    exact ⟨_, unused.1⟩

theorem Settled.detach (settled : hub.Settled) (id : ConnectionId) (generation : Generation)
    (undelivered : List Payload) : (hub.detach id generation undelivered).Settled := by
  have consistent := settled.consistent.detach id generation undelivered
  have growth := hub.extends_serve (.detach id generation undelivered)
  simp only [serve] at growth
  rcases hub.detach_cases id generation undelivered with
    ⟨_, result⟩ | ⟨connection, present, _, result⟩ | ⟨_, _, _, _, result⟩ |
      ⟨connection, present, _, _, result⟩ <;> rw [result] at consistent growth ⊢
  · exact settled
  · have agrees := connection.agreesButBacklog_deliverAll undelivered hub.outboxes
    exact settled.set consistent
      (settled.separate.revise present (fun _ attached => agrees.link_eq ▸ attached) rfl) rfl
      growth ((settled.caughtUp id connection present).deliverAll undelivered)
  · exact settled.purge id
  · refine settled.set consistent
      (settled.separate.revise present (fun box attached => by cases attached) rfl) rfl growth
      ⟨fun box attached => ?_, fun listening => ?_⟩
    · cases attached
    · simp [Connection.isOpen, Connection.detach_eq] at listening

theorem Settled.closeAll (settled : hub.Settled) : hub.closeAll.Settled :=
  settled.extend settled.consistent.closeAll
    (fun id _ found => absurd (hub.get?_closeAll id) (by simp [found])) hub.extends_closeAll

/-- Requests keep a hub settled when a registration brings a fresh outbox. -/
theorem Settled.serve (settled : hub.Settled)
    (fits : hub.settings.backlogCapacity ≤ hub.settings.queueCapacity) {request : Request}
    (admits : hub.Admits (.serve request)) : (hub.serve request).2.Settled := by
  have consistent := settled.consistent.serve request
  apply serve_keeps Settled hub request
  case register =>
    rintro id name outbox rfl
    exact settled.register fits admits id name
  case unregister =>
    intro id generation _
    rcases hub.unregister_cases id generation with ⟨_, _, _, result⟩ | result <;> rw [result]
    · exact settled.purge id
    · exact settled
  case detach => exact fun id generation undelivered _ => settled.detach id generation undelivered
  case expire =>
    intro id generation _
    rcases hub.expire_cases id generation with ⟨_, _, _, _, result⟩ | result <;> rw [result]
    · exact settled.purge id
    · exact settled
  case deliver => exact fun _ payload id settled => settled.deliverTo payload id
  case join =>
    rintro id room rfl
    rcases hub.joinRoom_cases id room with ⟨_, result⟩ | ⟨_, _, _, _, result⟩ <;>
      simp only [Hub.serve, result] at consistent ⊢
    · exact settled
    · exact settled.extend consistent (fun _ _ present => present) (.refl _)
  case leave =>
    rintro id room rfl
    exact settled.extend consistent (fun _ _ present => present) (.refl _)
  case close => exact fun _ => settled.closeAll
  case start => exact settled

/-- An outbox may change as long as it is not opened again. -/
theorem Settled.setOutbox (settled : hub.Settled) {outbox : OutboxId} {box : Outbox}
    (closed : ∀ before, hub.outboxes.get? outbox = some before → box.isOpen = true →
      before.isOpen = true)
    {later : Hub} (consistent : later.Consistent) (connections : later.connections = hub.connections)
    (outboxes : later.outboxes = hub.outboxes.set outbox box) : later.Settled := by
  refine ⟨consistent, settled.separate.subset fun _ _ found => connections ▸ found,
    fun id connection present => ?_⟩
  rw [connections] at present
  have caughtUp := settled.caughtUp id connection present
  refine ⟨fun other attached => ?_, fun listening => caughtUp.nothing_waits ?_⟩
  · obtain ⟨before, found⟩ := caughtUp.exists_box other attached
    rw [outboxes, Table.get?_set]
    split
    · exact ⟨box, rfl⟩
    · exact ⟨before, found⟩
  · unfold Connection.isOpen at listening ⊢
    cases attached : connection.link with
    | detached since => simp [attached] at listening
    | live other =>
        obtain ⟨before, found⟩ := caughtUp.exists_box other attached
        simp only [attached, outboxes, Table.get?_set] at listening ⊢
        split at listening
        · rename_i same
          subst same
          simpa [found] using closed before found (by simpa using listening)
        · exact listening

theorem Settled.step (settled : hub.Settled)
    (fits : hub.settings.backlogCapacity ≤ hub.settings.queueCapacity) {event : HubEvent}
    (admits : hub.Admits event) : (hub.step event).Settled := by
  have consistent := settled.consistent.step event
  cases event with
  | serve request => exact settled.serve fits admits
  | stop => exact settled.closeAll
  | bring outbox capacity =>
      rcases hub.bring_cases outbox capacity with result | ⟨absent, result⟩ <;>
        rw [result] at consistent ⊢
      · exact settled
      · refine settled.setOutbox (fun before found => ?_) consistent rfl rfl
        rw [absent] at found
        cases found
  | act outbox act =>
      cases present : hub.outboxes.get? outbox with
      | none =>
          have unchanged : hub.step (.act outbox act) = hub := by
            simp [Hub.step, Table.modify, present]
          rw [unchanged]
          exact settled
      | some box =>
          have changed : (hub.step (.act outbox act)).outboxes =
              hub.outboxes.set outbox (act.apply box) := by
            simp [Hub.step, Table.modify, present]
          refine settled.setOutbox (fun before found listening => ?_) consistent rfl changed
          obtain rfl := Option.some.inj (present.symm.trans found)
          exact OutboxAct.isOpen_of_isOpen_apply listening
  | elapse moment => exact settled.extend consistent (fun _ _ present => present) (.refl _)

theorem Settled.run (settled : hub.Settled)
    (fits : hub.settings.backlogCapacity ≤ hub.settings.queueCapacity) {events : List HubEvent}
    (orderly : hub.Orderly events) : (hub.run events).Settled := by
  induction events generalizing hub with
  | nil => exact settled
  | cons event rest induction =>
      have sameSettings := hub.settings_step event
      exact induction (settled.step fits orderly.1) (by rwa [sameSettings]) orderly.2

end Hub
end Parley
