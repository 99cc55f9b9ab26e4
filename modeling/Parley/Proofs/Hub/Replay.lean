import Parley.Proofs.Hub.Settled

/-!
# The replay law

What a lost transport could not write, what waited already, and what comes in until
the next transport: the newest of it, as much as a backlog keeps, goes into the
next outbox first and in this order.
-/

namespace Parley
namespace Hub

variable {hub : Hub} {id : ConnectionId} {connection : Connection}

/-- The payloads that an event hands to a connection. -/
def handedBy (hub : Hub) (id : ConnectionId) : HubEvent → List Payload
  | .serve request => hub.handed id request
  | _ => []

/-- The payloads that a run hands to a connection, in order. -/
def handedAll (hub : Hub) (id : ConnectionId) : List HubEvent → List Payload
  | [] => []
  | event :: rest => hub.handedBy id event ++ (hub.step event).handedAll id rest

/-- An id whose transport is not registered or detached by an event. -/
def Spares (id : ConnectionId) (generation : Generation) : HubEvent → Prop
  | .serve (.register other _ _) => other ≠ id
  | .serve (.detach other detached _) => ¬(other = id ∧ detached = generation)
  | _ => True

instance (id : ConnectionId) (generation : Generation) (event : HubEvent) :
    Decidable (Spares id generation event) := by
  cases event with
  | serve request => cases request <;> unfold Spares <;> infer_instance
  | _ => exact inferInstanceAs (Decidable True)

theorem get?_run_of_absent (absent : hub.connections.get? id = none) {events : List HubEvent}
    {generation : Generation} (spares : ∀ event ∈ events, Spares id generation event) :
    (hub.run events).connections.get? id = none := by
  induction events generalizing hub with
  | nil => exact absent
  | cons event rest induction =>
      rw [List.forall_mem_cons] at spares
      refine induction (get?_step_of_absent absent fun name outbox same => ?_) spares.2
      rw [same] at spares
      exact spares.1 rfl

/-- What is handed to a detached connection waits behind what waits already. -/
theorem step_of_detached (settled : hub.Settled)
    (present : hub.connections.get? id = some connection) {since : Stamp}
    (detached : connection.link = .detached since) {event : HubEvent}
    (spares : Spares id connection.generation event)
    (stays : (hub.step event).connections.get? id ≠ none) :
    ∃ later, (hub.step event).connections.get? id = some later ∧
      later.link = connection.link ∧ later.generation = connection.generation ∧
      later.backlog.held = Backlog.newest hub.settings.backlogCapacity
        (connection.backlog.held ++ hub.handedBy id event) := by
  have filed := settled.consistent.filed id connection present
  have kept : connection.backlog.held =
      Backlog.newest hub.settings.backlogCapacity (connection.backlog.held ++ []) := by
    rw [List.append_nil, ← filed.capacity_eq]
    exact (Backlog.newest_of_length_le filed.fits).symm
  cases event with
  | serve request =>
      have receives := receives_serve settled.consistent settled.separate present
        (fun name outbox same => by subst same; exact spares rfl)
        (fun undelivered same => by subst same; exact spares ⟨rfl, rfl⟩)
        (fun outbox _ attached => by rw [detached] at attached; cases attached)
        (fun removes => stays ((get?_step_eq_none_iff present _).2 removes))
      have agrees := connection.agreesButBacklog_deliverAll (hub.handed id request) hub.outboxes
      refine ⟨_, receives.entry, agrees.link_eq, agrees.generation_eq, ?_⟩
      rw [Connection.held_deliverAll_of_detached detached filed.fits, filed.capacity_eq]
      rfl
  | stop => exact absurd (hub.get?_closeAll id) stays
  | bring outbox capacity =>
      refine ⟨connection, ?_, rfl, rfl, kept⟩
      rcases hub.bring_cases outbox capacity with result | ⟨_, result⟩ <;> rw [result] <;>
        exact present
  | act outbox act => exact ⟨connection, present, rfl, rfl, kept⟩
  | elapse moment => exact ⟨connection, present, rfl, rfl, kept⟩

/-- A connection that stays detached along a run keeps the newest payloads of all that
it held and was handed. -/
theorem run_of_detached (settled : hub.Settled)
    (fits : hub.settings.backlogCapacity ≤ hub.settings.queueCapacity)
    {events : List HubEvent} (orderly : hub.Orderly events)
    (present : hub.connections.get? id = some connection) {since : Stamp}
    (detached : connection.link = .detached since)
    (spares : ∀ event ∈ events, Spares id connection.generation event)
    (stays : (hub.run events).connections.get? id ≠ none) :
    ∃ later, (hub.run events).connections.get? id = some later ∧
      later.link = connection.link ∧
      later.backlog.held = Backlog.newest hub.settings.backlogCapacity
        (connection.backlog.held ++ hub.handedAll id events) := by
  induction events generalizing hub connection with
  | nil =>
      have filed := settled.consistent.filed id connection present
      refine ⟨connection, present, rfl, ?_⟩
      rw [handedAll, List.append_nil, ← filed.capacity_eq]
      exact (Backlog.newest_of_length_le filed.fits).symm
  | cons event rest induction =>
      rw [List.forall_mem_cons] at spares
      have staysFirst : (hub.step event).connections.get? id ≠ none :=
        fun gone => stays (get?_run_of_absent gone spares.2)
      obtain ⟨middle, there, sameLink, sameGeneration, held⟩ :=
        step_of_detached settled present detached spares.1 staysFirst
      have sameSettings := hub.settings_step event
      obtain ⟨later, found, link, heldLater⟩ :=
        induction (settled.step fits orderly.1) (by rwa [sameSettings]) orderly.2 there
          (sameLink.trans detached) (by rw [sameGeneration]; exact spares.2) stays
      refine ⟨later, found, link.trans sameLink, ?_⟩
      rw [heldLater, sameSettings, held, Backlog.newest_newest_append, List.append_assoc]
      rfl

/-- A detachment puts what could not be written in front of what waits. -/
theorem detach_of_current (present : hub.connections.get? id = some connection)
    (grace : hub.settings.reconnectGrace.isZero = false) (undelivered : List Payload) :
    (hub.detach id connection.generation undelivered).connections.get? id =
      some { connection with
        link := .detached hub.stamp
        backlog := (connection.backlog.restoreFront undelivered).2 } := by
  simp [detach, present, grace, Connection.detach_eq]

/-- A registration of a detached connection moves its backlog to the fresh outbox. -/
theorem register_of_detached (settled : hub.Settled)
    (fits : hub.settings.backlogCapacity ≤ hub.settings.queueCapacity)
    (present : hub.connections.get? id = some connection) {outbox : OutboxId}
    (unused : hub.Unused outbox) (name : DisplayName) :
    (∃ attached, (hub.register id name outbox).2.connections.get? id = some attached ∧
        attached.link = .live outbox ∧ attached.backlog.held = []) ∧
      (hub.register id name outbox).2.outboxes.get? outbox =
        some { capacity := hub.settings.queueCapacity, held := connection.backlog.held } := by
  have filed := settled.consistent.filed id connection present
  have elsewhere : connection.link ≠ .live outbox := fun attached =>
    unused.2 (mem_attached_iff.2 ⟨id, connection, present, attached⟩)
  obtain ⟨revised, replayed⟩ := connection.attach_of_fresh name (hub.lastGeneration + 1)
    unused.1 elsewhere (Nat.le_trans (filed.capacity_eq ▸ filed.fits) fits)
  rcases hub.register_cases id name outbox with
    ⟨entry, found, result⟩ | ⟨_, absent, _⟩ | ⟨absent, _⟩
  · obtain rfl := Option.some.inj (found.symm.trans present)
    rw [result]
    refine ⟨⟨_, Table.get?_set_self _ _ _, ?_, ?_⟩, replayed⟩ <;> rw [revised]
  · rw [absent] at present
    cases present
  · rw [absent] at present
    cases present

/-- The replay law.  Along every run in which each registration brings a fresh outbox,
(a) nothing waits for a connection whose outbox is open, so a payload is never put
into an outbox while an older one waits, also not between two payloads that are handed
over together.  (b) When the latest transport of a connection is lost and the
connection is still known at its next registration, the new outbox then holds the
newest of what the transport could not write, of what waited already and of what came
in since, in this order; nothing waits any more, and whatever comes later leaves the
outbox behind it. -/
theorem replay_law (settings : Settings) (startedAt : Stamp) (fit : settings.fault = none) :
    let start := Hub.new settings startedAt
    (∀ events, start.Orderly events →
      let hub := start.run events
      ∀ id connection, hub.connections.get? id = some connection →
        (connection.isOpen hub.outboxes = true → connection.backlog.held = []) ∧
          ∀ earlier payload,
            let revised := (connection.deliverAll earlier hub.outboxes).2
            (revised.1.deliver payload revised.2).1 = .queued → revised.1.backlog.held = []) ∧
      ∀ before middle after id connection undelivered name outbox,
        let lost := start.run before
        let detachment := HubEvent.serve (.detach id connection.generation undelivered)
        let registration := HubEvent.serve (.register id name outbox)
        let detached := lost.step detachment
        let again := (detached.run middle).step registration
        start.Orderly (before ++ detachment :: (middle ++ [registration])) →
        settings.reconnectGrace.isZero = false →
        lost.connections.get? id = some connection →
        (∀ event ∈ middle, Spares id connection.generation event) →
        (detached.run middle).connections.get? id ≠ none →
        (∃ attached, again.connections.get? id = some attached ∧
            attached.link = .live outbox ∧ attached.backlog.held = []) ∧
          again.heldIn outbox = Backlog.newest settings.backlogCapacity
            (undelivered ++ connection.backlog.held ++ detached.handedAll id middle) ∧
          again.heldIn outbox <+: again.passed outbox after ++ (again.run after).heldIn outbox := by
  intro start
  have fits : settings.backlogCapacity ≤ settings.queueCapacity :=
    Settings.backlogCapacity_le_queueCapacity fit
  have settledAfter {events : List HubEvent} (orderly : start.Orderly events) :
      (start.run events).Settled := (Settled.new settings startedAt).run fits orderly
  constructor
  · intro events orderly hub id connection present
    have caughtUp := (settledAfter orderly).caughtUp id connection present
    refine ⟨caughtUp.nothing_waits, ?_⟩
    intro earlier payload revised queued
    exact (caughtUp.deliverAll earlier).held_of_queued queued
  · intro before middle after id connection undelivered name outbox lost detachment registration
      detached again orderly grace present spares stays
    obtain ⟨orderlyBefore, _, orderlyLater⟩ := orderly.append
    obtain ⟨orderlyMiddle, unused, _⟩ := Orderly.append orderlyLater
    have settled : lost.Settled := settledAfter orderlyBefore
    have lostSettings : lost.settings = settings := start.settings_run before
    have detachedSettings : detached.settings = settings :=
      (lost.settings_step detachment).trans lostSettings
    have foundSettings : (detached.run middle).settings = settings :=
      (detached.settings_run middle).trans detachedSettings
    have settledDetached : detached.Settled := settled.step (by rwa [lostSettings]) trivial
    have entry : detached.connections.get? id = some { connection with
        link := .detached lost.stamp
        backlog := (connection.backlog.restoreFront undelivered).2 } :=
      detach_of_current present (by rwa [lostSettings]) undelivered
    obtain ⟨later, found, _, held⟩ := run_of_detached settledDetached
      (by rwa [detachedSettings]) orderlyMiddle entry rfl spares stays
    have settledFound : (detached.run middle).Settled :=
      settledDetached.run (by rwa [detachedSettings]) orderlyMiddle
    obtain ⟨attached, replayed⟩ := register_of_detached settledFound (by rwa [foundSettings])
      found unused name
    refine ⟨attached, ?_, again.passed_append_heldIn outbox after⟩
    have capacity := (settled.consistent.filed id connection present).capacity_eq
    calc again.heldIn outbox
        = later.backlog.held := by
          unfold heldIn
          exact congrArg (Option.elim · [] Outbox.held) replayed
      _ = Backlog.newest settings.backlogCapacity
            (Backlog.newest settings.backlogCapacity (undelivered ++ connection.backlog.held) ++
              detached.handedAll id middle) := by
          rw [held, detachedSettings, Backlog.held_restoreFront, capacity, lostSettings]
      _ = Backlog.newest settings.backlogCapacity
            (undelivered ++ connection.backlog.held ++ detached.handedAll id middle) :=
          Backlog.newest_newest_append _ _ _

/-- A transport refuses one payload, hands another back and is replaced after a third:
of the three, a backlog of two keeps the last two for the new outbox. -/
theorem replay_law_keeps_two_of_three :
    let settings : Settings := { queueCapacity := 2, backlogCapacity := 2 }
    let alice : ConnectionId := ⟨"alice", by decide⟩
    let before : List HubEvent := [.bring 0 2, .serve (.register alice .default 0), .bring 1 2,
      .act 0 .refuse, .serve (.broadcast "waiting")]
    let lost := (Hub.new settings 0).run before
    let detached := lost.step (.serve (.detach alice 1 ["unwritten"]))
    let again := (detached.run [.serve (.broadcast "missed")]).step
      (.serve (.register alice .default 1))
    settings.fault = none ∧ again.heldIn 1 = ["waiting", "missed"] := by
  intro settings alice before lost detached again
  let connection : Connection :=
    { id := alice, name := .default, generation := 1, link := .live 0,
      backlog := { capacity := 2, held := ["waiting"] }, connectedAt := 0 }
  have fit : settings.fault = none := by decide
  obtain ⟨_, held, _⟩ := (replay_law settings 0 fit).2 before [.serve (.broadcast "missed")] []
    alice connection ["unwritten"] .default 1 (by decide) (by decide) (by decide) (by decide)
    (by decide)
  exact ⟨fit, held.trans (by decide)⟩

end Hub
end Parley
