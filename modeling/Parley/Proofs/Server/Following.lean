import Parley.Proofs.Hub.Stored
import Parley.Proofs.Server.Wiring

/-!
# Following a connection

Between the hub and its peer the payloads of a connection are in one of three places:
taken by the session of its transport, in the outbox of that transport, or in the
backlog.  `Server.Follows` says where they are, in order, in every situation of a
connection, from its registration to the loss of its transport and on to the next.
-/

namespace Parley

namespace Writer

/-- An outbox that is not closed may grow. -/
theorem Attends.grow {writer : Writer} {box : Outbox} (attends : writer.Attends box)
    {added : List Payload} (closed : box.isOpen = false → added = []) :
    writer.Attends { box with held := box.held ++ added } := by
  unfold Attends at *
  cases phase : writer.phase with
  | waiting | gathering | writing =>
      simp only [phase] at attends
      exact attends
  | draining => trivial
  | ended outcome =>
      simp only [phase] at attends
      obtain ⟨mild, shut, empty⟩ := attends
      refine ⟨mild, shut, ?_⟩
      rw [closed shut, List.append_nil]
      exact empty

end Writer

namespace Server

/-- The requests in the mailbox that tell the end of a transport of a connection. -/
def departures (server : Server) (id : ConnectionId) : List Request :=
  (server.broker.mailbox.map Letter.request).filter (Request.departs id)

/-- A session that has no part in its connection: not registered yet, refused or
over. -/
def Dormant (server : Server) (session : Session) : Prop :=
  match session.stage with
  | .enrolling ticket =>
      ∀ generation, server.broker.replies.get? ticket ≠ some (.ok (.registered generation))
  | .refusing _ | .over => True
  | .serving .. | .leaving .. => False

/-- How a session looks after the transport that its connection is attached to, and what
it has taken and not carried to the peer. -/
inductive Attends (server : Server) (id : ConnectionId) (generation : Generation)
    (session : Session) (box : Outbox) : List Payload → Prop
  /-- It does not know yet that it is registered. -/
  | enrolled {ticket : Ticket} (stage : session.stage = .enrolling ticket)
      (answered : server.broker.replies.get? ticket = some (.ok (.registered generation)))
      (listening : box.isOpen = true) (stays : server.departures id = []) :
      Attends server id generation session box []
  | working {writer : Writer} (writing : session.writer? = some writer)
      (current : session.generation? = some generation) (attends : writer.Attends box)
      (stays : server.departures id = []) :
      Attends server id generation session box writer.pending
  /-- It is over, and the hub is about to learn how it ended. -/
  | departed {request : Request} {pending : List Payload} (ended : session.stage = .over)
      (departs : server.departures id = [request])
      (tells : request = .detach id generation pending ∨ request = .unregister id generation)
      (closed : box.isOpen = false) (empty : box.held = []) :
      Attends server id generation session box pending

/-- Where the payloads of a connection are that have not been carried to its peer. -/
inductive Holds (server : Server) (id : ConnectionId) : List Payload → Prop
  | absent (absent : server.broker.hub.connections.get? id = none)
      (stays : server.departures id = []) : Holds server id []
  | detached {connection : Connection} {since : Stamp}
      (present : server.broker.hub.connections.get? id = some connection)
      (link : connection.link = .detached since) (stays : server.departures id = []) :
      Holds server id (connection.stored server.broker.hub.outboxes)
  | live {connection : Connection} {key : OutboxId} {session : Session} {box : Outbox}
      {pending : List Payload}
      (present : server.broker.hub.connections.get? id = some connection)
      (link : connection.link = .live key) (attending : server.sessions.get? key = some session)
      (own : session.admission.id = id)
      (found : server.broker.hub.outboxes.get? key = some box) (linked : box.released = false)
      (attends : server.Attends id connection.generation session box pending) :
      Holds server id (pending ++ connection.stored server.broker.hub.outboxes)

/-- The sessions of a connection, and the payloads that wait for its peer. -/
structure Follows (server : Server) (id : ConnectionId) (waiting : List Payload) : Prop where
  holds : server.Holds id waiting
  dormant : ∀ key session, server.sessions.get? key = some session → session.admission.id = id →
    (∀ connection, server.broker.hub.connections.get? id = some connection →
      connection.link ≠ .live key) →
    server.Dormant session

variable {server later : Server} {id : ConnectionId} {waiting : List Payload}

theorem Follows.new (settings : Settings) (startedAt : Stamp) (id : ConnectionId) :
    (Server.new settings startedAt).Follows id [] where
  holds := .absent rfl rfl
  dormant key session present := by cases present

theorem Holds.of_absent (holds : server.Holds id waiting)
    (absent : server.broker.hub.connections.get? id = none) :
    waiting = [] ∧ server.departures id = [] := by
  cases holds with
  | absent _ stays => exact ⟨rfl, stays⟩
  | detached present =>
      rw [absent] at present
      cases present
  | live present =>
      rw [absent] at present
      cases present

theorem Holds.of_detached (holds : server.Holds id waiting) {connection : Connection}
    (present : server.broker.hub.connections.get? id = some connection)
    (dead : connection.isLive = false) :
    waiting = connection.backlog.held ∧ server.departures id = [] := by
  cases holds with
  | absent absent =>
      rw [absent] at present
      cases present
  | detached there link stays =>
      obtain rfl := Option.some.inj (present.symm.trans there)
      exact ⟨Connection.stored_of_detached link _, stays⟩
  | live there link =>
      obtain rfl := Option.some.inj (present.symm.trans there)
      simp [Connection.isLive, link] at dead

theorem Holds.of_live (holds : server.Holds id waiting) {connection : Connection} {key : OutboxId}
    (present : server.broker.hub.connections.get? id = some connection)
    (link : connection.link = .live key) :
    ∃ session box pending, server.sessions.get? key = some session ∧ session.admission.id = id ∧
      server.broker.hub.outboxes.get? key = some box ∧ box.released = false ∧
      server.Attends id connection.generation session box pending ∧
      waiting = pending ++ connection.stored server.broker.hub.outboxes := by
  cases holds with
  | absent absent =>
      rw [absent] at present
      cases present
  | detached there detached =>
      obtain rfl := Option.some.inj (present.symm.trans there)
      rw [link] at detached
      cases detached
  | live there sameLink attending own found linked attends =>
      obtain rfl := Option.some.inj (present.symm.trans there)
      obtain rfl := Link.live.inj (link.symm.trans sameLink)
      exact ⟨_, _, _, attending, own, found, linked, attends, rfl⟩

theorem Dormant.congr {session : Session} (dormant : server.Dormant session)
    (replies : ∀ ticket generation, session.stage = .enrolling ticket →
      later.broker.replies.get? ticket = some (.ok (.registered generation)) →
      server.broker.replies.get? ticket = some (.ok (.registered generation))) :
    later.Dormant session := by
  unfold Dormant at *
  cases stage : session.stage with
  | enrolling ticket =>
      simp only [stage] at dormant
      exact fun generation given => dormant generation (replies ticket generation stage given)
  | serving generation reader writer => simp [stage] at dormant
  | leaving generation outcome writer => simp [stage] at dormant
  | _ => trivial

/-! ## Steps that only hand payloads to a connection -/

/-- A step that hands payloads to a connection and changes nothing else that concerns
it. -/
structure Hands (id : ConnectionId) (payloads : List Payload) (server later : Server) :
    Prop where
  absent : server.broker.hub.connections.get? id = none →
    later.broker.hub.connections.get? id = none ∧ payloads = []
  receives : ∀ connection, server.broker.hub.connections.get? id = some connection →
    Hub.Receives id connection payloads server.broker.hub later.broker.hub
  attending : ∀ connection key, server.broker.hub.connections.get? id = some connection →
    connection.link = .live key → later.sessions.get? key = server.sessions.get? key
  others : ∀ key session, later.sessions.get? key = some session → session.admission.id = id →
    server.sessions.get? key = some session ∨ later.Dormant session
  departures : later.departures id = server.departures id
  replies : ∀ key session ticket generation, server.sessions.get? key = some session →
    session.admission.id = id → session.stage = .enrolling ticket →
    (later.broker.replies.get? ticket = some (.ok (.registered generation)) ↔
      server.broker.replies.get? ticket = some (.ok (.registered generation)))

theorem Attends.hands {payloads : List Payload} (hands : Hands id payloads server later)
    {generation : Generation} {key : OutboxId} {session : Session} {box : Outbox}
    {pending added : List Payload} (attending : server.sessions.get? key = some session)
    (own : session.admission.id = id)
    (attends : server.Attends id generation session box pending)
    (closed : box.isOpen = false → added = []) :
    later.Attends id generation session { box with held := box.held ++ added } pending := by
  cases attends with
  | enrolled stage answered listening stays =>
      exact .enrolled stage ((hands.replies key session _ _ attending own stage).2 answered)
        listening (hands.departures.trans stays)
  | working writing current attends stays =>
      exact .working writing current (attends.grow closed) (hands.departures.trans stays)
  | departed ended departs tells shut empty =>
      refine .departed ended (hands.departures.trans departs) tells shut ?_
      rw [closed shut, List.append_nil]
      exact empty

/-- What is handed to a connection waits behind what waits already. -/
theorem Follows.hands (follows : server.Follows id waiting) (wired : server.Wired)
    {payloads : List Payload} (hands : Hands id payloads server later)
    (kept : ∀ connection, server.broker.hub.connections.get? id = some connection →
      ∀ delivery ∈ (connection.deliverAll payloads server.broker.hub.outboxes).1,
        delivery.isKept = true) :
    later.Follows id (waiting ++ payloads) := by
  obtain ⟨holds, dormant⟩ := follows
  -- a session that has no part in the connection gets none
  have others (linked : ∀ connection key,
      server.broker.hub.connections.get? id = some connection → connection.link = .live key →
      ∃ revised, later.broker.hub.connections.get? id = some revised ∧ revised.link = .live key)
      (key : OutboxId) (session : Session) (present : later.sessions.get? key = some session)
      (own : session.admission.id = id)
      (apart : ∀ connection, later.broker.hub.connections.get? id = some connection →
        connection.link ≠ .live key) : later.Dormant session := by
    rcases hands.others key session present own with before | dormantNow
    · refine (dormant key session before own fun connection there link => ?_).congr
        fun ticket generation stage => (hands.replies key session ticket generation before own
          stage).1
      obtain ⟨revised, found, sameLink⟩ := linked connection key there link
      exact apart revised found sameLink
    · exact dormantNow
  cases holds with
  | absent absent stays =>
      obtain ⟨absentLater, rfl⟩ := hands.absent absent
      refine ⟨.absent absentLater (hands.departures.trans stays), others fun _ _ there => ?_⟩
      rw [absent] at there
      cases there
  | @detached connection since present link stays =>
      have receives := hands.receives connection present
      have agrees := connection.agreesButBacklog_deliverAll payloads server.broker.hub.outboxes
      have linkLater := agrees.link_eq.trans link
      have stored := Connection.stored_deliverAll
        (wired.settled.caughtUp id connection present) (kept connection present)
      rw [Connection.stored_of_detached linkLater,
        ← Connection.stored_of_detached linkLater later.broker.hub.outboxes] at stored
      rw [← stored]
      refine ⟨.detached receives.entry linkLater (hands.departures.trans stays),
        others fun other key there live => ?_⟩
      obtain rfl := Option.some.inj (present.symm.trans there)
      rw [link] at live
      cases live
  | @live connection key session box pending present link attending own found linked attends =>
      have receives := hands.receives connection present
      have agrees := connection.agreesButBacklog_deliverAll payloads server.broker.hub.outboxes
      have linkLater := agrees.link_eq.trans link
      obtain ⟨added, grown, closed⟩ := Connection.get?_deliverAll_self link found payloads
      have foundLater := (receives.outbox key link).trans grown
      have stored := Connection.stored_deliverAll
        (wired.settled.caughtUp id connection present) (kept connection present)
      rw [Connection.stored_of_live linkLater grown,
        ← Connection.stored_of_live linkLater foundLater] at stored
      rw [List.append_assoc, ← stored]
      have attendsLater := attends.hands hands attending own closed
      rw [← agrees.generation_eq] at attendsLater
      refine ⟨.live receives.entry linkLater
        ((hands.attending connection key present link).trans attending) own foundLater linked
        attendsLater, others fun other key there live => ?_⟩
      obtain rfl := Option.some.inj (present.symm.trans there)
      exact ⟨_, receives.entry, agrees.link_eq.trans live⟩

end Server
end Parley
