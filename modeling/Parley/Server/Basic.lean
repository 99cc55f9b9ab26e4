import Parley.Transport.Session

/-!
# Servers

A server is a broker and the sessions of all transports.  It moves in small steps
that may come in any order: the broker serves a request, a session takes up an
answer or an arrival, a writer begins or ends a write, time passes.  A step whose
time has not come changes nothing.
-/

namespace Parley

/-- A broker and the sessions around it, each named by its outbox. -/
structure Server where
  broker : Broker
  sessions : Table OutboxId Session := .empty
  nextOutbox : OutboxId := 0

namespace Server

/-- A server without sessions. -/
def new (settings : Settings) (startedAt : Stamp) : Server :=
  { broker := Broker.new settings startedAt }

/-- The settings of a server. -/
def settings (server : Server) : Settings := server.broker.hub.settings

/-- The present. -/
def now (server : Server) : Moment := server.broker.hub.now

/-- The outbox with a name; an empty one with nobody behind it when there is
none. -/
def outbox (server : Server) (id : OutboxId) : Outbox :=
  (server.broker.hub.outboxes.get? id).getD { capacity := 0, consumer := .gone, released := true }

/-- Put an outbox in place. -/
def setOutbox (server : Server) (id : OutboxId) (box : Outbox) : Server :=
  let hub := server.broker.hub
  { server with
    broker := { server.broker with hub := { hub with outboxes := hub.outboxes.set id box } } }

/-- Put a session in place. -/
def setSession (server : Server) (id : OutboxId) (session : Session) : Server :=
  { server with sessions := server.sessions.set id session }

/-- Make a fresh outbox. -/
def openOutbox (server : Server) (capacity : Nat) : OutboxId × Server :=
  (server.nextOutbox,
    { server.setOutbox server.nextOutbox { capacity } with nextOutbox := server.nextOutbox + 1 })

/-- Send a request to the broker. -/
def submit (server : Server) (request : Request) : Receipt × Server :=
  let (receipt, broker) := server.broker.submit request
  (receipt, { server with broker })

/-- Let the broker serve its oldest request. -/
def serveNext (server : Server) : Server := { server with broker := server.broker.serveNext }

/-- Let time pass up to a moment. -/
def tick (server : Server) (moment : Moment) : Server :=
  { server with broker := server.broker.tick moment }

/-- Begin the session of an admitted peer. -/
def upgrade (server : Server) (admission : Admission) : OutboxId × Server :=
  let (id, server) := server.openOutbox server.settings.queueCapacity
  let (receipt, server) := server.submit (admission.registration id)
  let stage := match receipt with
    | .pending ticket => .enrolling ticket
    | .settled outcome => Session.enrolled server.settings server.now outcome
  (id, server.setSession id { admission, stage })

/-- The outcome of a command reaches the reader of a session. -/
def concludeCommand (server : Server) (id : OutboxId) (session : Session) (command : Command)
    (outcome : Outcome) : Server :=
  let (reader, box) :=
    Reader.conclude server.settings server.now command outcome (server.outbox id)
  (server.setOutbox id box).setSession id (session.withReader reader)

/-- An answer of the broker that has come reaches the session that waits for
it. -/
def answer (server : Server) (id : OutboxId) : Server :=
  match server.sessions.get? id with
  | none => server
  | some session =>
      match session.stage with
      | .enrolling ticket =>
          match server.broker.replies.get? ticket with
          | some outcome =>
              server.setSession id
                { session with stage := Session.enrolled server.settings server.now outcome }
          | none => server
      | .serving _ (.asking command ticket) _ =>
          match server.broker.replies.get? ticket with
          | some outcome => server.concludeCommand id session command outcome
          | none => server
      | _ => server

/-- Something arrives at a session whose reader listens. -/
def arrive (server : Server) (id : OutboxId) (arrival : Arrival) : Server :=
  match server.sessions.get? id with
  | none => server
  | some session =>
      match session.reader? with
      | some (.listening _) =>
          match Reader.hear server.settings server.now session.admission.id arrival with
          | .turn reader => server.setSession id (session.withReader reader)
          | .ask command request =>
              match server.submit request with
              | (.pending ticket, server) =>
                  server.setSession id (session.withReader (.asking command ticket))
              | (.settled outcome, server) => server.concludeCommand id session command outcome
      | _ => server

/-- The silence of a peer has lasted too long. -/
def fallSilent (server : Server) (id : OutboxId) : Server :=
  match server.sessions.get? id with
  | none => server
  | some session =>
      match session.reader? with
      | some (.listening deadline) =>
          if Moment.roundUp deadline ≤ server.now then
            server.setSession id (session.withReader (.ended .idleTimeout))
          else server
      | _ => server

/-- The writer of a session and its outbox change. -/
def changeWriter (server : Server) (id : OutboxId)
    (change : Writer → Outbox → Writer × Outbox) : Server :=
  match server.sessions.get? id with
  | none => server
  | some session =>
      match session.writer? with
      | none => server
      | some writer =>
          let (writer, box) := change writer (server.outbox id)
          (server.setOutbox id box).setSession id (session.withWriter writer)

/-- The writer of a session takes its turn. -/
def turn (server : Server) (id : OutboxId) : Server :=
  server.changeWriter id fun writer box => writer.turn server.settings server.now box

/-- The end of a close to a peer that was refused. -/
def endRefusal (server : Server) (id : OutboxId) : Server :=
  match server.sessions.get? id with
  | some session =>
      match session.stage with
      | .refusing _ => server.setSession id { session with stage := .over }
      | _ => server
  | none => server

/-- The current write of a session has ended well. -/
def written (server : Server) (id : OutboxId) : Server :=
  (server.changeWriter id Writer.written).endRefusal id

/-- The current write of a session has failed. -/
def unwritten (server : Server) (id : OutboxId) : Server :=
  (server.changeWriter id Writer.failed).endRefusal id

/-- The current write of a session has taken too long. -/
def giveUpWrite (server : Server) (id : OutboxId) : Server :=
  server.changeWriter id fun writer box =>
    match writer.phase with
    | .writing _ deadline =>
        if Moment.roundUp deadline ≤ server.now then writer.failed box else (writer, box)
    | _ => (writer, box)

/-- A session ends, and the hub is told what there is to tell. -/
def depart (server : Server) (id : OutboxId) (session : Session) (generation : Generation)
    (departure : Option Departure) : Server :=
  let ended := server.setSession id { session with stage := .over }
  match departure with
  | some departure => (ended.submit (departure.request session.admission.id generation)).2
  | none => ended

/-- A session notices that its reader has ended, and tells the writer to stop. -/
def joinReader (server : Server) (id : OutboxId) : Server :=
  match server.sessions.get? id with
  | none => server
  | some session =>
      match session.stage with
      | .serving generation (.ended outcome) writer =>
          server.setSession id { session with stage := .leaving generation outcome writer.stop }
      | _ => server

/-- A session notices that its writer has ended, and is over. -/
def joinWriter (server : Server) (id : OutboxId) : Server :=
  match server.sessions.get? id with
  | none => server
  | some session =>
      match session.stage with
      | .serving generation _ { phase := .ended written, .. } =>
          server.depart id session generation (Departure.ofWriter written)
      | .leaving generation outcome { phase := .ended written, .. } =>
          server.depart id session generation (Departure.ofReader outcome written)
      | _ => server

end Server
end Parley
