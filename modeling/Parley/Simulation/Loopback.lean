import Parley.Server.Basic
import Parley.Simulation.Wire
import Parley.Web.Router

/-!
# Loopback

A whole server with its peers in one place, on a clock that stands still while
anything can happen and then jumps to the next moment at which something is due.
Peers are named by labels; what they see is recorded.
-/

namespace Parley

/-- What a peer does with its end of the socket. -/
inductive PeerState
  | reading
  /-- It reads nothing for now. -/
  | muted
  /-- It has said that it leaves, and reads no more. -/
  | leaving
  /-- Its end of the socket is gone. -/
  | vanished
  /-- It has seen the end of the connection. -/
  | finished
  deriving DecidableEq, Repr

/-- A peer and what is on its way to it. -/
structure Peer where
  label : String
  state : PeerState
  wire : Wire
  /-- Whether the message that its session is writing is on the wire. -/
  sending : Bool := false
  deriving DecidableEq, Repr

/-- Whether a peer can still act. -/
def Peer.isPresent (peer : Peer) : Bool := peer.state = .reading || peer.state = .muted

/-- What a peer sees. -/
inductive Sight
  | message (message : Message)
  | ended
  deriving DecidableEq, Repr

/-- What a peer saw, and when. -/
structure Sighting where
  label : String
  moment : Moment
  sight : Sight
  deriving DecidableEq, Repr

/-- How a peer connects. -/
structure Dial where
  label : String
  /-- The query as it is written in the target. -/
  query : String
  /-- The id that it gets when it is not known. -/
  spare : ConnectionId
  muted : Bool := false
  /-- The bytes that its wire holds. -/
  capacity : Nat

/-- What a peer that connects asks for. -/
def Dial.target (dial : Dial) : Target := Target.read ("/ws?" ++ dial.query)

/-- A server with its peers. -/
structure Loopback where
  server : Server
  peers : Table OutboxId Peer := .empty
  /-- The latest session of each label. -/
  labels : Table String OutboxId := .empty
  seen : List Sighting := []

namespace Loopback

/-- A server without peers. -/
def new (settings : Settings) (startedAt : Stamp) : Loopback :=
  { server := Server.new settings startedAt }

/-- The present. -/
def now (loop : Loopback) : Moment := loop.server.now

/-- Let the server do something. -/
def withServer (loop : Loopback) (change : Server → Server) : Loopback :=
  { loop with server := change loop.server }

/-- Change the peer of a session. -/
def withPeer (loop : Loopback) (id : OutboxId) (change : Peer → Peer) : Loopback :=
  { loop with peers := loop.peers.modify id change }

/-- Record what a peer sees. -/
def see (loop : Loopback) (peer : Peer) (sight : Sight) : Loopback :=
  { loop with seen := loop.seen ++ [{ label := peer.label, moment := loop.now, sight }] }

/-- A message of a peer reaches its session.  One that the server does not accept
breaks the socket, and a ping is answered. -/
def deliver (loop : Loopback) (id : OutboxId) (message : Message) : Loopback :=
  if message.isAcceptable loop.server.settings.maxMessageSize then
    let listening := ((loop.server.sessions.get? id).bind Session.reader?).isSome
    let delivered := loop.withServer fun server => server.arrive id (.message message)
    match message, listening with
    | .ping content, true =>
        delivered.withPeer id fun peer => { peer with wire := peer.wire.send (.pong content) }
    | _, _ => delivered
  else loop.withServer fun server => server.arrive id .failure

/-- When a session is over, what has not left the server completely is lost. -/
def noteEnd (loop : Loopback) (id : OutboxId) : Loopback :=
  match loop.server.sessions.get? id with
  | some session =>
      if session.isOver then loop.withPeer id fun peer => { peer with wire := peer.wire.cutOff }
      else loop
  | none => loop

/-- A peer reads the message in front. -/
def read (loop : Loopback) (id : OutboxId) (peer : Peer) (message : Message) : Loopback :=
  let rest := loop.withPeer id fun peer =>
    { peer with wire := { peer.wire with unread := peer.wire.unread.drop 1 } }
  match message with
  | .ping content => (rest.see peer (.message message)).deliver id (.pong content)
  | _ => rest.see peer (.message message)

/-- The silence of a peer has lasted too long. -/
def fallSilent (loop : Loopback) (id : OutboxId) : Loopback :=
  loop.withServer fun server => (server.fallSilent id).joinReader id

/-- A session gives up a write that takes too long. -/
def giveUpWrite (loop : Loopback) (id : OutboxId) : Loopback :=
  (loop.withServer fun server => server.giveUpWrite id).withPeer id fun peer =>
    { peer with sending := false }

/-- The next thing that happens between a session that writes and its peer.  A write
that has not ended at once is late at once when no time is left to it. -/
def sendMove? (loop : Loopback) (id : OutboxId) (session : Session) (peer : Peer) :
    Option Loopback :=
  match session.outgoing? with
  | none => none
  | some message =>
      if peer.state = .vanished then
        some ((loop.withServer fun server => server.unwritten id).noteEnd id)
      else if !peer.sending then
        some (loop.withPeer id fun peer =>
          { peer with wire := peer.wire.send message, sending := true })
      else if peer.wire.isFlushed then
        let sent := loop.withPeer id fun peer => { peer with sending := false }
        some ((sent.withServer fun server => server.written id).noteEnd id)
      else if loop.server.settings.writeTimeout.nanoseconds = 0 ∧ session.writer?.isSome then
        some (loop.giveUpWrite id)
      else none

/-- The next thing that a peer reads. -/
def readMove? (loop : Loopback) (id : OutboxId) (session : Session) (peer : Peer) :
    Option Loopback :=
  if peer.state = .reading then
    match peer.wire.unread with
    | message :: _ => some (loop.read id peer message)
    | [] =>
        if session.isOver then
          some ((loop.withPeer id fun peer => { peer with state := .finished }).see peer .ended)
        else none
  else none

/-- The next thing that a session does by itself.  A reader that listens without any
patience ends at once. -/
def sessionMove? (loop : Loopback) (id : OutboxId) (session : Session) : Option Loopback :=
  let answered (ticket : Ticket) : Option Loopback :=
    if (loop.server.broker.replies.get? ticket).isSome then
      some (loop.withServer fun server => server.answer id)
    else none
  let impatient := loop.server.settings.idleTimeout.nanoseconds = 0
  match session.stage with
  | .enrolling ticket => answered ticket
  | .serving _ (.ended _) _ => some (loop.withServer fun server => server.joinReader id)
  | .serving _ _ { phase := .ended _, .. } | .leaving _ _ { phase := .ended _, .. } =>
      some ((loop.withServer fun server => server.joinWriter id).noteEnd id)
  | .serving _ (.asking _ ticket) _ => answered ticket
  | .serving _ _ writer | .leaving _ _ writer =>
      if impatient ∧ session.reader?.isSome then some (loop.fallSilent id)
      else if writer.isBusy loop.now (loop.server.outbox id) then
        some (loop.withServer fun server => server.turn id)
      else none
  | _ => none

/-- The next thing that happens around a session. -/
def moveOf? (loop : Loopback) (entry : OutboxId × Session) : Option Loopback :=
  match loop.sessionMove? entry.1 entry.2 with
  | some moved => some moved
  | none =>
      match loop.peers.get? entry.1 with
      | none => none
      | some peer =>
          match loop.sendMove? entry.1 entry.2 peer with
          | some moved => some moved
          | none => loop.readMove? entry.1 entry.2 peer

/-- The next thing that happens without time passing. -/
def move? (loop : Loopback) : Option Loopback :=
  if loop.server.broker.running && !loop.server.broker.mailbox.isEmpty then
    some (loop.withServer Server.serveNext)
  else loop.server.sessions.entries.findSome? loop.moveOf?

/-- Let things happen as long as `fuel` lasts. -/
def settleWithin : Nat → Loopback → Loopback
  | 0, loop => loop
  | fuel + 1, loop =>
      match loop.move? with
      | some moved => settleWithin fuel moved
      | none => loop

/-- More steps than can happen before time has to pass: every request, payload and
message is handled a few times by every session. -/
def patience (loop : Loopback) : Nat :=
  let waiting := loop.server.broker.mailbox.length +
    (loop.server.broker.hub.outboxes.values.flatMap Outbox.held).length +
    (loop.peers.values.flatMap fun peer => peer.wire.unread).length
  64 * (loop.server.sessions.size + 1) * (waiting + 2)

/-- Let things happen until time has to pass. -/
def settle (loop : Loopback) : Loopback := settleWithin loop.patience loop

/-- What is due at a session. -/
inductive Timer
  | silence (id : OutboxId)
  | write (id : OutboxId)
  | ping (id : OutboxId)
  deriving DecidableEq, Repr

/-- The timers of a session that have run out, each with the moment at which it was
set. -/
def timersOf (loop : Loopback) (entry : OutboxId × Session) : List (Moment × Timer) :=
  let settings := loop.server.settings
  let silence := match entry.2.reader? with
    | some (.listening deadline) =>
        [(deadline, deadline - settings.idleTimeout.nanoseconds, Timer.silence entry.1)]
    | _ => []
  let writing := match entry.2.writer? with
    | some { phase := .writing _ deadline, .. } =>
        [(deadline, deadline - settings.writeTimeout.nanoseconds, Timer.write entry.1)]
    | some { phase := .waiting, nextPing, .. } =>
        [(nextPing, nextPing - settings.pingInterval.nanoseconds, Timer.ping entry.1)]
    | _ => []
  (silence ++ writing).filterMap fun (due, set, timer) =>
    if Moment.roundUp due ≤ loop.now then some (set, timer) else none

/-- The timers that have run out, those set first in front. -/
def timers (loop : Loopback) : List Timer :=
  ((loop.server.sessions.entries.flatMap loop.timersOf).mergeSort fun left right =>
    left.1 ≤ right.1).map Prod.snd

/-- A timer goes off. -/
def fire (loop : Loopback) : Timer → Loopback
  | .silence id => loop.fallSilent id
  | .write id => loop.giveUpWrite id
  | .ping id => loop.withServer fun server => server.turn id

/-- The next moment at which something is due. -/
def due? (loop : Loopback) : Option Moment :=
  (loop.server.broker.due?.toList ++ loop.server.sessions.values.filterMap Session.due?).min?

/-- Let time pass as long as `fuel` lasts; every moment at which something is due
takes its turn. -/
def advanceWithin : Nat → Moment → Loopback → Loopback
  | 0, _, loop => loop
  | fuel + 1, target, loop =>
      match loop.due?.filter (· ≤ target) with
      | some moment =>
          let ticked := loop.withServer fun server => server.tick moment
          advanceWithin fuel target (ticked.timers.foldl fire ticked).settle
      | none => loop.withServer fun server => server.tick target

/-- Let some milliseconds pass. -/
def advance (loop : Loopback) (milliseconds : Nat) : Loopback :=
  advanceWithin (milliseconds + 2) (loop.now + milliseconds * Span.millisecond) loop

/-- Ask the hub. -/
def ask (request : Request) : StateM Loopback Outcome := fun loop =>
  let (outcome, broker) := loop.server.broker.ask request
  (outcome, { loop with server := { loop.server with broker } })

/-- The peer with a label, when it can still act. -/
def present? (loop : Loopback) (label : String) : Option OutboxId :=
  (loop.labels.get? label).filter fun id =>
    (loop.peers.get? id).elim false Peer.isPresent

/-- The id that a label was given last. -/
def idOf? (loop : Loopback) (label : String) : Option ConnectionId :=
  ((loop.labels.get? label).bind loop.server.sessions.get?).map (·.admission.id)

/-- The end of a peer's socket vanishes. -/
def vanish (loop : Loopback) (id : OutboxId) : Loopback :=
  (loop.withPeer id fun peer => { peer with state := .vanished }).withServer fun server =>
    server.arrive id .failure

/-- A peer vanishes that has the label of a new one. -/
def makeRoom (loop : Loopback) (label : String) : Loopback :=
  match loop.labels.get? label with
  | some id => (loop.vanish id).settle
  | none => loop

/-- Let a peer in, or turn it away. -/
def greet (loop : Loopback) (dial : Dial) : Upgrade × Loopback :=
  (Web.upgrade ask dial.target dial.spare).run (loop.makeRoom dial.label)

/-- Begin the session of a peer that was let in. -/
def begin (loop : Loopback) (dial : Dial) : Upgrade → Loopback
  | .refused _ => loop
  | .accepted admission =>
      let (id, server) := loop.server.upgrade admission
      let peer : Peer :=
        { label := dial.label
          state := if dial.muted then .muted else .reading
          wire := { capacity := dial.capacity } }
      { loop with server, peers := loop.peers.set id peer, labels := loop.labels.set dial.label id }

/-- Let several peers connect at the same moment: all are let in or turned away
before the first session begins. -/
def connect (loop : Loopback) (dials : List Dial) : List Upgrade × Loopback :=
  let (upgrades, greeted) := dials.foldl (fun state dial =>
    let (upgrade, loop) := state.2.greet dial
    (state.1 ++ [upgrade], loop)) ([], loop)
  let begun := (dials.zip upgrades).foldl (fun loop pair => loop.begin pair.1 pair.2) greeted
  (upgrades, begun.settle)

/-- A peer sends a message. -/
def send (loop : Loopback) (id : OutboxId) (message : Message) : Loopback :=
  (loop.deliver id message).settle

/-- A peer says that it leaves. -/
def leave (loop : Loopback) (id : OutboxId) : Loopback :=
  ((loop.deliver id (.close none)).withPeer id fun peer => { peer with state := .leaving }).settle

/-- The socket of a peer vanishes. -/
def drop (loop : Loopback) (id : OutboxId) : Loopback := (loop.vanish id).settle

/-- A peer stops reading, or reads again. -/
def setReading (loop : Loopback) (id : OutboxId) (state : PeerState) : Loopback :=
  (loop.withPeer id fun peer => { peer with state }).settle

/-- Register a connection that nobody reads. -/
def seed (loop : Loopback) (admission : Admission) (box : Outbox) : Outcome × Loopback :=
  let (id, server) := loop.server.openOutbox box.capacity
  let opened := { loop with server := server.setOutbox id box }
  let (outcome, seeded) := (ask (admission.registration id)).run opened
  (outcome, seeded.settle)

/-- Ask the hub, and let what follows happen. -/
def query (loop : Loopback) (action : StateM Loopback α) : α × Loopback :=
  let (value, asked) := action.run loop
  (value, asked.settle)

end Loopback
end Parley
