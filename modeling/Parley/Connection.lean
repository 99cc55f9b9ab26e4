import Parley.Backlog
import Parley.Name.Basic
import Parley.Time.Stamp

/-!
# Connections

A connection is a peer as the hub knows it.  While it is live its payloads go
to the outbox of its transport; while it is detached, or when that outbox
refuses, they wait in its backlog for the next transport.
-/

namespace Parley

/-- Numbers the transports of all connections; later ones are larger. -/
abbrev Generation := Nat

/-- What a connection is attached to. -/
inductive Link
  | live (outbox : OutboxId)
  | detached (since : Stamp)
  deriving DecidableEq, Repr

/-- A peer as the hub knows it. -/
structure Connection where
  id : ConnectionId
  name : DisplayName
  /-- The generation of its latest transport. -/
  generation : Generation
  link : Link
  backlog : Backlog
  connectedAt : Stamp
  deriving DecidableEq, Repr

/-- What becomes of a payload that a connection is given. -/
inductive Delivery
  | queued
  | droppedFull
  | backlogged (evicted : Bool)
  deriving DecidableEq, Repr

namespace Connection

/-- Whether a transport is attached. -/
def isLive (connection : Connection) : Bool :=
  match connection.link with
  | .live _ => true
  | .detached _ => false

/-- Since when no transport is attached. -/
def detachedSince (connection : Connection) : Option Stamp :=
  match connection.link with
  | .live _ => none
  | .detached since => some since

/-- The outbox of its transport. -/
def outbox? (connection : Connection) : Option OutboxId :=
  match connection.link with
  | .live outbox => some outbox
  | .detached _ => none

/-- A connection with its first transport. -/
def new (id : ConnectionId) (name : DisplayName) (generation : Generation)
    (outbox : OutboxId) (backlogCapacity : Nat) (connectedAt : Stamp) : Connection :=
  { id, name, generation, link := .live outbox, backlog := { capacity := backlogCapacity },
    connectedAt }

/-- Keep a payload for the next transport. -/
def keep (connection : Connection) (payload : Payload) : Delivery × Connection :=
  let (evicted, backlog) := connection.backlog.push payload
  (.backlogged evicted, { connection with backlog })

/-- Give a connection a payload: an open outbox takes it, or drops it when full;
a refusing outbox or no transport at all leaves it to the backlog. -/
def deliver (connection : Connection) (payload : Payload) (boxes : Outboxes) :
    Delivery × Connection × Outboxes :=
  match connection.link with
  | .live outbox =>
      match boxes.offer outbox payload with
      | (.accepted, boxes) => (.queued, connection, boxes)
      | (.full, boxes) => (.droppedFull, connection, boxes)
      | (.refused, boxes) =>
          let (delivery, connection) := connection.keep payload
          (delivery, connection, boxes)
  | .detached _ =>
      let (delivery, connection) := connection.keep payload
      (delivery, connection, boxes)

/-- Give a connection several payloads in order. -/
def deliverAll (connection : Connection) : List Payload → Outboxes →
    List Delivery × Connection × Outboxes
  | [], boxes => ([], connection, boxes)
  | payload :: rest, boxes =>
      let (delivery, connection, boxes) := connection.deliver payload boxes
      let (deliveries, connection, boxes) := connection.deliverAll rest boxes
      (delivery :: deliveries, connection, boxes)

/-- Offer payloads in order until one is not accepted; gives the number accepted
and the payloads left over. -/
def replay (outbox : OutboxId) : List Payload → Outboxes → Nat × List Payload × Outboxes
  | [], boxes => (0, [], boxes)
  | payload :: rest, boxes =>
      match boxes.offer outbox payload with
      | (.accepted, boxes) =>
          let (count, left, boxes) := replay outbox rest boxes
          (count + 1, left, boxes)
      | (_, boxes) => (0, payload :: rest, boxes)

/-- Let go of the outbox of a transport. -/
def releaseLink (link : Link) (boxes : Outboxes) : Outboxes :=
  match link with
  | .live outbox => boxes.release outbox
  | .detached _ => boxes

/-- Attach a new transport.  The backlog goes into its outbox first, as far as it
fits, and the previous outbox is released.  Tells how many payloads were
replayed. -/
def attach (connection : Connection) (name : DisplayName) (outbox : OutboxId)
    (generation : Generation) (boxes : Outboxes) : Nat × Connection × Outboxes :=
  let (pending, backlog) := connection.backlog.take
  let (count, left, boxes) := replay outbox pending boxes
  let (_, backlog) := backlog.restoreFront left
  (count, { connection with name, generation, link := .live outbox, backlog },
    releaseLink connection.link boxes)

/-- Take the transport away and keep what it failed to write, in front of what
the backlog holds.  Tells how many payloads were lost. -/
def detach (connection : Connection) (undelivered : List Payload) (since : Stamp)
    (boxes : Outboxes) : Nat × Connection × Outboxes :=
  let (evicted, backlog) := connection.backlog.restoreFront undelivered
  (evicted, { connection with link := .detached since, backlog },
    releaseLink connection.link boxes)

end Connection
end Parley
