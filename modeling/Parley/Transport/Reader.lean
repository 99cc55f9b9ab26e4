import Parley.Broker
import Parley.Dispatch
import Parley.Transport.Message

/-!
# Readers

A reader takes what arrives on a transport, one item after the other, until the
peer leaves, the socket breaks, nothing has arrived for too long, or the hub is
gone.  Each frame is carried out before the next item is looked at.
-/

namespace Parley

/-- What the receiving side of a socket yields. -/
inductive Arrival
  | message (message : Message)
  /-- The socket broke. -/
  | failure
  /-- Nothing more will come. -/
  | ended
  deriving DecidableEq, Repr

/-- How a reader ended. -/
inductive ReadEnd
  | peerClosed
  | transportError
  | streamEnded
  | idleTimeout
  | hubClosed
  deriving DecidableEq, Repr

/-- Whether the peer may come back. -/
def ReadEnd.isLoss : ReadEnd → Bool
  | .transportError | .streamEnded | .idleTimeout => true
  | .peerClosed | .hubClosed => false

/-- What an arrival means to a reader. -/
inductive Heard
  | frame (text : String)
  /-- A sign of life and nothing else. -/
  | passed
  | over (outcome : ReadEnd)
  deriving DecidableEq, Repr

/-- What an arrival means: bytes that are text count as text, and other bytes are
passed over. -/
def Arrival.heard : Arrival → Heard
  | .message (.text content) => .frame content
  | .message (.binary content) =>
      match Utf8.decode? content with
      | some text => .frame text
      | none => .passed
  | .message (.ping _) | .message (.pong _) => .passed
  | .message (.close _) => .over .peerClosed
  | .failure => .over .transportError
  | .ended => .over .streamEnded

/-- What a reader is doing. -/
inductive Reader
  | listening (deadline : Moment)
  /-- Waiting for the hub's answer to a command. -/
  | asking (command : Command) (ticket : Ticket)
  | ended (outcome : ReadEnd)
  deriving DecidableEq, Repr

namespace Reader

/-- A reader that begins to listen. -/
def listen (settings : Settings) (now : Moment) : Reader :=
  .listening (now + settings.idleTimeout.nanoseconds)

/-- What a listening reader does about an arrival. -/
inductive Move
  /-- It goes on, or has ended. -/
  | turn (reader : Reader)
  /-- It asks the hub to carry out a command. -/
  | ask (command : Command) (request : Request)
  deriving DecidableEq, Repr

/-- What a listening reader does about an arrival.  A frame that is no request is
passed over. -/
def hear (settings : Settings) (now : Moment) (sender : ConnectionId) (arrival : Arrival) :
    Move :=
  match arrival.heard with
  | .passed => .turn (listen settings now)
  | .over outcome => .turn (.ended outcome)
  | .frame text =>
      match Dispatch.request sender text with
      | .ok (command, request) => .ask command request
      | .error _ => .turn (listen settings now)

/-- Put a confirmation into the peer's own outbox, as long as the hub has not let
go of it. -/
def confirm (confirmation : Confirmation) (box : Outbox) : Outbox :=
  if box.released then box else (box.offer confirmation.encode).2

/-- The outcome of a command reaches the reader: a hub that has stopped ends it,
any other error is passed over. -/
def conclude (settings : Settings) (now : Moment) (command : Command) (outcome : Outcome)
    (box : Outbox) : Reader × Outbox :=
  match Dispatch.conclude command outcome with
  | .ok (some confirmation) => (listen settings now, confirm confirmation box)
  | .ok none => (listen settings now, box)
  | .error cause => (if cause.isFatal then .ended .hubClosed else listen settings now, box)

/-- How the reader ended, if it did. -/
def outcome? : Reader → Option ReadEnd
  | .ended outcome => some outcome
  | _ => none

/-- When the silence of the peer has lasted too long. -/
def due? : Reader → Option Moment
  | .listening deadline => some (Moment.roundUp deadline)
  | _ => none

end Reader
end Parley
