import Parley.Frame.Batch
import Parley.Outbox
import Parley.Settings
import Parley.Transport.Message

/-!
# Writers

A writer empties the outbox of a transport into its socket and keeps the peer
alive with pings.  It takes payloads one by one until none is left, and they go
out in one text message.  When it is told to stop, or when a write fails, it
closes the outbox and takes what is left there, again one by one; whatever the
outbox accepted and no write has carried is handed back.  Between any two of its
steps others may use the outbox.
-/

namespace Parley

/-- How a writer ended. -/
inductive WriteEnd
  /-- The hub let go of the outbox, and all of it was written. -/
  | queueClosed
  /-- The writer was told to stop. -/
  | stopped (undelivered : List Payload)
  /-- A write failed or took too long. -/
  | failed (undelivered : List Payload)
  deriving DecidableEq, Repr

/-- What the outbox accepted and no write has carried. -/
def WriteEnd.undelivered : WriteEnd → List Payload
  | .queueClosed => []
  | .stopped payloads => payloads
  | .failed payloads => payloads

/-- What a write carries. -/
inductive Cargo
  | batch (payloads : List Payload)
  | ping
  | close
  deriving DecidableEq, Repr

namespace Cargo

/-- The message of a write. -/
def message : Cargo → Message
  | .batch payloads => .text (Batch.join payloads)
  | .ping => .ping []
  | .close => .close none

/-- The payloads of a write. -/
def payloads : Cargo → List Payload
  | .batch payloads => payloads
  | .ping | .close => []

end Cargo

/-- Why a writer gives up. -/
inductive GiveUp
  /-- It was told to stop. -/
  | stopped
  /-- A write failed or took too long. -/
  | failed
  deriving DecidableEq, Repr

/-- How a writer ends that gave up. -/
def GiveUp.outcome : GiveUp → List Payload → WriteEnd
  | .stopped => .stopped
  | .failed => .failed

/-- What a writer is doing. -/
inductive WritePhase
  | waiting
  /-- It takes payloads for the next write. -/
  | gathering (payloads : List Payload)
  | writing (cargo : Cargo) (deadline : Moment)
  /-- It has given up, and takes what is left to hand it back. -/
  | draining (cause : GiveUp) (payloads : List Payload)
  | ended (outcome : WriteEnd)
  deriving DecidableEq, Repr

/-- A writer. -/
structure Writer where
  phase : WritePhase := .waiting
  /-- When the next ping is due. -/
  nextPing : Moment
  /-- Whether it was told to stop. -/
  stopping : Bool := false
  deriving DecidableEq, Repr

/-- What a waiting writer does next. -/
inductive WriteChoice
  | stop
  | batch
  | close
  | ping
  | wait
  deriving DecidableEq, Repr

namespace Writer

/-- A writer whose first ping is one interval away. -/
def start (settings : Settings) (now : Moment) : Writer :=
  { nextPing := now + settings.pingInterval.nanoseconds }

/-- How late a ping may be for the next to keep its time. -/
def tolerance : Span := .ofMilliseconds 5

/-- When the ping after one that was due is due: one interval later, counted from
the present when that one is late. -/
def pingAfter (settings : Settings) (due now : Moment) : Moment :=
  (if due + tolerance.nanoseconds < now then now else due) + settings.pingInterval.nanoseconds

/-- What a waiting writer does next.  A stop comes before the outbox, and the
outbox before pings. -/
def choose (writer : Writer) (now : Moment) (box : Outbox) : WriteChoice :=
  if writer.stopping then .stop
  else if !box.held.isEmpty then .batch
  else if box.released then .close
  else if Moment.roundUp writer.nextPing ≤ now then .ping
  else .wait

/-- Begin a write. -/
def begin (writer : Writer) (settings : Settings) (now : Moment) (cargo : Cargo) : Writer :=
  { writer with phase := .writing cargo (now + settings.writeTimeout.nanoseconds) }

/-- End, and take no more part in the outbox. -/
def finish (writer : Writer) (box : Outbox) (outcome : WriteEnd) : Writer × Outbox :=
  ({ writer with phase := .ended outcome }, box.abandon)

/-- Take one payload more for the next write, which begins when none is left. -/
def gather (writer : Writer) (settings : Settings) (now : Moment) (payloads : List Payload)
    (box : Outbox) : Writer × Outbox :=
  match box.held with
  | first :: rest =>
      ({ writer with phase := .gathering (payloads ++ [first]) }, { box with held := rest })
  | [] => (writer.begin settings now (.batch payloads), box)

/-- Give up, with some payloads to hand back already. -/
def giveUp (writer : Writer) (cause : GiveUp) (payloads : List Payload) : Writer :=
  { writer with phase := .draining cause payloads }

/-- Close the outbox, or take one payload more from it to hand it back; end when none is
left. -/
def drain (writer : Writer) (cause : GiveUp) (payloads : List Payload) (box : Outbox) :
    Writer × Outbox :=
  if box.isOpen then (writer, box.refuse)
  else
    match box.held with
    | first :: rest => (writer.giveUp cause (payloads ++ [first]), { box with held := rest })
    | [] => writer.finish box (cause.outcome payloads)

/-- A writer goes on with what it is doing, and when it is waiting does what it chooses.  In
the middle of a write it has nothing to do. -/
def turn (writer : Writer) (settings : Settings) (now : Moment) (box : Outbox) :
    Writer × Outbox :=
  match writer.phase with
  | .waiting =>
      match writer.choose now box with
      | .stop => (writer.giveUp .stopped [], box)
      | .batch => writer.gather settings now [] box
      | .close => (writer.begin settings now .close, box)
      | .ping =>
          let nextPing := pingAfter settings writer.nextPing now
          (({ writer with nextPing }).begin settings now .ping, box)
      | .wait => (writer, box)
  | .gathering payloads => writer.gather settings now payloads box
  | .draining cause payloads => writer.drain cause payloads box
  | .writing _ _ | .ended _ => (writer, box)

/-- The write has ended well. -/
def written (writer : Writer) (box : Outbox) : Writer × Outbox :=
  match writer.phase with
  | .writing .close _ => writer.finish box .queueClosed
  | .writing _ _ => ({ writer with phase := .waiting }, box)
  | _ => (writer, box)

/-- The write has failed or taken too long.  A close that is lost is as good as
written. -/
def failed (writer : Writer) (box : Outbox) : Writer × Outbox :=
  match writer.phase with
  | .writing .close _ => writer.finish box .queueClosed
  | .writing cargo _ => (writer.giveUp .failed cargo.payloads, box)
  | _ => (writer, box)

/-- Tell the writer to stop. -/
def stop (writer : Writer) : Writer := { writer with stopping := true }

/-- How the writer ended, if it did. -/
def outcome? (writer : Writer) : Option WriteEnd :=
  match writer.phase with
  | .ended outcome => some outcome
  | _ => none

/-- What the current write carries. -/
def cargo? (writer : Writer) : Option Cargo :=
  match writer.phase with
  | .writing cargo _ => some cargo
  | _ => none

/-- Whether the writer has something to do at once. -/
def isBusy (writer : Writer) (now : Moment) (box : Outbox) : Bool :=
  match writer.phase with
  | .waiting => writer.choose now box ≠ .wait
  | .gathering _ | .draining _ _ => true
  | .writing _ _ | .ended _ => false

/-- When time alone makes the writer do something. -/
def due? (writer : Writer) : Option Moment :=
  match writer.phase with
  | .waiting => some (Moment.roundUp writer.nextPing)
  | .writing _ deadline => some (Moment.roundUp deadline)
  | .gathering _ | .draining _ _ | .ended _ => none

end Writer
end Parley
