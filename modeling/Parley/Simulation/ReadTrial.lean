import Parley.Simulation.Bench
import Parley.Transport.Reader

/-!
# Trials of a reader

A reader alone with a running broker, fed from a script: items that arrive, pauses
between them, and what others do to the hub meanwhile.
-/

namespace Parley

/-- What a script does to a reader. -/
inductive ReadCue
  | arrive (arrival : Arrival)
  | pause (span : Span)
  | shutdown
  /-- The hub forgets the reader's own connection. -/
  | unregister
  deriving DecidableEq, Repr

/-- A peer around a trial. -/
structure ReadPeer where
  label : String
  admission : Admission
  capacity : Nat
  rooms : List RoomName := []

/-- A reader with its broker. -/
structure ReadTrial where
  bench : Bench
  own : ReadPeer
  generation : Generation
  reader : Reader

namespace ReadTrial

/-- The settings of the hub. -/
def settings (trial : ReadTrial) : Settings := trial.bench.broker.hub.settings

/-- The present. -/
def now (trial : ReadTrial) : Moment := trial.bench.broker.hub.now

/-- Register a peer and let it join its rooms. -/
def addPeer (bench : Bench) (peer : ReadPeer) : Bench :=
  peer.rooms.foldl
    (fun bench room => ((Bench.ask (.joinRoom peer.admission.id room)).run bench).2)
    (bench.register peer.label peer.capacity peer.admission).2

/-- Silence that has lasted until its deadline ends a reader that listens. -/
def settle (trial : ReadTrial) : ReadTrial :=
  match trial.reader.due? with
  | some deadline =>
      if deadline ≤ trial.now then { trial with reader := .ended .idleTimeout } else trial
  | none => trial

/-- Set up a trial among peers.  A connection that is not registered has an outbox of
which the hub knows nothing. -/
def start (settings : Settings) (startedAt : Stamp) (own : ReadPeer) (registered : Bool)
    (peers : List ReadPeer) : ReadTrial :=
  let fresh := Bench.new settings startedAt
  let (outcome, bench) :=
    if registered then fresh.register own.label own.capacity own.admission
    else
      let (box, opened) := fresh.openBox { capacity := own.capacity }
      (.ok .done, opened.keep own.label box)
  let trial : ReadTrial :=
    { bench := peers.foldl addPeer bench
      own
      generation := match outcome with
        | .ok (.registered generation) => generation
        | _ => 0
      reader := Reader.listen settings 0 }
  trial.settle

/-- The reader listens again, or has ended. -/
def conclude (trial : ReadTrial) (command : Command) (outcome : Outcome) : ReadTrial :=
  match (trial.bench.boxes.get? trial.own.label).bind trial.bench.broker.hub.outboxes.get? with
  | none => trial
  | some box =>
      let (reader, box) := Reader.conclude trial.settings trial.now command outcome box
      { trial with reader, bench := trial.bench.modify trial.own.label fun _ => box }

/-- An item arrives. -/
def arrive (trial : ReadTrial) (arrival : Arrival) : ReadTrial :=
  match Reader.hear trial.settings trial.now trial.own.admission.id arrival with
  | .turn reader => { trial with reader }
  | .ask command request =>
      let (outcome, bench) := (Bench.ask request).run trial.bench
      { trial with bench }.conclude command outcome

/-- Let time pass up to a moment. -/
def pass (trial : ReadTrial) (target : Moment) : ReadTrial :=
  { trial with
    bench := { trial.bench with broker := trial.bench.broker.advance target } }

/-- Time passes; silence that lasts beyond the deadline ends the reader.  A pause that
ends at the deadline leaves what arrives right then in time. -/
def pause (trial : ReadTrial) (target : Moment) : ReadTrial :=
  match trial.reader.due? with
  | some deadline =>
      if deadline < target then { trial.pass deadline with reader := .ended .idleTimeout }
      else trial.pass target
  | none => trial

/-- Somebody else sends a request. -/
def submit (trial : ReadTrial) (request : Request) : ReadTrial :=
  { trial with bench := ((Bench.ask request).run trial.bench).2 }

/-- Follow the script as long as the reader goes on.  Between any two cues but a pause
and what follows it, the reader has time to find its deadline passed. -/
def follow (trial : ReadTrial) (cue : ReadCue) : ReadTrial :=
  if trial.reader.outcome?.isSome then trial
  else
    match cue with
    | .arrive arrival => (trial.arrive arrival).settle
    | .pause span => trial.pause (trial.now + span.nanoseconds)
    | .shutdown => (trial.submit .shutdown).settle
    | .unregister => (trial.submit (.unregister trial.own.admission.id trial.generation)).settle

/-- Follow a script to its end; then nothing more comes, or nothing comes at all any
more. -/
def run (trial : ReadTrial) (script : List ReadCue) (hangs : Bool) : ReadTrial :=
  let followed := script.foldl follow trial
  if followed.reader.outcome?.isSome then followed
  else if hangs then followed.pause ((followed.reader.due?).getD followed.now + 1)
  else followed.arrive .ended

end ReadTrial
end Parley
