import Parley.Admission
import Parley.Broker

/-!
# Benches

A running broker with the outboxes of transports that nobody writes for.  Each
outbox stands under a label, and its payloads are taken by hand.
-/

namespace Parley

/-- A broker with labelled outboxes. -/
structure Bench where
  broker : Broker
  boxes : Table String OutboxId := .empty
  nextOutbox : OutboxId := 0

namespace Bench

/-- A bench with a fresh broker. -/
def new (settings : Settings) (startedAt : Stamp) : Bench :=
  { broker := Broker.new settings startedAt }

/-- Ask the hub. -/
def ask (request : Request) : StateM Bench Outcome := fun bench =>
  let (outcome, broker) := bench.broker.ask request
  (outcome, { bench with broker })

/-- Change the outboxes. -/
def withBoxes (bench : Bench) (change : Outboxes → Outboxes) : Bench :=
  let hub := bench.broker.hub
  { bench with
    broker := { bench.broker with hub := { hub with outboxes := change hub.outboxes } } }

/-- Make an outbox that has no label yet. -/
def openBox (bench : Bench) (box : Outbox) : OutboxId × Bench :=
  (bench.nextOutbox,
    { bench.withBoxes fun boxes => boxes.set bench.nextOutbox box with
      nextOutbox := bench.nextOutbox + 1 })

/-- Change the outbox with a label. -/
def modify (bench : Bench) (label : String) (change : Outbox → Outbox) : Bench :=
  match bench.boxes.get? label with
  | some id => bench.withBoxes fun boxes => boxes.modify id change
  | none => bench

/-- The consumer of an outbox leaves. -/
def drop (bench : Bench) (label : String) : Bench := bench.modify label Outbox.abandon

/-- Put an outbox under a label; the consumer of the one before leaves. -/
def keep (bench : Bench) (label : String) (id : OutboxId) : Bench :=
  let dropped := bench.drop label
  { dropped with boxes := dropped.boxes.set label id }

/-- Register a transport.  Its outbox is kept whether or not the hub accepts it. -/
def register (bench : Bench) (label : String) (capacity : Nat) (admission : Admission) :
    Outcome × Bench :=
  let (id, opened) := bench.openBox { capacity }
  let (outcome, asked) := (ask (admission.registration id)).run opened
  (outcome, asked.keep label id)

/-- Let a peer in and register its transport.  Its outbox is kept only when both
succeed. -/
def connect (bench : Bench) (label : String) (capacity : Nat) (clientId name : Option String)
    (spare : ConnectionId) : Except AdmissionError (Admission × Generation) × Bench :=
  match (Admission.grant ask clientId name spare).run bench with
  | (.error cause, bench) => (.error cause, bench)
  | (.ok admission, bench) =>
      let (id, opened) := bench.openBox { capacity }
      match (Admission.enroll ask admission id).run opened with
      | (.error cause, bench) => (.error cause, bench)
      | (.ok generation, bench) => (.ok (admission, generation), bench.keep label id)

/-- Take payloads from the outbox with a label; none when it has no consumer. -/
def take? (bench : Bench) (label : String) (limit : Option Nat) : Option Outbox.Taken × Bench :=
  match (bench.boxes.get? label).bind bench.broker.hub.outboxes.get? with
  | none => (none, bench)
  | some box =>
      match box.take? limit with
      | none => (none, bench)
      | some (taken, rest) => (some taken, bench.modify label fun _ => rest)

/-- Let some milliseconds pass. -/
def advance (bench : Bench) (milliseconds : Nat) : Bench :=
  let target := bench.broker.hub.now + milliseconds * Span.millisecond
  { bench with broker := bench.broker.advance target }

/-- Everybody who could ask the hub is gone. -/
def abandon (bench : Bench) : Bench := { bench with broker := bench.broker.abandon }

end Bench
end Parley
