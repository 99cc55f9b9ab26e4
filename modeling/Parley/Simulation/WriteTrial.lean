import Parley.Transport.Writer

/-!
# Trials of a writer

A writer alone with its outbox, against a socket whose every write meets a
reception laid down in advance, while a script adds payloads, lets go of the outbox
or stops the writer.  The clock stands still while anything can happen.
-/

namespace Parley

/-- What a write meets. -/
structure Reception where
  /-- Milliseconds until the write ends. -/
  delay : Nat := 0
  fails : Bool := false
  deriving DecidableEq, Repr

/-- What is done to a writer or its outbox. -/
inductive TrialAction
  | push (payloads : List Payload)
  | stop
  | release
  | wait
  deriving DecidableEq, Repr

/-- What is done, and when. -/
structure TrialStep where
  moment : Moment
  action : TrialAction
  deriving DecidableEq, Repr

/-- A trial of a writer. -/
structure WriteTrial where
  settings : Settings
  capacity : Nat
  /-- Payloads offered before anything else. -/
  queued : List Payload
  /-- What the writes meet, one after the other; later ones end well at once. -/
  receptions : List Reception
  script : List TrialStep
  /-- How long the writer is watched after the script. -/
  observation : Span
  /-- Payloads offered after the end. -/
  late : List Payload

/-- What became of a payload that was offered; none when nobody could offer it. -/
abbrev PushResult := Option Offer

/-- A write that has begun, and when it ends unless it takes too long. -/
structure PendingWrite where
  done : Moment
  fails : Bool
  deriving DecidableEq, Repr

/-- How far a trial has come. -/
structure WriteTrialState where
  settings : Settings
  writer : Writer
  box : Outbox
  now : Moment := 0
  receptions : List Reception
  pending : Option PendingWrite := none
  frames : List (Moment × Message) := []
  pushes : List PushResult := []
  endedAt : Option Moment := none

namespace WriteTrialState

/-- Offer one payload, as long as somebody can. -/
def push (state : WriteTrialState) (payload : Payload) : WriteTrialState :=
  if state.box.released then { state with pushes := state.pushes ++ [none] }
  else
    let (offer, box) := state.box.offer payload
    { state with box, pushes := state.pushes ++ [some offer] }

/-- Do what the script says. -/
def act (state : WriteTrialState) : TrialAction → WriteTrialState
  | .push payloads => payloads.foldl push state
  | .stop => { state with writer := state.writer.stop }
  | .release => { state with box := state.box.release }
  | .wait => state

/-- The current write ends. -/
def endWrite (state : WriteTrialState) (fails : Bool) : WriteTrialState :=
  if fails then
    let (writer, box) := state.writer.failed state.box
    { state with writer, box, pending := none }
  else
    let frames := match state.writer.cargo? with
      | some cargo => state.frames ++ [(state.now, cargo.message)]
      | none => state.frames
    let (writer, box) := state.writer.written state.box
    { state with writer, box, frames, pending := none }

/-- The writer takes a turn; a write that it begins meets the next reception.  A write
that ends at once is in time whatever the timeout, and one that does not is late at once
when no time is left to it. -/
def turn (state : WriteTrialState) : WriteTrialState :=
  let (writer, box) := state.writer.turn state.settings state.now state.box
  let turned := { state with writer, box }
  match writer.cargo? with
  | none => turned
  | some _ =>
      let reception := state.receptions.headD {}
      let begun := { turned with receptions := state.receptions.drop 1 }
      if reception.delay = 0 then begun.endWrite reception.fails
      else if state.settings.writeTimeout.nanoseconds = 0 then begun.endWrite true
      else
        let done := state.now + reception.delay * Span.millisecond
        { begun with pending := some { done, fails := reception.fails } }

/-- Note when the writer has ended. -/
def note (state : WriteTrialState) : WriteTrialState :=
  if state.writer.outcome?.isSome && state.endedAt.isNone then
    { state with endedAt := some state.now }
  else state

/-- Let the writer take turns as long as `fuel` lasts. -/
def settleWithin : Nat → WriteTrialState → WriteTrialState
  | 0, state => state.note
  | fuel + 1, state =>
      if state.writer.isBusy state.now state.box then settleWithin fuel state.turn
      else state.note

/-- Let the writer take turns until it waits: at most one for each payload that is held, and
a few to begin and end writes, to close and to ping. -/
def settle (state : WriteTrialState) : WriteTrialState :=
  settleWithin (state.box.held.length + 16) state

/-- The next moment at which something is due. -/
def due? (state : WriteTrialState) : Option Moment :=
  match state.writer.phase, state.pending with
  | .writing _ deadline, some pending => some (min pending.done (Moment.roundUp deadline))
  | .waiting, _ => some (Moment.roundUp state.writer.nextPing)
  | _, _ => none

/-- Something is due. -/
def fire (state : WriteTrialState) : WriteTrialState :=
  match state.writer.phase, state.pending with
  | .writing _ deadline, some pending =>
      if pending.done ≤ state.now then (state.endWrite pending.fails).settle
      else if Moment.roundUp deadline ≤ state.now then (state.endWrite true).settle
      else state
  | _, _ => state.settle

/-- Let time pass as long as `fuel` lasts; `early` tells at which moments something that
is due takes its turn. -/
def passWithin (early : Moment → Bool) : Nat → WriteTrialState → WriteTrialState
  | 0, state => state
  | fuel + 1, state =>
      match state.due?.filter early with
      | some moment => passWithin early fuel { state with now := max state.now moment }.fire
      | none => state

/-- Let time pass up to a moment. -/
def pass (state : WriteTrialState) (early : Moment → Bool) (target : Moment) :
    WriteTrialState :=
  let passed := passWithin early (2 * Moment.milliseconds (target - state.now) + 2) state
  { passed with now := max passed.now target }

/-- Do one step of the script, after everything that is due by its time. -/
def step (state : WriteTrialState) (step : TrialStep) : WriteTrialState :=
  ((state.pass (· ≤ step.moment) step.moment).act step.action).settle

end WriteTrialState

/-- What was seen of a writer. -/
structure WriteReport where
  outcome : Option WriteEnd
  /-- Whether it ended before it was stopped at the end of the observation. -/
  endedFirst : Bool
  elapsed : Moment
  frames : List (Moment × Message)
  pushes : List PushResult

namespace WriteTrial

/-- Carry out a trial.  Steps at moment zero come before the writer starts.  What is
due at the very end of the observation comes after the writer is stopped. -/
def run (trial : WriteTrial) : WriteReport :=
  let fresh : WriteTrialState :=
    { settings := trial.settings
      writer := Writer.start trial.settings 0
      box := { capacity := trial.capacity }
      receptions := trial.receptions }
  let (before, after) := trial.script.partition fun step => step.moment = 0
  let loaded := before.foldl (fun state step => state.act step.action)
    (trial.queued.foldl WriteTrialState.push fresh)
  let scripted := after.foldl WriteTrialState.step loaded.settle
  let start := ((trial.script.map TrialStep.moment).getLast?).getD 0
  let finish := start + trial.observation.nanoseconds
  let watched := scripted.pass (· < finish) finish
  let ended := watched.writer.outcome?.isSome
  let stopped := (if ended then watched else watched.act .stop).settle
  let last := WriteTrialState.passWithin (fun _ => true) 2 stopped
  let done := trial.late.foldl WriteTrialState.push last
  { outcome := done.writer.outcome?
    endedFirst := ended
    elapsed := max (done.endedAt.getD done.now) start
    frames := done.frames
    pushes := done.pushes }

end WriteTrial
end Parley
