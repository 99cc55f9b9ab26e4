import Parley.Proofs.Transport.Writer

/-!
# The ledger of a writer

A writer alone with its outbox, while payloads are offered, the last producer leaves,
the writer is told to stop, and its writes end well or not, in any order.  The ledger
lists the payloads that the outbox accepted and the writes that are over.  At the end
of the writer both sides agree: what was written, followed by what is handed back, is
what was accepted.
-/

namespace Parley

/-- What happens to a writer and its outbox. -/
inductive WriterEvent
  /-- A payload is offered, as long as somebody can. -/
  | offer (payload : Payload)
  /-- Nobody can offer any more. -/
  | release
  | stop
  | turn (now : Moment)
  | written
  | failed
  deriving DecidableEq, Repr

/-- A write that is over, and whether it ended well. -/
structure WriteRecord where
  cargo : Cargo
  well : Bool
  deriving DecidableEq, Repr

/-- The payloads that a write has carried to the peer. -/
def WriteRecord.carried (record : WriteRecord) : List Payload :=
  if record.well then record.cargo.payloads else []

/-- A writer, its outbox and what became of them so far. -/
structure Ledger where
  writer : Writer
  box : Outbox
  /-- The payloads that the outbox accepted. -/
  accepted : List Payload
  writes : List WriteRecord := []
  deriving DecidableEq, Repr

namespace Ledger

/-- A new writer, with an outbox that holds any payloads. -/
def start (settings : Settings) (now : Moment) (capacity : Nat) (held : List Payload)
    (released : Bool) : Ledger :=
  { writer := .start settings now, box := { capacity, held, released }, accepted := held }

/-- The payloads that reached the peer. -/
def carried (ledger : Ledger) : List Payload := ledger.writes.flatMap WriteRecord.carried

/-- The writes that are over once the current one has ended. -/
def endWrite (ledger : Ledger) (well : Bool) : List WriteRecord :=
  ledger.writes ++ (ledger.writer.cargo?.map fun cargo => ⟨cargo, well⟩).toList

/-- What an event makes of a ledger. -/
def step (settings : Settings) (ledger : Ledger) : WriterEvent → Ledger
  | .offer payload =>
      if ledger.box.released then ledger
      else
        { ledger with
          box := (ledger.box.offer payload).2
          accepted := ledger.accepted ++
            if ledger.box.answer = .accepted then [payload] else [] }
  | .release => { ledger with box := ledger.box.release }
  | .stop => { ledger with writer := ledger.writer.stop }
  | .turn now =>
      { ledger with
        writer := (ledger.writer.turn settings now ledger.box).1
        box := (ledger.writer.turn settings now ledger.box).2 }
  | .written =>
      { ledger with
        writer := (ledger.writer.written ledger.box).1
        box := (ledger.writer.written ledger.box).2
        writes := ledger.endWrite true }
  | .failed =>
      { ledger with
        writer := (ledger.writer.failed ledger.box).1
        box := (ledger.writer.failed ledger.box).2
        writes := ledger.endWrite false }

/-- What several events make of a ledger. -/
def run (settings : Settings) (ledger : Ledger) (events : List WriterEvent) : Ledger :=
  events.foldl (step settings) ledger

/-- What every event keeps, a run keeps. -/
theorem run_keeps {settings : Settings} {Kept : Ledger → Prop}
    (stepKeeps : ∀ ledger event, Kept ledger → Kept (step settings ledger event))
    (ledger : Ledger) (events : List WriterEvent) (start : Kept ledger) :
    Kept (ledger.run settings events) := by
  induction events generalizing ledger with
  | nil => exact start
  | cons event rest induction => exact induction _ (stepKeeps ledger event start)

/-- Writes that ended well and did not close. -/
def Clean (writes : List WriteRecord) : Prop :=
  ∀ record ∈ writes, record.well = true ∧ record.cargo ≠ .close

theorem Clean.append {writes : List WriteRecord} (clean : Clean writes) {record : WriteRecord}
    (well : record.well = true) (goesOn : record.cargo ≠ .close) :
    Clean (writes ++ [record]) := by
  intro other member
  rcases List.mem_append.1 member with earlier | last
  · exact clean other earlier
  · rw [List.mem_singleton.1 last]
    exact ⟨well, goesOn⟩

/-- After clean writes nothing follows the first that is not. -/
theorem Clean.eq_nil {earlier before after : List WriteRecord} {last record : WriteRecord}
    (clean : Clean earlier) (failed : record.well = false)
    (same : earlier ++ [last] = before ++ record :: after) : after = [] := by
  rcases List.eq_nil_or_concat after with nothing | ⟨rest, final, rfl⟩
  · exact nothing
  · have split : earlier = before ++ record :: rest := by
      rw [List.concat_eq_append, ← List.cons_append, ← List.append_assoc] at same
      exact (List.append_inj' same rfl).1
    have well := (clean record (by simp [split])).1
    rw [failed] at well
    cases well

/-- The writes of a writer tell why it gives up or how it ended: but for a close or a
write that failed at the end, all of them were clean. -/
def History (writer : Writer) (writes : List WriteRecord) : Prop :=
  match writer.phase with
  | .ended .queueClosed => ∃ earlier well, writes = earlier ++ [{ cargo := .close, well }] ∧
      Clean earlier
  | .draining .failed _ | .ended (.failed _) =>
      ∃ earlier cargo, writes = earlier ++ [{ cargo, well := false }] ∧ Clean earlier
  | _ => Clean writes

/-- What is true of a ledger at all times. -/
structure Balanced (ledger : Ledger) : Prop where
  serves : ledger.writer.Serves ledger.box
  adds_up : ledger.carried ++ (ledger.writer.pending ++ ledger.box.held) = ledger.accepted
  history : History ledger.writer ledger.writes

variable {settings : Settings} {ledger : Ledger}

theorem Balanced.start (settings : Settings) (now : Moment) (capacity : Nat)
    (held : List Payload) (released : Bool) :
    (Ledger.start settings now capacity held released).Balanced where
  serves := rfl
  adds_up := rfl
  history := fun _ impossible => absurd impossible List.not_mem_nil

theorem carried_endWrite_true (ledger : Ledger) :
    (ledger.endWrite true).flatMap WriteRecord.carried =
      ledger.carried ++ ledger.writer.current := by
  unfold endWrite carried Writer.current
  cases ledger.writer.cargo? <;> simp [WriteRecord.carried]

theorem carried_endWrite_false (ledger : Ledger) :
    (ledger.endWrite false).flatMap WriteRecord.carried = ledger.carried := by
  unfold endWrite carried
  cases ledger.writer.cargo? <;> simp [WriteRecord.carried]

/-- A turn ends no write. -/
theorem History.turns {writer later : Writer} {writes : List WriteRecord}
    (history : History writer writes) {settings : Settings} {now : Moment} {box laterBox : Outbox}
    (turns : writer.Turns settings now box later laterBox) : History later writes := by
  unfold History at history
  cases turns with
  | rest | refuse => exact history
  | giveUp waiting told =>
      rw [waiting] at history
      exact history
  | take taking held =>
      rcases taking with phase | ⟨_, phase⟩ <;> rw [phase] at history <;> exact history
  | write gathers empty =>
      rw [gathers] at history
      exact history
  | close waiting released empty =>
      rw [waiting] at history
      exact history
  | ping waiting due =>
      rw [waiting] at history
      exact history
  | @drain cause payloads first rest drains shut held =>
      rw [drains] at history
      cases cause <;> exact history
  | @finish cause payloads drains shut empty =>
      rw [drains] at history
      cases cause <;> exact history

theorem Balanced.written (balanced : ledger.Balanced) :
    (ledger.step settings .written).Balanced where
  serves := balanced.serves.written
  adds_up := by
    let after := ledger.writer.written ledger.box
    calc (ledger.endWrite true).flatMap WriteRecord.carried ++ (after.1.pending ++ after.2.held)
        = ledger.carried ++ (ledger.writer.current ++ (after.1.pending ++ after.2.held)) := by
          rw [ledger.carried_endWrite_true, List.append_assoc]
      _ = ledger.carried ++ (ledger.writer.pending ++ ledger.box.held) := by
          rw [Writer.pending_written balanced.serves]
      _ = ledger.accepted := balanced.adds_up
  history := by
    have history := balanced.history
    show History (ledger.writer.written ledger.box).1 (ledger.endWrite true)
    unfold Writer.written endWrite Writer.cargo?
    cases phase : ledger.writer.phase with
    | waiting | gathering | draining | ended => simpa using history
    | writing cargo deadline =>
        have clean : Clean ledger.writes := by simpa only [History, phase] using history
        cases cargo with
        | close => exact ⟨ledger.writes, true, rfl, clean⟩
        | ping => exact clean.append rfl (by simp)
        | batch payloads => exact clean.append rfl (by simp)

theorem Balanced.failed (balanced : ledger.Balanced) :
    (ledger.step settings .failed).Balanced where
  serves := balanced.serves.failed
  adds_up := by
    let after := ledger.writer.failed ledger.box
    calc (ledger.endWrite false).flatMap WriteRecord.carried ++ (after.1.pending ++ after.2.held)
        = ledger.carried ++ (ledger.writer.pending ++ ledger.box.held) := by
          rw [ledger.carried_endWrite_false, Writer.pending_failed balanced.serves]
      _ = ledger.accepted := balanced.adds_up
  history := by
    have history := balanced.history
    show History (ledger.writer.failed ledger.box).1 (ledger.endWrite false)
    unfold Writer.failed endWrite Writer.cargo?
    cases phase : ledger.writer.phase with
    | waiting | gathering | draining | ended => simpa using history
    | writing cargo deadline =>
        have clean : Clean ledger.writes := by simpa only [History, phase] using history
        cases cargo with
        | close => exact ⟨ledger.writes, false, rfl, clean⟩
        | ping => exact ⟨ledger.writes, .ping, rfl, clean⟩
        | batch payloads => exact ⟨ledger.writes, .batch payloads, rfl, clean⟩

/-- An offer that is accepted is owed, and any other leaves no trace. -/
theorem Balanced.offer (balanced : ledger.Balanced) (payload : Payload) :
    (ledger.step settings (.offer payload)).Balanced := by
  unfold step
  cases released : ledger.box.released with
  | true => simpa using balanced
  | false =>
      simp only [Bool.false_eq_true, if_false, Outbox.offer_eq]
      by_cases accepted : ledger.box.answer = .accepted
      · simp only [accepted, if_true]
        refine ⟨?_, ?_, balanced.history⟩
        · have fed := ledger.box.fed_offer released payload
          rw [Outbox.offer_eq, if_pos accepted] at fed
          exact balanced.serves.fed fed
        · rw [← balanced.adds_up]
          simp [carried]
      · simp only [accepted, if_false, List.append_nil]
        exact balanced

/-- Every event keeps a ledger balanced. -/
theorem Balanced.step (balanced : ledger.Balanced) (event : WriterEvent) :
    (ledger.step settings event).Balanced := by
  cases event with
  | offer payload => exact balanced.offer payload
  | release =>
      have serves := balanced.serves.fed ledger.box.fed_release
      exact ⟨serves, balanced.adds_up, balanced.history⟩
  | stop => exact ⟨balanced.serves, balanced.adds_up, balanced.history⟩
  | turn now =>
      have turns := ledger.writer.turns_turn settings now ledger.box
      exact ⟨turns.serves balanced.serves,
        (congrArg (ledger.carried ++ ·) turns.pending_append).trans balanced.adds_up,
        balanced.history.turns turns⟩
  | written => exact balanced.written
  | failed => exact balanced.failed

theorem Balanced.run (balanced : ledger.Balanced) (events : List WriterEvent) :
    (ledger.run settings events).Balanced :=
  run_keeps (fun _ event balanced => balanced.step event) ledger events balanced

/-- At the end of a writer the outbox is closed and empty, so what was written and what
is handed back are all that was accepted. -/
theorem Balanced.at_end (balanced : ledger.Balanced) {outcome : WriteEnd}
    (finished : ledger.writer.outcome? = some outcome) :
    ledger.carried ++ outcome.undelivered = ledger.accepted ∧ ledger.box.isOpen = false ∧
      (outcome = .queueClosed → ledger.box.released = true) := by
  have ended := Writer.outcome?_eq_some_iff.1 finished
  have serves := balanced.serves
  unfold Writer.Serves at serves
  simp only [ended] at serves
  obtain ⟨closed, empty, released⟩ := serves
  have adds_up := balanced.adds_up
  rw [empty, List.append_nil] at adds_up
  exact ⟨by simpa [Writer.pending, ended] using adds_up, closed, released⟩

/-- A writer that has ended does nothing more. -/
theorem outcome?_step {outcome : WriteEnd} (finished : ledger.writer.outcome? = some outcome)
    (event : WriterEvent) : (ledger.step settings event).writer.outcome? = some outcome := by
  have ended := Writer.outcome?_eq_some_iff.1 finished
  cases event with
  | offer payload => cases released : ledger.box.released <;> simpa [step, released] using finished
  | release => exact finished
  | stop => exact finished
  | turn now => simp [step, Writer.turn, ended, finished]
  | written => simp [step, Writer.written, ended, finished]
  | failed => simp [step, Writer.failed, ended, finished]

theorem outcome?_run {outcome : WriteEnd} (finished : ledger.writer.outcome? = some outcome)
    (events : List WriterEvent) :
    (ledger.run settings events).writer.outcome? = some outcome :=
  @run_keeps settings (fun later => later.writer.outcome? = some outcome)
    (fun _ event finished => outcome?_step finished event) ledger events finished

/-- A write that failed is the last one. -/
theorem Balanced.last_of_failed (balanced : ledger.Balanced) {before after : List WriteRecord}
    {record : WriteRecord} (failed : record.well = false)
    (split : ledger.writes = before ++ record :: after) :
    after = [] ∧ ledger.writer.cargo? = none := by
  have unclean (clean : Clean ledger.writes) : False := by
    have well := (clean record (by simp [split])).1
    rw [failed] at well
    cases well
  have history := balanced.history
  unfold History at history
  unfold Writer.cargo?
  split at history
  · rename_i phase
    obtain ⟨earlier, well, same, clean⟩ := history
    exact ⟨clean.eq_nil failed (same.symm.trans split), by simp [phase]⟩
  · rename_i payloads phase
    obtain ⟨earlier, cargo, same, clean⟩ := history
    exact ⟨clean.eq_nil failed (same.symm.trans split), by simp [phase]⟩
  · rename_i payloads phase
    obtain ⟨earlier, cargo, same, clean⟩ := history
    exact ⟨clean.eq_nil failed (same.symm.trans split), by simp [phase]⟩
  · exact (unclean history).elim

/-- A writer accounts for every payload that its outbox accepted.  Whatever the outbox
held at first and in whatever order payloads are offered, the last producer leaves, the
writer is told to stop, takes its turns, and its writes end well or not, so that payloads may
come between any two that it takes, and before and after it closes the outbox: when it has
ended, the payloads of the writes that ended well, followed by those that it hands back,
are the accepted ones in order.  It finds its outbox closed only when nobody can offer any
more and everything was written; then its last write is a close, the only one.  After a
write that failed no other begins.  Once it has ended, every later offer is refused. -/
theorem accepted_payloads_are_accounted_for (settings : Settings) (now : Moment)
    (capacity : Nat) (held : List Payload) (released : Bool) (events : List WriterEvent) :
    let ledger := (Ledger.start settings now capacity held released).run settings events
    (∀ outcome, ledger.writer.outcome? = some outcome →
        ledger.carried ++ outcome.undelivered = ledger.accepted) ∧
      (ledger.writer.outcome? = some .queueClosed →
        ledger.box.released = true ∧ ledger.carried = ledger.accepted ∧
          ∃ earlier well, ledger.writes = earlier ++ [{ cargo := .close, well }] ∧
            ∀ record ∈ earlier, record.well = true ∧ record.cargo ≠ .close) ∧
      (∀ before record after, ledger.writes = before ++ record :: after →
        record.well = false → after = [] ∧ ledger.writer.cargo? = none) ∧
      (∀ outcome, ledger.writer.outcome? = some outcome →
        ∀ more payload, ((ledger.run settings more).box.offer payload).1 = .refused) := by
  intro ledger
  have balanced : ledger.Balanced := (Balanced.start settings now capacity held released).run events
  refine ⟨fun outcome finished => (balanced.at_end finished).1, fun finished => ?_,
    fun before record after split failed => balanced.last_of_failed failed split,
    fun outcome finished more payload => ?_⟩
  · obtain ⟨adds_up, _, released⟩ := balanced.at_end finished
    have history := balanced.history
    unfold History at history
    rw [Writer.outcome?_eq_some_iff.1 finished] at history
    exact ⟨released rfl, by simpa [WriteEnd.undelivered] using adds_up, history⟩
  · have later : (ledger.run settings more).Balanced := balanced.run more
    rw [Outbox.fst_offer]
    exact Outbox.answer_eq_refused_iff.2 (later.at_end (outcome?_run finished more)).2.1

/-- The first message carries more payloads than there is ever room for, since some come while
it is put together.  Those that come while the second write is blocked, and after it has failed
as long as the outbox is not closed, are handed back behind its own, and later ones are
refused. -/
theorem accepted_payloads_of_a_failed_write :
    let settings : Settings := {}
    let first : List WriterEvent := [.turn 1, .offer "second", .offer "third", .offer "full",
      .turn 1, .turn 1, .turn 1, .written]
    let second : List WriterEvent := [.offer "fourth", .turn 2, .turn 2, .offer "fifth", .failed,
      .offer "sixth", .turn 3, .offer "late", .turn 3, .offer "later", .turn 3, .turn 3]
    let ledger := (Ledger.start settings 0 2 ["first"] false).run settings (first ++ second)
    let outcome : WriteEnd := .failed ["fourth", "fifth", "sixth"]
    ledger.writer.outcome? = some outcome ∧ ledger.carried = ["first", "second", "third"] ∧
      ledger.carried ++ outcome.undelivered = ledger.accepted := by
  intro settings first second ledger outcome
  have finished : ledger.writer.outcome? = some outcome := by decide
  exact ⟨finished, by decide,
    (accepted_payloads_are_accounted_for settings 0 2 ["first"] false _).1 outcome finished⟩

end Ledger
end Parley
