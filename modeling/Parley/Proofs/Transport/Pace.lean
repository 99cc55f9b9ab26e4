import Parley.Proofs.Transport.Reader
import Parley.Proofs.Transport.Writer

/-!
# Keeping pace

A peer that answers every ping stays alive as long as pings reach it in time.  A ping is
late when the writer is busy with other writes at the moment when it is due, and it takes
time itself.  `Pace` bounds both delays, and when they fit between the interval of the
pings and the longest silence, the answer to a ping always arrives before the reader gives
the peer up.
-/

namespace Parley

namespace Moment

theorem le_roundUp (moment : Moment) : moment ≤ roundUp moment := by
  have divided := Nat.div_add_mod (moment + (Span.millisecond - 1)) Span.millisecond
  have below := Nat.mod_lt (moment + (Span.millisecond - 1)) (show 0 < Span.millisecond by decide)
  unfold roundUp
  rw [Nat.mul_comm] at divided
  lia

theorem roundUp_lt (moment : Moment) : roundUp moment < moment + Span.millisecond := by
  have divided := Nat.div_mul_le_self (moment + (Span.millisecond - 1)) Span.millisecond
  have positive : 0 < Span.millisecond := by decide
  unfold roundUp
  lia

/-- At a whole millisecond every timer that is due rings. -/
theorem roundUp_le {now moment : Moment} (whole : Span.millisecond ∣ now)
    (reached : moment ≤ now) : moment.roundUp ≤ now := by
  obtain ⟨count, rfl⟩ := whole
  have grain := Nat.lt_of_lt_of_le moment.roundUp_lt (Nat.add_le_add_right reached _)
  rw [← Nat.mul_succ, Nat.mul_comm] at grain
  unfold roundUp at grain ⊢
  rw [Nat.mul_comm Span.millisecond]
  exact Nat.mul_le_mul_right _ (Nat.le_of_lt_succ (Nat.lt_of_mul_lt_mul_right grain))

end Moment

/-- How long the writes of a session may hold it up. -/
structure Pace where
  /-- The longest that the write of a ping takes. -/
  ping : Span
  /-- The longest that other writes follow each other without a rest or a ping between
  them. -/
  stretch : Span

/-- The pauses between pings, the delays of a pace and the grain of the clock fit into the
longest silence. -/
def Pace.Fits (pace : Pace) (settings : Settings) : Prop :=
  settings.pingInterval.nanoseconds + pace.stretch.nanoseconds + pace.ping.nanoseconds +
    Span.millisecond ≤ settings.idleTimeout.nanoseconds

instance (pace : Pace) (settings : Settings) : Decidable (pace.Fits settings) := by
  unfold Pace.Fits
  infer_instance

/-- What an onlooker remembers of a session. -/
structure Watch where
  /-- Whether a ping was written that the peer has not answered yet. -/
  owed : Bool := false
  /-- When the writer last had nothing to do, or had just written a ping. -/
  rested : Moment

variable {settings : Settings} {pace : Pace} {now : Moment} {watch : Watch}
  {writer : Writer} {box : Outbox}

/-! ## Writers -/

namespace Writer

/-- When the time of the ping that is being written is over. -/
def pingDeadline? (writer : Writer) : Option Moment :=
  match writer.phase with
  | .writing .ping deadline => some deadline
  | _ => none

/-- Whether a writer has neither given up nor ended. -/
def isActive (writer : Writer) : Bool :=
  match writer.phase with
  | .waiting | .gathering _ | .writing _ _ => true
  | .draining _ _ | .ended _ => false

theorem pingDeadline?_of_inactive (inactive : writer.isActive = false) :
    writer.pingDeadline? = none := by
  unfold isActive at inactive
  unfold pingDeadline?
  split at inactive
  · cases inactive
  · cases inactive
  · cases inactive
  · rename_i phase
    simp [phase]
  · rename_i phase
    simp [phase]

/-- Whether a writer has nothing to do before its next ping. -/
def isResting (writer : Writer) (now : Moment) (box : Outbox) : Bool :=
  writer.phase = .waiting && writer.choose now box = .wait

/-- Whether a writer that keeps pace is still where it is when time has passed up to a
moment.  It begins at once what it has to begin, and no write takes too long. -/
def Stays (writer : Writer) (settings : Settings) (pace : Pace) (now : Moment) (rested : Moment)
    (box : Outbox) (moment : Moment) : Prop :=
  match writer.phase with
  | .waiting => writer.choose now box = .wait ∧ moment ≤ Moment.roundUp writer.nextPing
  | .writing .ping deadline =>
      moment + settings.writeTimeout.nanoseconds ≤ deadline + pace.ping.nanoseconds
  | .writing _ _ => moment ≤ rested + pace.stretch.nanoseconds
  | .gathering _ | .draining _ _ | .ended _ => False

instance {rested moment : Moment} :
    Decidable (writer.Stays settings pace now rested box moment) := by
  unfold Stays
  split <;> infer_instance

/-- A writer that has kept pace so far.  Its next ping is at most an interval away, and is
late only by a stretch of other writes. -/
structure InTime (settings : Settings) (pace : Pace) (now rested : Moment) (writer : Writer) :
    Prop where
  soon : writer.nextPing ≤ now + settings.pingInterval.nanoseconds
  past : rested ≤ now
  pinging : ∀ deadline, writer.pingDeadline? = some deadline →
    deadline ≤ now + settings.writeTimeout.nanoseconds ∧
      now + settings.writeTimeout.nanoseconds ≤ deadline + pace.ping.nanoseconds
  due : writer.pingDeadline? = none → writer.isActive = true →
    now ≤ Moment.roundUp writer.nextPing ∨ now ≤ rested + pace.stretch.nanoseconds

variable {rested : Moment}

/-- A writer that has given up does not let time pass. -/
theorem isActive_of_stays {moment : Moment}
    (stays : writer.Stays settings pace now rested box moment) : writer.isActive = true := by
  unfold Stays at stays
  cases phase : writer.phase with
  | draining | ended => simp [phase] at stays
  | waiting | gathering | writing => simp [isActive, phase]

theorem pingAfter_le {due : Moment} (reached : Moment.roundUp due ≤ now) :
    pingAfter settings due now ≤ now + settings.pingInterval.nanoseconds := by
  have before := due.le_roundUp
  unfold pingAfter
  split <;> lia

/-- What a writer may do at a moment, as far as its pings are concerned: nothing, give up
or come to its end, go on with anything but a ping, or begin a ping that is due. -/
inductive Proceeds (settings : Settings) (now : Moment) (writer : Writer) : Writer → Prop
  | idle : Proceeds settings now writer writer
  | giveUp {later : Writer} (inactive : later.isActive = false)
      (same : later.nextPing = writer.nextPing) : Proceeds settings now writer later
  | goOn {later : Writer} (other : writer.pingDeadline? = none)
      (active : writer.isActive = true) (otherLater : later.pingDeadline? = none)
      (same : later.nextPing = writer.nextPing) : Proceeds settings now writer later
  | ping (other : writer.pingDeadline? = none) (active : writer.isActive = true)
      (reached : Moment.roundUp writer.nextPing ≤ now) :
      Proceeds settings now writer
        ({ writer with nextPing := pingAfter settings writer.nextPing now }.begin settings now
          .ping)

theorem proceeds_turn (writer : Writer) (settings : Settings) (now : Moment) (box : Outbox) :
    writer.Proceeds settings now (writer.turn settings now box).1 := by
  have apart (phase : writer.phase = .waiting ∨ ∃ payloads, writer.phase = .gathering payloads) :
      writer.pingDeadline? = none ∧ writer.isActive = true := by
    rcases phase with phase | ⟨_, phase⟩ <;> simp [pingDeadline?, isActive, phase]
  have turns := writer.turns_turn settings now box
  generalize writer.turn settings now box = result at turns ⊢
  obtain ⟨later, laterBox⟩ := result
  cases turns with
  | rest | refuse => exact .idle
  | giveUp | drain | finish => exact .giveUp rfl rfl
  | take taking => exact .goOn (apart taking).1 (apart taking).2 rfl rfl
  | write gathers =>
      have before := apart (.inr ⟨_, gathers⟩)
      exact .goOn before.1 before.2 rfl rfl
  | close waiting => exact .goOn (apart (.inl waiting)).1 (apart (.inl waiting)).2 rfl rfl
  | ping waiting due => exact .ping (apart (.inl waiting)).1 (apart (.inl waiting)).2 due

theorem proceeds_failed (writer : Writer) (box : Outbox) :
    writer.Proceeds settings now (writer.failed box).1 := by
  unfold failed
  split
  · exact .giveUp rfl rfl
  · exact .giveUp rfl rfl
  · exact .idle

/-- The end of a write that is no ping. -/
theorem proceeds_written (other : writer.pingDeadline? = none) (box : Outbox) :
    writer.Proceeds settings now (writer.written box).1 := by
  unfold written
  split
  · exact .giveUp rfl rfl
  · rename_i phase
    exact .goOn other (by simp [isActive, phase]) rfl rfl
  · exact .idle

theorem InTime.start (settings : Settings) (pace : Pace) {now rested : Moment}
    (before : rested ≤ now) : InTime settings pace now rested (Writer.start settings now) where
  soon := Nat.le_refl _
  past := before
  pinging deadline writes := by cases writes
  due _ _ := .inl (Nat.le_trans (Nat.le_add_right _ _) (Moment.le_roundUp _))

/-- Time passes while the writer stays where it is. -/
theorem InTime.elapse (inTime : writer.InTime settings pace now rested) {moment : Moment}
    (later : now ≤ moment) (stays : writer.Stays settings pace now rested box moment) :
    writer.InTime settings pace moment rested where
  soon := Nat.le_trans inTime.soon (Nat.add_le_add_right later _)
  past := Nat.le_trans inTime.past later
  pinging deadline writes := by
    obtain ⟨begun, _⟩ := inTime.pinging deadline writes
    refine ⟨Nat.le_trans begun (Nat.add_le_add_right later _), ?_⟩
    unfold pingDeadline? at writes
    unfold Stays at stays
    split at writes <;> cases writes
    rename_i phase
    simpa only [phase] using stays
  due other active := by
    unfold pingDeadline? at other
    unfold Stays at stays
    split at stays
    · exact .inl stays.2
    · rename_i phase
      simp [phase] at other
    · exact .inr stays
    all_goals exact stays.elim

theorem InTime.proceed (inTime : writer.InTime settings pace now rested) {later : Writer}
    (proceeds : writer.Proceeds settings now later) : later.InTime settings pace now rested := by
  cases proceeds with
  | idle => exact inTime
  | giveUp inactive same =>
      refine ⟨same ▸ inTime.soon, inTime.past, fun _ writes => ?_, fun _ active => ?_⟩
      · rw [pingDeadline?_of_inactive inactive] at writes
        cases writes
      · rw [inactive] at active
        cases active
  | goOn other active otherLater same =>
      refine ⟨same ▸ inTime.soon, inTime.past, fun _ writes => ?_, fun _ _ => ?_⟩
      · rw [otherLater] at writes
        cases writes
      · exact same ▸ inTime.due other active
  | ping other active reached =>
      refine ⟨pingAfter_le reached, inTime.past, fun _ writes => ?_, fun other => ?_⟩
      · cases writes
        exact ⟨Nat.le_refl _, Nat.le_add_right _ _⟩
      · cases other

end Writer

namespace Watch

/-- The write that is going on has ended well. -/
def written (watch : Watch) (writer : Writer) (now : Moment) : Watch :=
  if writer.pingDeadline?.isSome then { owed := true, rested := now } else watch

/-- The writer may be at rest. -/
def rest (watch : Watch) (writer : Writer) (now : Moment) (box : Outbox) : Watch :=
  if writer.isResting now box then { watch with rested := now } else watch

end Watch

namespace Writer

theorem phase_of_pingDeadline? {deadline : Moment}
    (writes : writer.pingDeadline? = some deadline) : writer.phase = .writing .ping deadline := by
  unfold pingDeadline? at writes
  split at writes <;> cases writes
  assumption

theorem InTime.written (inTime : writer.InTime settings pace now watch.rested) (box : Outbox) :
    (writer.written box).1.InTime settings pace now (watch.written writer now).rested := by
  unfold Watch.written
  cases writes : writer.pingDeadline? with
  | none => exact inTime.proceed (proceeds_written writes box)
  | some deadline =>
      simp only [Writer.written, phase_of_pingDeadline? writes, Option.isSome_some, if_true]
      refine ⟨inTime.soon, Nat.le_refl _, fun _ writes => ?_, fun _ _ => ?_⟩
      · cases writes
      · exact .inr (Nat.le_add_right _ _)

theorem InTime.rest (inTime : writer.InTime settings pace now watch.rested) (box : Outbox) :
    writer.InTime settings pace now (watch.rest writer now box).rested := by
  unfold Watch.rest
  split
  · exact ⟨inTime.soon, Nat.le_refl _, inTime.pinging, fun _ _ => .inr (Nat.le_add_right _ _)⟩
  · exact inTime

end Writer

/-! ## Readers -/

namespace Reader

/-- A reader that will hear of its peer before it gives up.  Its deadline is still to come;
when no answer is owed, it lies behind the end of the ping that is being written, and so far
behind the last sign of life that the next ping comes in time. -/
structure Hopes (settings : Settings) (pace : Pace) (now : Moment) (watch : Watch)
    (writer : Writer) (deadline : Moment) : Prop where
  alive : now < deadline
  pinging : watch.owed = false → ∀ pingDeadline, writer.pingDeadline? = some pingDeadline →
    pingDeadline + pace.ping.nanoseconds < deadline + settings.writeTimeout.nanoseconds
  due : watch.owed = false → writer.pingDeadline? = none → writer.isActive = true →
    writer.nextPing + settings.idleTimeout.nanoseconds ≤
        deadline + settings.pingInterval.nanoseconds ∧
      watch.rested + settings.idleTimeout.nanoseconds <
        deadline + settings.pingInterval.nanoseconds + Span.millisecond

variable {deadline : Moment}

/-- Whoever has just heard of its peer has time until a ping is written and answered. -/
theorem Hopes.fresh (fits : pace.Fits settings)
    (inTime : writer.InTime settings pace now watch.rested) :
    Hopes settings pace now watch writer (now + settings.idleTimeout.nanoseconds) := by
  obtain ⟨soon, past, pinging, _⟩ := inTime
  have grain : 0 < Span.millisecond := by decide
  unfold Pace.Fits at fits
  refine ⟨by lia, fun _ pingDeadline writes => ?_, fun _ _ _ => by constructor <;> lia⟩
  obtain ⟨begun, _⟩ := pinging pingDeadline writes
  lia

/-- A ping that could be begun now would be answered in time. -/
theorem Hopes.ping_lt (hopes : Hopes settings pace now watch writer deadline)
    (fits : pace.Fits settings) (inTime : writer.InTime settings pace now watch.rested)
    (answered : watch.owed = false) (other : writer.pingDeadline? = none)
    (active : writer.isActive = true) : now + pace.ping.nanoseconds < deadline := by
  obtain ⟨soon, late⟩ := hopes.due answered other active
  have grain := Moment.roundUp_lt writer.nextPing
  have reached := inTime.due other active
  unfold Pace.Fits at fits
  lia

/-- As long as the writer keeps pace and nothing is owed, the deadline is still to come. -/
theorem Hopes.elapse (hopes : Hopes settings pace now watch writer deadline)
    (fits : pace.Fits settings) {moment : Moment}
    (inTime : writer.InTime settings pace moment watch.rested) (answered : watch.owed = false)
    (active : writer.isActive = true) : Hopes settings pace moment watch writer deadline := by
  refine ⟨?_, hopes.pinging, hopes.due⟩
  cases writes : writer.pingDeadline? with
  | some pingDeadline =>
      have ends := hopes.pinging answered pingDeadline writes
      have lasts := (inTime.pinging pingDeadline writes).2
      lia
  | none =>
      obtain ⟨soon, late⟩ := hopes.due answered writes active
      have grain := Moment.roundUp_lt writer.nextPing
      have reached := inTime.due writes active
      unfold Pace.Fits at fits
      lia

theorem Hopes.proceed (hopes : Hopes settings pace now watch writer deadline)
    (fits : pace.Fits settings) (inTime : writer.InTime settings pace now watch.rested)
    {later : Writer} (proceeds : writer.Proceeds settings now later) :
    Hopes settings pace now watch later deadline := by
  cases proceeds with
  | idle => exact hopes
  | giveUp inactive same =>
      refine ⟨hopes.alive, fun _ _ writes => ?_, fun _ _ active => ?_⟩
      · rw [Writer.pingDeadline?_of_inactive inactive] at writes
        cases writes
      · rw [inactive] at active
        cases active
  | goOn other active otherLater same =>
      refine ⟨hopes.alive, fun _ _ writes => ?_, fun answered _ _ => ?_⟩
      · rw [otherLater] at writes
        cases writes
      · exact same ▸ hopes.due answered other active
  | ping other active reached =>
      refine ⟨hopes.alive, fun answered _ writes => ?_, fun _ other => ?_⟩
      · have early := hopes.ping_lt fits inTime answered other active
        cases writes
        lia
      · cases other

/-- Once a ping is written, its answer is owed. -/
theorem Hopes.written (hopes : Hopes settings pace now watch writer deadline)
    (fits : pace.Fits settings) (inTime : writer.InTime settings pace now watch.rested)
    (box : Outbox) :
    Hopes settings pace now (watch.written writer now) (writer.written box).1 deadline := by
  unfold Watch.written
  cases writes : writer.pingDeadline? with
  | none => exact hopes.proceed fits inTime (Writer.proceeds_written writes box)
  | some _ =>
      rw [Option.isSome_some, if_pos rfl]
      refine ⟨hopes.alive, fun answered => ?_, fun answered => ?_⟩ <;> cases answered

theorem Hopes.rest (hopes : Hopes settings pace now watch writer deadline) (box : Outbox) :
    Hopes settings pace now (watch.rest writer now box) writer deadline := by
  unfold Watch.rest
  split
  · rename_i resting
    obtain ⟨phase, chosen⟩ : writer.phase = .waiting ∧ writer.choose now box = .wait := by
      simpa [Writer.isResting] using resting
    refine ⟨hopes.alive, hopes.pinging, fun answered other active => ?_⟩
    obtain ⟨soon, _⟩ := hopes.due answered other active
    have early : now < Moment.roundUp writer.nextPing := by
      simpa only [chosen] using writer.choose_spec now box
    have grain := Moment.roundUp_lt writer.nextPing
    exact ⟨soon, by dsimp only; lia⟩
  · exact hopes

end Reader
end Parley
