import Mathlib.Data.List.Induction
import Parley.Client.Retry

/-!
# When a client gives up

A client goes on as long as its sessions end for reasons that may pass.  It stops when the
user is done, when the server turns it away for good, and when a series of attempts is used
up: five outcomes in a row, of which only the first may be the loss of a connection.  So
five attempts to connect are made at first, but only four after a connection was lost, since
the loss itself is counted as the first of the series.
-/

namespace Parley
namespace Retry

/-- How a session ends. -/
abbrev Ending := Except Failure Unit

/-- No connection came about, for a reason that may pass. -/
inductive Missed : Ending → Prop
  | unreachable (reason : String) : Missed (.error (.unreachable reason))
  | rejected {status : Nat} (reason : String) (passing : 500 ≤ status) :
      Missed (.error (.rejected status reason))

/-- A connection came about and was lost. -/
inductive Dropped : Ending → Prop
  | lost (reason : String) : Dropped (.error (.lost reason))

/-- As many attempts in a row have failed as a series has, without a connection among
them. -/
def OnlyMissed (endings : List Ending) : Prop :=
  ∃ earlier series, endings = earlier ++ series ∧ series.length = limit ∧
    ∀ ending ∈ series, Missed ending

/-- The latest endings are as many as a series has, and only the first of them may be the
loss of a connection. -/
def UsedUp (endings : List Ending) : Prop :=
  ∃ earlier first others, endings = earlier ++ first :: others ∧ others.length + 1 = limit ∧
    (Missed first ∨ Dropped first) ∧ ∀ ending ∈ others, Missed ending

/-- The client goes on after these endings: all of them may pass, and at no point a series
was used up. -/
structure GoesOn (spent : List Ending → Prop) (endings : List Ending) : Prop where
  passing : ∀ ending ∈ endings, Missed ending ∨ Dropped ending
  unspent : ∀ earlier, earlier <+: endings → ¬spent earlier

/-- What an ending makes the client report, after the endings before it. -/
inductive Stops (spent : List Ending → Prop) (before : List Ending) : Ending → Ending → Prop
  | finished : Stops spent before (.ok ()) (.ok ())
  | turnedAway {failure : Failure} (final : failure.isRetryable = false) :
      Stops spent before (.error failure) (.error failure)
  | givenUp {ending : Ending} (passing : Missed ending ∨ Dropped ending)
      (used : spent (before ++ [ending])) :
      Stops spent before ending (.error (.retriesExhausted limit))

/-- What a client reports whose sessions end like this: nothing as long as it goes on, and
otherwise what the first ending makes it report at which it stops. -/
def Reports (spent : List Ending → Prop) (endings : List Ending) : Option Ending → Prop
  | none => GoesOn spent endings
  | some report => ∃ before last after, endings = before ++ last :: after ∧
      GoesOn spent before ∧ Stops spent before last report

variable {spent : List Ending → Prop} {before endings : List Ending} {last report : Ending}
  {failure : Failure}

theorem isRetryable_iff :
    failure.isRetryable = true ↔ Missed (.error failure) ∨ Dropped (.error failure) := by
  constructor
  · intro passing
    cases failure with
    | rejected status reason => exact .inl (.rejected reason (of_decide_eq_true passing))
    | unreachable reason => exact .inl (.unreachable reason)
    | lost reason => exact .inr (.lost reason)
    | retriesExhausted attempts => cases passing
  · rintro (missed | dropped)
    · cases missed with
      | unreachable reason => rfl
      | rejected reason passing => exact decide_eq_true passing
    · cases dropped with
      | lost reason => rfl

theorem Missed.not_dropped (missed : Missed last) : ¬Dropped last := by
  rintro ⟨reason⟩
  cases missed

/-- A session that the user ends is no failure. -/
theorem not_passing_ok : ¬(Missed (.ok ()) ∨ Dropped (.ok ())) := by
  rintro (missed | dropped)
  · cases missed
  · cases dropped

/-! ## Reports -/

theorem GoesOn.nil (fresh : ¬spent []) : GoesOn spent [] where
  passing ending member := by cases member
  unspent earlier begins := by
    rw [List.prefix_nil.1 begins]
    exact fresh

theorem goesOn_concat_iff :
    GoesOn spent (before ++ [last]) ↔
      GoesOn spent before ∧ (Missed last ∨ Dropped last) ∧ ¬spent (before ++ [last]) := by
  constructor
  · rintro ⟨passing, unspent⟩
    obtain ⟨passingBefore, lastPasses⟩ := List.forall_mem_append.1 passing
    refine ⟨⟨passingBefore, fun earlier begins => ?_⟩, lastPasses last List.mem_cons_self, ?_⟩
    · exact unspent earlier (begins.trans (List.prefix_append _ _))
    · exact unspent _ List.prefix_rfl
  · rintro ⟨⟨passing, unspent⟩, passes, fresh⟩
    refine ⟨List.forall_mem_append.2 ⟨passing, List.forall_mem_singleton.2 passes⟩,
      fun earlier begins => ?_⟩
    rcases List.prefix_concat_iff.1 begins with rfl | begins
    · exact fresh
    · exact unspent earlier begins

/-- No ending at which the client goes on makes it stop. -/
theorem Stops.not_goesOn (stops : Stops spent before last report) :
    ¬GoesOn spent (before ++ [last]) := by
  intro goesOn
  obtain ⟨-, passes, fresh⟩ := goesOn_concat_iff.1 goesOn
  cases stops with
  | finished => exact not_passing_ok passes
  | turnedAway final =>
      rw [isRetryable_iff.2 passes] at final
      cases final
  | givenUp passing used => exact fresh used

/-- At one ending the client makes one report. -/
theorem Stops.unique {other : Ending} (stops : Stops spent before last report)
    (others : Stops spent before last other) : report = other := by
  cases stops with
  | finished =>
      cases others with
      | finished => rfl
      | givenUp passing used => exact absurd passing not_passing_ok
  | turnedAway final =>
      cases others with
      | turnedAway => rfl
      | givenUp passing used =>
          rw [isRetryable_iff.2 passing] at final
          cases final
  | givenUp passing used =>
      cases others with
      | finished => exact absurd passing not_passing_ok
      | turnedAway final =>
          rw [isRetryable_iff.2 passing] at final
          cases final
      | givenUp => rfl

theorem GoesOn.of_isPrefix {earlier : List Ending} (goesOn : GoesOn spent endings)
    (begins : earlier <+: endings) : GoesOn spent earlier where
  passing ending member := goesOn.passing ending (begins.subset member)
  unspent first starts := goesOn.unspent first (starts.trans begins)

/-- Of two endings at which the client stops neither comes before the other. -/
theorem Stops.same {later : List Ending} {final : Ending}
    (stops : Stops spent before last report) (goesOn : GoesOn spent later)
    (begins : before ++ [last] <+: later ++ [final]) :
    before = later ∧ last = final := by
  rcases List.prefix_concat_iff.1 begins with same | starts
  · obtain ⟨same, last⟩ := List.append_inj' same rfl
    exact ⟨same, List.cons.inj last |>.1⟩
  · exact absurd (goesOn.of_isPrefix starts) stops.not_goesOn

/-- No more than one report is right. -/
theorem Reports.unique {result other : Option Ending} (reports : Reports spent endings result)
    (others : Reports spent endings other) : result = other := by
  cases result with
  | none =>
      cases other with
      | none => rfl
      | some report =>
          obtain ⟨before, last, after, split, -, stops⟩ := others
          have begins : before ++ [last] <+: endings := ⟨after, by simp [split]⟩
          exact absurd (GoesOn.of_isPrefix reports begins) stops.not_goesOn
  | some report =>
      obtain ⟨before, last, after, split, goesOn, stops⟩ := reports
      have begins : before ++ [last] <+: endings := ⟨after, by simp [split]⟩
      cases other with
      | none => exact absurd (GoesOn.of_isPrefix others begins) stops.not_goesOn
      | some report =>
          obtain ⟨earlier, final, behind, splitLater, goesOnLater, stopsLater⟩ := others
          have starts : earlier ++ [final] <+: endings := ⟨behind, by simp [splitLater]⟩
          obtain ⟨rfl, rfl⟩ : before = earlier ∧ last = final := by
            rcases List.prefix_or_prefix_of_prefix begins starts with within | within
            · exact stops.same goesOnLater within
            · obtain ⟨sameBefore, sameLast⟩ := stopsLater.same goesOn within
              exact ⟨sameBefore.symm, sameLast.symm⟩
          rw [stops.unique stopsLater]

/-! ## Series -/

/-- The failures of the series after these endings. -/
def streak (endings : List Ending) : Nat :=
  endings.foldl (fun failures ending => match ending with
    | .ok _ => failures
    | .error failure => counted failures failure + 1) 0

theorem streak_concat (before : List Ending) (failure : Failure) :
    streak (before ++ [.error failure]) = counted (streak before) failure + 1 := by
  simp [streak]

theorem streak_of_missed (missed : Missed last) :
    streak (before ++ [last]) = streak before + 1 := by
  cases missed with
  | unreachable reason => exact streak_concat before (.unreachable reason)
  | rejected reason passing => exact streak_concat before (.rejected _ reason)

theorem streak_append_missed {attempts : List Ending}
    (missing : ∀ ending ∈ attempts, Missed ending) :
    streak (before ++ attempts) = streak before + attempts.length := by
  induction attempts using List.reverseRecOn with
  | nil => simp
  | append_singleton attempts last induction =>
      have missed := missing last (by simp)
      rw [← List.append_assoc, streak_of_missed missed,
        induction fun ending member => missing ending (by simp [member])]
      simp [Nat.add_assoc]

theorem streak_of_dropped (dropped : Dropped last) : streak (before ++ [last]) = 1 := by
  cases dropped with
  | lost reason => exact streak_concat before (.lost reason)

/-- The last ending is the last of those behind the first of a series. -/
theorem concat_eq_append_cons {earlier others : List Ending} {first : Ending}
    (split : before ++ [last] = earlier ++ first :: others) (more : others ≠ []) :
    ∃ rest, others = rest ++ [last] ∧ before = earlier ++ first :: rest := by
  obtain ⟨rest, final, rfl⟩ := (List.eq_nil_or_concat others).resolve_left more
  rw [List.concat_eq_append, ← List.cons_append, ← List.append_assoc] at split
  obtain ⟨rfl, same⟩ := List.append_inj' split rfl
  cases same
  exact ⟨rest, List.concat_eq_append, rfl⟩

/-- A series has so many failures when so many endings in a row have missed since one that
may have been a loss. -/
theorem lt_streak_iff {count : Nat}
    (passing : ∀ ending ∈ endings, Missed ending ∨ Dropped ending) :
    count < streak endings ↔ ∃ earlier first others, endings = earlier ++ first :: others ∧
      others.length = count ∧ (Missed first ∨ Dropped first) ∧ ∀ ending ∈ others, Missed ending := by
  induction endings using List.reverseRecOn generalizing count with
  | nil => simp [streak]
  | append_singleton before last induction =>
      obtain ⟨earlierPass, lastPasses⟩ := List.forall_mem_append.1 passing
      have passes := lastPasses last List.mem_cons_self
      cases count with
      | zero =>
          have positive : 0 < streak (before ++ [last]) := by
            rcases passes with missed | dropped
            · rw [streak_of_missed missed]
              omega
            · rw [streak_of_dropped dropped]
              omega
          exact iff_of_true positive ⟨before, last, [], rfl, rfl, passes, by simp⟩
      | succ count =>
          rcases passes with missed | dropped
          · rw [streak_of_missed missed, Nat.add_lt_add_iff_right, induction earlierPass]
            constructor
            · rintro ⟨earlier, first, others, rfl, size, begins, missing⟩
              exact ⟨earlier, first, others ++ [last], by simp, by simp [size], begins,
                List.forall_mem_append.2 ⟨missing, List.forall_mem_singleton.2 missed⟩⟩
            · rintro ⟨earlier, first, others, split, size, begins, missing⟩
              obtain ⟨rest, rfl, rfl⟩ :=
                concat_eq_append_cons split (List.ne_nil_of_length_eq_add_one size)
              exact ⟨earlier, first, rest, rfl, by simpa using size, begins,
                (List.forall_mem_append.1 missing).1⟩
          · rw [streak_of_dropped dropped]
            refine iff_of_false (by omega) ?_
            rintro ⟨earlier, first, others, split, size, begins, missing⟩
            obtain ⟨rest, rfl, -⟩ :=
              concat_eq_append_cons split (List.ne_nil_of_length_eq_add_one size)
            exact (missing last (by simp)).not_dropped dropped

theorem usedUp_iff (passing : ∀ ending ∈ endings, Missed ending ∨ Dropped ending) :
    UsedUp endings ↔ limit ≤ streak endings := by
  have counts : 4 < streak endings ↔ _ := lt_streak_iff passing
  simp only [UsedUp, limit, Nat.reduceEqDiff] at counts ⊢
  rw [← counts]
  omega

/-! ## The run of a client -/

/-- A client that has gone on so far reports what the endings to come make it report. -/
theorem reports_runFrom (goesOn : GoesOn UsedUp before) (rest : List Ending) :
    Reports UsedUp (before ++ rest) (runFrom (streak before) rest) := by
  induction rest generalizing before with
  | nil =>
      rw [List.append_nil]
      exact goesOn
  | cons ending rest induction =>
      cases ending with
      | ok => exact ⟨before, .ok (), rest, rfl, goesOn, .finished⟩
      | error failure =>
          by_cases final : failure.isRetryable = false
          · have judged : runFrom (streak before) (.error failure :: rest)
                = some (.error failure) := by
              simp [runFrom, judge, final]
            rw [judged]
            exact ⟨before, .error failure, rest, rfl, goesOn, .turnedAway final⟩
          · rw [Bool.not_eq_false] at final
            have passes := isRetryable_iff.1 final
            have passing : ∀ ending ∈ before ++ [.error failure],
                Missed ending ∨ Dropped ending :=
              List.forall_mem_append.2 ⟨goesOn.passing, List.forall_mem_singleton.2 passes⟩
            by_cases used : limit ≤ streak (before ++ [.error failure])
            · have judged : runFrom (streak before) (.error failure :: rest)
                  = some (.error (.retriesExhausted limit)) := by
                rw [streak_concat] at used
                simp [runFrom, judge, final, used]
              rw [judged]
              exact ⟨before, .error failure, rest, rfl, goesOn,
                .givenUp passes ((usedUp_iff passing).2 used)⟩
            · have judged : runFrom (streak before) (.error failure :: rest)
                  = runFrom (streak (before ++ [.error failure])) rest := by
                rw [streak_concat] at used ⊢
                simp [runFrom, judge, final, used]
              have goesOnLater : GoesOn UsedUp (before ++ [.error failure]) :=
                goesOn_concat_iff.2 ⟨goesOn, passes, mt (usedUp_iff passing).1 used⟩
              rw [judged, List.append_cons]
              exact induction goesOnLater

theorem goesOn_usedUp_nil : GoesOn UsedUp [] := by
  apply GoesOn.nil
  rintro ⟨earlier, first, others, split, -⟩
  simp at split

/-- A series in which no connection was lost is one of failed attempts only. -/
theorem usedUp_iff_onlyMissed (connected : ∀ ending ∈ endings, ¬Dropped ending) :
    UsedUp endings ↔ OnlyMissed endings := by
  constructor
  · rintro ⟨earlier, first, others, rfl, size, begins, missing⟩
    have missed : Missed first := begins.resolve_right (connected first (by simp))
    exact ⟨earlier, first :: others, rfl, size, List.forall_mem_cons.2 ⟨missed, missing⟩⟩
  · rintro ⟨earlier, series, rfl, size, missing⟩
    cases series with
    | nil => cases size
    | cons first others =>
        obtain ⟨missed, missing⟩ := List.forall_mem_cons.1 missing
        exact ⟨earlier, first, others, rfl, size, .inl missed, missing⟩

theorem Reports.congr {other : List Ending → Prop} {result : Option Ending}
    (same : ∀ earlier, earlier <+: endings → (spent earlier ↔ other earlier))
    (reports : Reports spent endings result) : Reports other endings result := by
  cases result with
  | none =>
      refine ⟨reports.passing, fun earlier begins => ?_⟩
      rw [← same earlier begins]
      exact reports.unspent earlier begins
  | some report =>
      obtain ⟨before, last, after, rfl, goesOn, stops⟩ := reports
      refine ⟨before, last, after, rfl, ⟨goesOn.passing, fun earlier begins => ?_⟩, ?_⟩
      · rw [← same earlier (begins.trans (List.prefix_append _ _))]
        exact goesOn.unspent earlier begins
      · cases stops with
        | finished => exact .finished
        | turnedAway final => exact .turnedAway final
        | givenUp passing used =>
            have begins : before ++ [last] <+: before ++ last :: after := ⟨after, by simp⟩
            exact .givenUp passing ((same _ begins).1 used)

theorem run_eq_iff {result : Option Ending} :
    run endings = result ↔ Reports UsedUp endings result := by
  have reports : Reports UsedUp endings (run endings) := reports_runFrom goesOn_usedUp_nil endings
  constructor
  · rintro rfl
    exact reports
  · exact reports.unique

/-- So many attempts in a row may fail as the series has left. -/
theorem goesOn_append_missed_iff {attempts : List Ending} (goesOn : GoesOn UsedUp before)
    (missing : ∀ ending ∈ attempts, Missed ending) :
    GoesOn UsedUp (before ++ attempts) ↔ streak before + attempts.length < limit := by
  induction attempts using List.reverseRecOn with
  | nil =>
      have unspent := mt (usedUp_iff goesOn.passing).2 (goesOn.unspent before List.prefix_rfl)
      simpa [goesOn] using unspent
  | append_singleton attempts last induction =>
      have missed := missing last (by simp)
      have missingBefore : ∀ ending ∈ attempts, Missed ending :=
        (List.forall_mem_append.1 missing).1
      have passing : ∀ ending ∈ before ++ attempts ++ [last],
          Missed ending ∨ Dropped ending := by
        rw [List.append_assoc]
        exact List.forall_mem_append.2
          ⟨goesOn.passing, fun ending member => .inl (missing ending member)⟩
      rw [← List.append_assoc, goesOn_concat_iff, induction missingBefore, usedUp_iff passing,
        streak_of_missed missed, streak_append_missed missingBefore]
      simp only [missed, true_or, true_and, List.length_append, List.length_singleton]
      omega

/-- Five attempts to connect are made at first. -/
theorem run_eq_none_iff {attempts : List Ending} (missing : ∀ ending ∈ attempts, Missed ending) :
    run attempts = none ↔ attempts.length < limit := by
  have goesOn_iff := goesOn_append_missed_iff goesOn_usedUp_nil missing
  apply run_eq_iff.trans
  simpa [streak, Reports] using goesOn_iff

/-- After a loss one attempt less is made. -/
theorem run_after_loss_eq_none_iff {loss : Ending} {attempts : List Ending}
    (goesOn : run before = none) (dropped : Dropped loss)
    (missing : ∀ ending ∈ attempts, Missed ending) :
    run (before ++ loss :: attempts) = none ↔ attempts.length + 1 < limit := by
  have goesOnBefore : GoesOn UsedUp before := run_eq_iff.1 goesOn
  have passing : ∀ ending ∈ before ++ [loss], Missed ending ∨ Dropped ending :=
    List.forall_mem_append.2
      ⟨goesOnBefore.passing, List.forall_mem_singleton.2 (.inr dropped)⟩
  have fresh : ¬UsedUp (before ++ [loss]) := by
    rw [usedUp_iff passing, streak_of_dropped dropped]
    decide
  have goesOnLoss : GoesOn UsedUp (before ++ [loss]) :=
    goesOn_concat_iff.2 ⟨goesOnBefore, .inr dropped, fresh⟩
  rw [run_eq_iff, List.append_cons]
  apply (goesOn_append_missed_iff goesOnLoss missing).trans
  rw [streak_of_dropped dropped, Nat.add_comm]

/-- The end of a client is what the first ending makes it report at which it stops, where a
series counts the loss that it follows; so without any loss five attempts have failed when
it gives up. -/
theorem a_series_counts_the_loss_before_it (endings : List Ending) (result : Option Ending) :
    (run endings = result ↔ Reports UsedUp endings result) ∧
      ((∀ ending ∈ endings, ¬Dropped ending) →
        (run endings = result ↔ Reports OnlyMissed endings result)) := by
  refine ⟨run_eq_iff, fun connected => ?_⟩
  have same : ∀ earlier, earlier <+: endings → (UsedUp earlier ↔ OnlyMissed earlier) := by
    intro earlier begins
    apply usedUp_iff_onlyMissed
    exact fun ending member => connected ending (begins.subset member)
  rw [run_eq_iff]
  constructor
  · exact Reports.congr same
  · exact Reports.congr fun earlier begins => (same earlier begins).symm

/-- Five attempts without an answer are the whole series of a client that never had a
connection. -/
theorem unanswered_attempts_are_a_series :
    run (List.replicate 5 (.error (.unreachable "refused"))) =
        some (.error (.retriesExhausted 5)) ∧
      Reports OnlyMissed (List.replicate 5 (.error (.unreachable "refused")))
        (some (.error (.retriesExhausted 5))) := by
  have ended : run (List.replicate 5 (.error (.unreachable "refused"))) =
      some (.error (.retriesExhausted 5)) := by decide
  have connected : ∀ ending ∈ List.replicate 5 (Except.error (Failure.unreachable "refused")),
      ¬Dropped ending := by
    intro ending member
    rw [List.eq_of_mem_replicate member]
    rintro ⟨⟩
  exact ⟨ended, ((a_series_counts_the_loss_before_it _ _).2 connected).1 ended⟩

/-- A loss and four failed attempts are not five failed attempts. -/
theorem not_onlyMissed_of_isPrefix {loss : Ending} {attempts earlier : List Ending}
    (dropped : Dropped loss) (size : attempts.length + 1 = limit)
    (begins : earlier <+: loss :: attempts) : ¬OnlyMissed earlier := by
  rintro ⟨front, series, rfl, sizeSeries, missing⟩
  have short := begins.length_le
  rw [List.length_append, sizeSeries, List.length_cons, size] at short
  obtain rfl : front = [] := List.eq_nil_of_length_eq_zero (by omega)
  have same : series = loss :: attempts :=
    begins.eq_of_length (by simp [sizeSeries, size])
  have missed : Missed loss := missing loss (by simp [same])
  exact missed.not_dropped dropped

/-- The fifth attempt after a loss would have brought a connection, but the client gives up
after four. -/
theorem four_attempts_follow_a_loss :
    run [.error (.lost "reset"), .error (.unreachable "refused"), .error (.unreachable "refused"),
        .error (.unreachable "refused"), .error (.unreachable "refused"), .ok ()] =
      some (.error (.retriesExhausted 5)) ∧
    ¬∀ endings result, run endings = result ↔ Reports OnlyMissed endings result := by
  have ended : run (.error (.lost "reset") :: List.replicate 4 (.error (.unreachable "refused"))
      ++ [.ok ()]) = some (.error (.retriesExhausted 5)) := by decide
  refine ⟨ended, fun law => ?_⟩
  have goesOn : GoesOn OnlyMissed
      (.error (.lost "reset") :: List.replicate 4 (.error (.unreachable "refused"))) := by
    refine ⟨fun ending member => ?_, fun earlier begins => ?_⟩
    · rcases List.mem_cons.1 member with rfl | member
      · exact .inr (.lost "reset")
      · rw [List.eq_of_mem_replicate member]
        exact .inl (.unreachable "refused")
    · exact not_onlyMissed_of_isPrefix (.lost "reset") rfl begins
  have claimed := (law _ (some (.ok ()))).2 ⟨_, .ok (), [], rfl, goesOn, .finished⟩
  rw [ended] at claimed
  cases claimed

end Retry
end Parley
