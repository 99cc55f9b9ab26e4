import Parley.Proofs.Backlog

/-!
# A backlog as the end of a longer line

A backlog over time: payloads are pushed and put back in front in any order, and now and
then all of them are taken.  Beside it stands a line without a limit, to which the same is
done.  The backlog holds the newest end of that line, as much as there is room for, and it
told of the loss of everything else.
-/

namespace Parley

/-- What is done to a backlog. -/
inductive BacklogAct
  | push (payload : Payload)
  | restoreFront (payloads : List Payload)
  | take
  deriving DecidableEq, Repr

/-- What a backlog tells about what is done to it. -/
inductive BacklogAnswer
  /-- Whether a payload was lost for the one that was pushed. -/
  | pushed (lost : Bool)
  /-- How many payloads were lost for those that were put back. -/
  | restored (lost : Nat)
  | taken (payloads : List Payload)
  deriving DecidableEq, Repr

namespace Backlog

/-- What an act makes of a backlog, and what is told about it. -/
def act (backlog : Backlog) : BacklogAct → BacklogAnswer × Backlog
  | .push payload => (backlog.push payload).map .pushed id
  | .restoreFront payloads => (backlog.restoreFront payloads).map .restored id
  | .take => backlog.take.map .taken id

/-- What several acts make of a backlog, and what is told about each. -/
def run (backlog : Backlog) : List BacklogAct → List BacklogAnswer × Backlog
  | [] => ([], backlog)
  | act :: acts =>
      let (answer, next) := backlog.act act
      let (answers, last) := next.run acts
      (answer :: answers, last)

/-- What an act makes of a line without a limit. -/
def lengthen (line : List Payload) : BacklogAct → List Payload
  | .push payload => line ++ [payload]
  | .restoreFront payloads => payloads ++ line
  | .take => []

/-- The line that is there after several acts. -/
def line (acts : List BacklogAct) : List Payload := acts.foldl lengthen []

/-- The losses since payloads were last taken, one answer later. -/
def addLosses (losses : Nat) : BacklogAnswer → Nat
  | .pushed lost => if lost then losses + 1 else losses
  | .restored lost => losses + lost
  | .taken _ => 0

/-- The losses that were told since payloads were last taken. -/
def losses (answers : List BacklogAnswer) : Nat := answers.foldl addLosses 0

/-! ## Runs -/

theorem run_cons (backlog : Backlog) (act : BacklogAct) (acts : List BacklogAct) :
    backlog.run (act :: acts) =
      ((backlog.act act).1 :: ((backlog.act act).2.run acts).1,
        ((backlog.act act).2.run acts).2) := rfl

theorem run_append (backlog : Backlog) (first second : List BacklogAct) :
    backlog.run (first ++ second) =
      ((backlog.run first).1 ++ ((backlog.run first).2.run second).1,
        ((backlog.run first).2.run second).2) := by
  induction first generalizing backlog with
  | nil => rfl
  | cons act acts induction =>
      rw [List.cons_append, run_cons, run_cons, induction]
      rfl

/-! ## The newest of a longer line -/

theorem length_newest (capacity : Nat) (payloads : List Payload) :
    (newest capacity payloads).length = min capacity payloads.length := by
  rw [newest, List.length_drop]
  omega

@[simp]
theorem newest_nil (capacity : Nat) : newest capacity [] = [] :=
  newest_of_length_le (Nat.zero_le _)

/-- Payloads in front displace none, whether the newest were kept before or not: where
some were lost there is no room for what comes back. -/
theorem newest_append_newest (capacity : Nat) (first second : List Payload) :
    newest capacity (first ++ newest capacity second) = newest capacity (first ++ second) := by
  by_cases fits : second.length ≤ capacity
  · rw [newest_of_length_le fits]
  · have full : capacity ≤ (newest capacity second).length := by
      rw [length_newest]
      omega
    have kept := newest_of_length_le (length_newest_le capacity second)
    rw [newest_append_of_le first full, kept, newest_append_of_le first (by omega)]

/-! ## What a backlog holds of a line -/

/-- A backlog that holds the newest end of a line and told of the other payloads. -/
structure EndOf (capacity : Nat) (line : List Payload) (losses : Nat) (backlog : Backlog) :
    Prop where
  capacity_eq : backlog.capacity = capacity
  held_eq : backlog.held = newest capacity line
  losses_add : losses + backlog.held.length = line.length

namespace EndOf

variable {capacity losses : Nat} {line : List Payload} {backlog : Backlog}

theorem new (capacity : Nat) : EndOf capacity [] 0 { capacity } where
  capacity_eq := rfl
  held_eq := (newest_nil capacity).symm
  losses_add := rfl

theorem fits (ends : EndOf capacity line losses backlog) : backlog.Fits := by
  unfold Fits
  rw [ends.held_eq, ends.capacity_eq]
  exact length_newest_le _ _

theorem push (ends : EndOf capacity line losses backlog) (payload : Payload) :
    EndOf capacity (line ++ [payload]) (addLosses losses (.pushed (backlog.push payload).1))
      (backlog.push payload).2 where
  capacity_eq := (capacity_push _ _).trans ends.capacity_eq
  held_eq := by
    rw [held_push ends.fits, ends.capacity_eq, ends.held_eq, newest_newest_append]
  losses_add := by
    have told : addLosses losses (.pushed (backlog.push payload).1) =
        losses + (backlog.push payload).1.toNat := by
      cases (backlog.push payload).1 <;> rfl
    have before := ends.losses_add
    have size : (backlog.held ++ [payload]).length = backlog.held.length + 1 :=
      List.length_append
    rw [told, toNat_fst_push ends.fits, held_push ends.fits, length_newest, size,
      List.length_append, List.length_singleton]
    omega

theorem restoreFront (ends : EndOf capacity line losses backlog) (payloads : List Payload) :
    EndOf capacity (payloads ++ line)
      (addLosses losses (.restored (backlog.restoreFront payloads).1))
      (backlog.restoreFront payloads).2 where
  capacity_eq := ends.capacity_eq
  held_eq := by
    rw [held_restoreFront, ends.capacity_eq, ends.held_eq, newest_append_newest]
  losses_add := by
    have before := ends.losses_add
    have told : (backlog.restoreFront payloads).1 =
        (payloads ++ backlog.held).length - backlog.capacity := rfl
    rw [addLosses, told, held_restoreFront, length_newest, List.length_append,
      List.length_append]
    omega

/-- Each act leaves a backlog that holds the newest end of the line. -/
theorem act (ends : EndOf capacity line losses backlog) (act : BacklogAct) :
    EndOf capacity (lengthen line act) (addLosses losses (backlog.act act).1)
      (backlog.act act).2 := by
  cases act with
  | push payload => exact ends.push payload
  | restoreFront payloads => exact ends.restoreFront payloads
  | take => exact ⟨ends.capacity_eq, (newest_nil capacity).symm, rfl⟩

theorem run (ends : EndOf capacity line losses backlog) (acts : List BacklogAct) :
    EndOf capacity (acts.foldl lengthen line) ((backlog.run acts).1.foldl addLosses losses)
      (backlog.run acts).2 := by
  induction acts generalizing line losses backlog with
  | nil => exact ends
  | cons act acts induction => exact induction (ends.act act)

end EndOf

/-- After any acts a backlog holds the newest end of the line that would be there without a
limit, and as much of it as there is room for.  The losses that it told of are all that is
missing.  Taking gives what is held, and what is done later goes as with a new backlog. -/
theorem backlogs_hold_the_newest_end (capacity : Nat) (acts : List BacklogAct) :
    let answers := (run { capacity } acts).1
    let backlog := (run { capacity } acts).2
    backlog.held <:+ line acts ∧
      backlog.held.length = min capacity (line acts).length ∧
      losses answers = (line acts).length - backlog.held.length ∧
      ∀ later, run { capacity } (acts ++ .take :: later) =
        (answers ++ .taken backlog.held :: (run { capacity } later).1,
          (run { capacity } later).2) := by
  intro answers backlog
  have ends : EndOf capacity (line acts) (losses answers) backlog := (EndOf.new capacity).run acts
  refine ⟨?_, ?_, ?_, fun later => ?_⟩
  · rw [ends.held_eq]
    exact List.drop_suffix _ _
  · rw [ends.held_eq, length_newest]
  · have all := ends.losses_add
    omega
  · have emptied : backlog.take.2 = { capacity } := by
      rw [take, ends.capacity_eq]
    have taken : backlog.act .take = (.taken backlog.held, { capacity }) :=
      congrArg (Prod.mk _) emptied
    rw [run_append, run_cons, taken]

end Backlog
end Parley
