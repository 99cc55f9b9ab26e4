import Parley.Proofs.Outbox
import Parley.Transport.Writer

/-!
# What a writer owes

Between an outbox and its socket a payload is in the outbox, in the write that is
going on, or among what the writer hands back.  Whatever a writer does, payloads
keep their order, and only a write that ends well takes any away.
-/

namespace Parley
namespace Writer

/-- The payloads that a writer has taken and not written: those of its write, be it still to
begin or going on, or what it hands back. -/
def pending (writer : Writer) : List Payload :=
  match writer.phase with
  | .waiting => []
  | .gathering payloads => payloads
  | .writing cargo _ => cargo.payloads
  | .draining _ payloads => payloads
  | .ended outcome => outcome.undelivered

/-- The payloads of the current write. -/
def current (writer : Writer) : List Payload := writer.cargo?.elim [] Cargo.payloads

theorem outcome?_eq_some_iff {writer : Writer} {outcome : WriteEnd} :
    writer.outcome? = some outcome ↔ writer.phase = .ended outcome := by
  unfold outcome?
  cases writer.phase <;> simp

/-- A writer fits its outbox: until it gives up the outbox is open, and at its end the
outbox is closed and empty.  It parts from its peer with a close only when nobody will
add to an outbox that is empty. -/
def Serves (writer : Writer) (box : Outbox) : Prop :=
  match writer.phase with
  | .waiting | .gathering _ => box.isOpen = true
  | .writing cargo _ => box.isOpen = true ∧ (cargo = .close → box.released = true ∧ box.held = [])
  | .draining _ _ => True
  | .ended outcome =>
      box.isOpen = false ∧ box.held = [] ∧ (outcome = .queueClosed → box.released = true)

/-- A writer whose outbox the hub has not let go of: until it gives up the outbox is
open, and at its end the outbox is closed and empty. -/
def Attends (writer : Writer) (box : Outbox) : Prop :=
  match writer.phase with
  | .waiting | .gathering _ => box.isOpen = true
  | .writing cargo _ => cargo ≠ .close ∧ box.isOpen = true
  | .draining _ _ => True
  | .ended outcome => outcome ≠ .queueClosed ∧ box.isOpen = false ∧ box.held = []

theorem Attends.serves {writer : Writer} {box : Outbox} (attends : writer.Attends box) :
    writer.Serves box := by
  unfold Attends Serves at *
  cases phase : writer.phase with
  | writing cargo deadline =>
      simp only [phase] at attends
      exact ⟨attends.2, fun closing => absurd closing attends.1⟩
  | ended outcome =>
      simp only [phase] at attends
      exact ⟨attends.2.1, attends.2.2, fun closed => absurd closed attends.1⟩
  | waiting | gathering => simpa only [phase] using attends
  | draining => trivial

/-- A writer whose outbox the hub has not let go of does not part with a close. -/
theorem Serves.attends {writer : Writer} {box : Outbox} (serves : writer.Serves box)
    (linked : box.released = false) : writer.Attends box := by
  have unreleased : ¬box.released = true := by simp [linked]
  unfold Attends Serves at *
  cases phase : writer.phase with
  | writing cargo deadline =>
      simp only [phase] at serves
      exact ⟨fun closing => unreleased (serves.2 closing).1, serves.1⟩
  | ended outcome =>
      simp only [phase] at serves
      exact ⟨fun closed => unreleased (serves.2.2 closed), serves.1, serves.2.1⟩
  | waiting | gathering => simpa only [phase] using serves
  | draining => trivial

/-- What the hub does to an outbox suits its writer. -/
theorem Serves.fed {writer : Writer} {box later : Outbox} (serves : writer.Serves box)
    (fed : box.Fed later) : writer.Serves later := by
  have sameOpen := fed.isOpen
  unfold Serves at *
  rw [sameOpen]
  cases phase : writer.phase with
  | writing cargo deadline =>
      simp only [phase] at serves
      refine ⟨serves.1, fun closing => ?_⟩
      obtain ⟨released, empty⟩ := serves.2 closing
      exact ⟨fed.released released, (fed.unreleased released).trans empty⟩
  | ended outcome =>
      simp only [phase] at serves
      obtain ⟨closed, empty, released⟩ := serves
      exact ⟨closed, (fed.refused closed).trans empty, fed.released ∘ released⟩
  | waiting | gathering => simpa only [phase] using serves
  | draining => trivial

/-- What each choice of a waiting writer depends on. -/
theorem choose_spec (writer : Writer) (now : Moment) (box : Outbox) :
    match writer.choose now box with
    | .stop => writer.stopping = true
    | .batch => box.held ≠ []
    | .close => box.released = true ∧ box.held = []
    | .ping => Moment.roundUp writer.nextPing ≤ now
    | .wait => now < Moment.roundUp writer.nextPing := by
  unfold choose
  by_cases stopping : writer.stopping = true
  · rw [if_pos stopping]
    exact stopping
  · rw [if_neg stopping]
    by_cases empty : box.held = []
    · rw [if_neg (by simp [empty])]
      by_cases released : box.released = true
      · rw [if_pos released]
        exact ⟨released, empty⟩
      · rw [if_neg released]
        by_cases due : Moment.roundUp writer.nextPing ≤ now
        · rw [if_pos due]
          exact due
        · rw [if_neg due]
          exact Nat.lt_of_not_le due
    · rw [if_pos (by simp [empty])]
      exact empty

/-! ## Turns -/

/-- What a turn can do, and what it depends on. -/
inductive Turns (settings : Settings) (now : Moment) (writer : Writer) (box : Outbox) :
    Writer → Outbox → Prop
  | rest : Turns settings now writer box writer box
  | giveUp (waiting : writer.phase = .waiting) (told : writer.stopping = true) :
      Turns settings now writer box (writer.giveUp .stopped []) box
  | take {first : Payload} {rest : List Payload}
      (taking : writer.phase = .waiting ∨ ∃ payloads, writer.phase = .gathering payloads)
      (held : box.held = first :: rest) :
      Turns settings now writer box
        { writer with phase := .gathering (writer.pending ++ [first]) } { box with held := rest }
  | write {payloads : List Payload} (gathers : writer.phase = .gathering payloads)
      (empty : box.held = []) :
      Turns settings now writer box (writer.begin settings now (.batch payloads)) box
  | close (waiting : writer.phase = .waiting) (released : box.released = true)
      (empty : box.held = []) :
      Turns settings now writer box (writer.begin settings now .close) box
  | ping (waiting : writer.phase = .waiting) (due : Moment.roundUp writer.nextPing ≤ now) :
      Turns settings now writer box
        ({ writer with nextPing := pingAfter settings writer.nextPing now }.begin settings now
          .ping) box
  | refuse {cause : GiveUp} {payloads : List Payload}
      (drains : writer.phase = .draining cause payloads) (listening : box.isOpen = true) :
      Turns settings now writer box writer box.refuse
  | drain {cause : GiveUp} {payloads : List Payload} {first : Payload} {rest : List Payload}
      (drains : writer.phase = .draining cause payloads) (shut : box.isOpen = false)
      (held : box.held = first :: rest) :
      Turns settings now writer box (writer.giveUp cause (payloads ++ [first]))
        { box with held := rest }
  | finish {cause : GiveUp} {payloads : List Payload}
      (drains : writer.phase = .draining cause payloads) (shut : box.isOpen = false)
      (empty : box.held = []) :
      Turns settings now writer box (writer.finish box (cause.outcome payloads)).1 box.abandon

theorem turns_turn (writer : Writer) (settings : Settings) (now : Moment) (box : Outbox) :
    writer.Turns settings now box (writer.turn settings now box).1
      (writer.turn settings now box).2 := by
  unfold turn
  cases phase : writer.phase with
  | writing cargo deadline => exact .rest
  | ended outcome => exact .rest
  | gathering payloads =>
      unfold gather
      dsimp only
      split
      · rename_i first rest held
        have pending : payloads = writer.pending := by simp [pending, phase]
        rw [pending]
        exact .take (.inr ⟨payloads, phase⟩) held
      · rename_i empty
        exact .write phase empty
  | draining cause payloads =>
      unfold drain
      dsimp only
      split
      · rename_i listening
        exact .refuse phase listening
      · rename_i shut
        rw [Bool.not_eq_true] at shut
        split
        · rename_i first rest held
          exact .drain phase shut held
        · rename_i empty
          exact .finish phase shut empty
  | waiting =>
      have reasons := writer.choose_spec now box
      cases chosen : writer.choose now box with
      | stop => exact .giveUp phase (by simpa only [chosen] using reasons)
      | batch =>
          simp only [chosen] at reasons
          unfold gather
          dsimp only
          split
          · rename_i first rest held
            have pending : [first] = writer.pending ++ [first] := by simp [pending, phase]
            rw [List.nil_append, pending]
            exact .take (.inl phase) held
          · rename_i empty
            exact absurd empty reasons
      | close =>
          simp only [chosen] at reasons
          exact .close phase reasons.1 reasons.2
      | ping => exact .ping phase (by simpa only [chosen] using reasons)
      | wait => exact .rest

/-- A writer that was not told to stop, and has not given up for that reason. -/
def Unstopped (writer : Writer) : Prop :=
  writer.stopping = false ∧ (∀ payloads, writer.phase ≠ .draining .stopped payloads) ∧
    ∀ payloads, writer.phase ≠ .ended (.stopped payloads)

namespace Turns

variable {settings : Settings} {now : Moment} {writer later : Writer} {box laterBox : Outbox}

/-- A turn moves payloads without losing any. -/
theorem pending_append (turns : writer.Turns settings now box later laterBox) :
    later.pending ++ laterBox.held = writer.pending ++ box.held := by
  cases turns with
  | rest => rfl
  | giveUp waiting => simp [pending, waiting, Writer.giveUp]
  | take taking held => simp [pending, held]
  | write gathers empty => simp [pending, gathers, begin, Cargo.payloads]
  | close waiting released empty => simp [pending, waiting, begin, Cargo.payloads]
  | ping waiting due => simp [pending, waiting, begin, Cargo.payloads]
  | refuse drains listening => rfl
  | drain drains shut held => simp [pending, drains, Writer.giveUp, held]
  | @finish cause payloads drains shut empty =>
      have handed : (cause.outcome payloads).undelivered = payloads := by cases cause <;> rfl
      simp [pending, drains, Writer.finish, handed, empty, Outbox.abandon]

theorem serves (turns : writer.Turns settings now box later laterBox)
    (serves : writer.Serves box) : later.Serves laterBox := by
  cases turns with
  | rest => exact serves
  | giveUp waiting => trivial
  | take taking held =>
      have listening : box.isOpen = true := by
        unfold Serves at serves
        rcases taking with phase | ⟨_, phase⟩ <;> simpa only [phase] using serves
      exact listening
  | write gathers empty =>
      simp only [Serves, gathers] at serves
      exact ⟨serves, nofun⟩
  | close waiting released empty =>
      simp only [Serves, waiting] at serves
      exact ⟨serves, fun _ => ⟨released, empty⟩⟩
  | ping waiting due =>
      simp only [Serves, waiting] at serves
      exact ⟨serves, nofun⟩
  | refuse drains listening => simp only [Serves, drains]
  | drain drains shut held => trivial
  | @finish cause payloads drains shut empty =>
      have lost : cause.outcome payloads ≠ .queueClosed := by cases cause <;> exact nofun
      exact ⟨rfl, rfl, fun closed => absurd closed lost⟩

theorem released_eq (turns : writer.Turns settings now box later laterBox) :
    laterBox.released = box.released := by
  cases turns <;> rfl

/-- A turn takes payloads from the front only. -/
theorem held_isSuffix (turns : writer.Turns settings now box later laterBox) :
    laterBox.held <:+ box.held := by
  cases turns with
  | take taking held => exact held ▸ List.suffix_cons _ _
  | drain drains shut held => exact held ▸ List.suffix_cons _ _
  | finish drains shut empty => exact List.nil_suffix
  | _ => exact List.suffix_rfl

theorem isOpen (turns : writer.Turns settings now box later laterBox)
    (listening : laterBox.isOpen = true) : box.isOpen = true := by
  cases turns with
  | refuse drains open? => exact open?
  | finish drains shut empty => cases listening
  | _ => exact listening

/-- A writer that was not told to stop gives up for other reasons. -/
theorem unstopped (turns : writer.Turns settings now box later laterBox)
    (unstopped : writer.Unstopped) : later.Unstopped := by
  obtain ⟨untold, drainsOn, endsOn⟩ := unstopped
  have failed {cause : GiveUp} {payloads : List Payload}
      (drains : writer.phase = .draining cause payloads) : cause = .failed := by
    cases cause with
    | stopped => exact absurd drains (drainsOn payloads)
    | failed => rfl
  cases turns with
  | rest | refuse => exact ⟨untold, drainsOn, endsOn⟩
  | giveUp waiting told =>
      rw [untold] at told
      cases told
  | take | write | close | ping => exact ⟨untold, nofun, nofun⟩
  | drain drains =>
      obtain rfl := failed drains
      exact ⟨untold, nofun, nofun⟩
  | finish drains =>
      obtain rfl := failed drains
      exact ⟨untold, nofun, nofun⟩

end Turns

/-! ## The end of a write -/

/-- A write that fails is handed back in front of what is left. -/
theorem pending_failed {writer : Writer} {box : Outbox} (serves : writer.Serves box) :
    (writer.failed box).1.pending ++ (writer.failed box).2.held = writer.pending ++ box.held := by
  unfold failed Serves at *
  cases phase : writer.phase with
  | writing cargo deadline =>
      simp only [phase] at serves
      cases cargo with
      | close =>
          simp [pending, phase, finish, WriteEnd.undelivered, Cargo.payloads, Outbox.abandon,
            (serves.2 rfl).2]
      | ping | batch => simp [pending, phase, giveUp]
  | _ => rfl

theorem Serves.failed {writer : Writer} {box : Outbox} (serves : writer.Serves box) :
    (writer.failed box).1.Serves (writer.failed box).2 := by
  unfold Writer.failed
  cases phase : writer.phase with
  | writing cargo deadline =>
      simp only [Serves, phase] at serves
      cases cargo with
      | close => exact ⟨rfl, rfl, fun _ => (serves.2 rfl).1⟩
      | ping | batch => trivial
  | _ => exact serves

/-- A write that ends well takes away its own payloads and no others. -/
theorem pending_written {writer : Writer} {box : Outbox} (serves : writer.Serves box) :
    writer.current ++ ((writer.written box).1.pending ++ (writer.written box).2.held) =
      writer.pending ++ box.held := by
  unfold written current cargo? Serves at *
  cases phase : writer.phase with
  | writing cargo deadline =>
      simp only [phase] at serves
      cases cargo with
      | close =>
          simp [pending, phase, finish, WriteEnd.undelivered, Cargo.payloads, Outbox.abandon,
            (serves.2 rfl).2]
      | ping | batch => simp [pending, phase, Cargo.payloads]
  | _ => rfl

theorem Serves.written {writer : Writer} {box : Outbox} (serves : writer.Serves box) :
    (writer.written box).1.Serves (writer.written box).2 := by
  unfold Writer.written
  cases phase : writer.phase with
  | writing cargo deadline =>
      simp only [Serves, phase] at serves
      cases cargo with
      | close => exact ⟨rfl, rfl, fun _ => (serves.2 rfl).1⟩
      | ping | batch => exact serves.1
  | _ => exact serves

/-! ## Steps of a writer -/

/-- What a writer can do: the writer and its outbox afterwards, and the payloads that
it carries to the peer. -/
inductive Works (settings : Settings) (now : Moment) (writer : Writer) (box : Outbox) :
    Writer → Outbox → List Payload → Prop
  | turn : Works settings now writer box (writer.turn settings now box).1
      (writer.turn settings now box).2 []
  | write : Works settings now writer box (writer.written box).1 (writer.written box).2
      writer.current
  | fail : Works settings now writer box (writer.failed box).1 (writer.failed box).2 []

namespace Works

variable {settings : Settings} {now : Moment} {writer later : Writer} {box laterBox : Outbox}
  {carried : List Payload}

/-- Payloads keep their order, and what leaves is carried to the peer. -/
theorem carried_append (works : writer.Works settings now box later laterBox carried)
    (serves : writer.Serves box) :
    carried ++ (later.pending ++ laterBox.held) = writer.pending ++ box.held := by
  cases works with
  | turn => exact (writer.turns_turn settings now box).pending_append
  | write => exact pending_written serves
  | fail => exact pending_failed serves

theorem serves (works : writer.Works settings now box later laterBox carried)
    (serves : writer.Serves box) : later.Serves laterBox := by
  cases works with
  | turn => exact (writer.turns_turn settings now box).serves serves
  | write => exact serves.written
  | fail => exact serves.failed

/-- A writer never lets go of its outbox. -/
theorem released_eq (works : writer.Works settings now box later laterBox carried) :
    laterBox.released = box.released := by
  cases works with
  | turn => exact (writer.turns_turn settings now box).released_eq
  | write =>
      unfold written
      split <;> rfl
  | fail =>
      unfold failed
      split <;> rfl

/-- A writer takes payloads from the front of its outbox, and adds nothing. -/
theorem held_isSuffix (works : writer.Works settings now box later laterBox carried) :
    laterBox.held <:+ box.held := by
  cases works with
  | turn => exact (writer.turns_turn settings now box).held_isSuffix
  | write =>
      unfold written
      split
      · exact List.nil_suffix
      · exact List.suffix_rfl
      · exact List.suffix_rfl
  | fail =>
      unfold failed
      split
      · exact List.nil_suffix
      · exact List.suffix_rfl
      · exact List.suffix_rfl

/-- A writer that was not told to stop ends for other reasons. -/
theorem unstopped (works : writer.Works settings now box later laterBox carried)
    (unstopped : writer.Unstopped) : later.Unstopped := by
  obtain ⟨untold, drainsOn, endsOn⟩ := unstopped
  cases works with
  | turn => exact (writer.turns_turn settings now box).unstopped ⟨untold, drainsOn, endsOn⟩
  | write =>
      unfold written
      split
      · exact ⟨untold, nofun, nofun⟩
      · exact ⟨untold, nofun, nofun⟩
      · exact ⟨untold, drainsOn, endsOn⟩
  | fail =>
      unfold failed
      split
      · exact ⟨untold, nofun, nofun⟩
      · exact ⟨untold, nofun, nofun⟩
      · exact ⟨untold, drainsOn, endsOn⟩

/-- A writer goes on attending an outbox that the hub has not let go of. -/
theorem attends (works : writer.Works settings now box later laterBox carried)
    (attends : writer.Attends box) (linked : box.released = false) : later.Attends laterBox :=
  (works.serves attends.serves).attends (works.released_eq.trans linked)

/-- A writer never opens its outbox. -/
theorem isOpen (works : writer.Works settings now box later laterBox carried)
    (listening : laterBox.isOpen = true) : box.isOpen = true := by
  cases works with
  | turn => exact (writer.turns_turn settings now box).isOpen listening
  | write =>
      unfold written at listening
      split at listening
      · cases listening
      · exact listening
      · exact listening
  | fail =>
      unfold failed at listening
      split at listening
      · cases listening
      · exact listening
      · exact listening

end Works
end Writer
end Parley
