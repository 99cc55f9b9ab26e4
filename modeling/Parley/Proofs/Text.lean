import Mathlib.Tactic.Tauto
import Parley.Text.Blank
import Parley.Text.Cut

/-!
# More about text

Beginnings, line ends and blanks: what each way of taking text apart leaves, and
when it leaves the text as it is.
-/

namespace Parley
namespace Text

/-- No character of the text ends a line. -/
def OneLine (text : List Char) : Prop := '\r' ∉ text ∧ '\n' ∉ text

/-- The first character, if there is one, is not blank. -/
def StartsVisibly (text : List Char) : Prop := ∀ c ∈ text.head?, isBlank c = false

/-- The last character, if there is one, is not blank. -/
def EndsVisibly (text : List Char) : Prop := ∀ c ∈ text.getLast?, isBlank c = false

instance (text : List Char) : Decidable (OneLine text) :=
  inferInstanceAs (Decidable ('\r' ∉ text ∧ '\n' ∉ text))

instance (text : List Char) : Decidable (StartsVisibly text) :=
  decidable_of_iff (text.head?.all fun c => !isBlank c)
    (by simp [StartsVisibly, Option.all_eq_true])

instance (text : List Char) : Decidable (EndsVisibly text) :=
  decidable_of_iff (text.getLast?.all fun c => !isBlank c)
    (by simp [EndsVisibly, Option.all_eq_true])

/-- Text that is not empty and has no blanks. -/
structure IsWord (text : List Char) : Prop where
  nonempty : text ≠ []
  visible : ∀ c ∈ text, isBlank c = false

/-! ## Beginnings -/

/-- Text is cut behind a beginning exactly when it has it. -/
theorem isPrefixOf?_eq_some_iff {start text rest : List Char} :
    start.isPrefixOf? text = some rest ↔ text = start ++ rest := by
  induction start generalizing text with
  | nil =>
      have nothing : List.isPrefixOf? [] text = some text := rfl
      rw [nothing, Option.some_inj, List.nil_append]
  | cons c start induction =>
      cases text with
      | nil =>
          have ended : (c :: start).isPrefixOf? [] = none := rfl
          simp [ended]
      | cons d text =>
          have compared : (c :: start).isPrefixOf? (d :: text) =
              if c == d then start.isPrefixOf? text else none := rfl
          rw [compared]
          by_cases same : c = d
          · simp [same, induction]
          · simp [same, Ne.symm same]

/-- Text in front of the first mark is what a cut there leaves of it. -/
theorem cut?_append_cons {α : Type} [DecidableEq α] {mark : α} {before : List α}
    (absent : mark ∉ before) (after : List α) :
    cut? mark (before ++ mark :: after) = some (before, after) := by
  induction before with
  | nil => simp [cut?]
  | cons c rest induction =>
      rw [List.mem_cons, not_or] at absent
      have different : ¬c = mark := fun equal => absent.1 equal.symm
      simp [cut?, different, induction absent.2]

/-! ## One line -/

@[simp] theorem oneLine_cons {c : Char} {rest : List Char} :
    OneLine (c :: rest) ↔ (c ≠ '\r' ∧ c ≠ '\n') ∧ OneLine rest := by
  simp only [OneLine, List.mem_cons, not_or, ne_eq, eq_comm (a := c)]
  tauto

@[simp] theorem oneLine_append {left right : List Char} :
    OneLine (left ++ right) ↔ OneLine left ∧ OneLine right := by
  simp only [OneLine, List.mem_append, not_or]
  tauto

/-! ## Leading blanks -/

/-- Only blanks are dropped at the front. -/
theorem exists_blanks_trimStart (text : List Char) :
    ∃ blanks, allBlank blanks = true ∧ text = blanks ++ trimStart text :=
  ⟨text.takeWhile isBlank, List.all_takeWhile, List.takeWhile_append_dropWhile.symm⟩

/-- What is left of text without its leading blanks begins visibly. -/
theorem startsVisibly_trimStart (text : List Char) : StartsVisibly (trimStart text) := by
  intro c first
  have visible := List.head?_dropWhile_not isBlank text
  rw [trimStart, Option.mem_def] at first
  rw [first] at visible
  exact visible

/-- Text that begins visibly has no leading blanks to drop. -/
theorem trimStart_eq_self {text : List Char} (visible : StartsVisibly text) :
    trimStart text = text := by
  cases text with
  | nil => rfl
  | cons c rest => simp [trimStart, visible c rfl]

/-- Blanks put in front of text are dropped with its own. -/
theorem trimStart_append {blanks : List Char} (blank : allBlank blanks = true)
    (text : List Char) : trimStart (blanks ++ text) = trimStart text :=
  List.dropWhile_append_of_pos (List.all_eq_true.1 blank)

/-- A visible beginning of some text is also the beginning of all its own
beginnings. -/
theorem StartsVisibly.of_isPrefix {start text : List Char} (visible : StartsVisibly text)
    (begins : start <+: text) : StartsVisibly start := by
  intro c first
  obtain ⟨rest, rfl⟩ := begins
  exact visible c (by simp [Option.mem_def.1 first])

/-- How text begins is decided by the first part of it that is not empty. -/
theorem StartsVisibly.append {left : List Char} (visible : StartsVisibly left)
    (nonempty : left ≠ []) (right : List Char) : StartsVisibly (left ++ right) := by
  intro c first
  rw [List.head?_append, List.head?_eq_some_head nonempty, Option.some_or,
    ← List.head?_eq_some_head nonempty] at first
  exact visible c first

/-! ## Trailing blanks -/

/-- The end of text is the beginning of its reverse. -/
theorem endsVisibly_iff_reverse {text : List Char} :
    EndsVisibly text ↔ StartsVisibly text.reverse := by
  rw [EndsVisibly, StartsVisibly, List.head?_reverse]

/-- What is left of text without its trailing blanks ends visibly. -/
theorem endsVisibly_trimEnd (text : List Char) : EndsVisibly (trimEnd text) := by
  rw [endsVisibly_iff_reverse, trimEnd, List.reverse_reverse]
  exact startsVisibly_trimStart text.reverse

/-- Text that ends visibly has no trailing blanks to drop. -/
theorem trimEnd_eq_self {text : List Char} (visible : EndsVisibly text) :
    trimEnd text = text := by
  have kept : text.reverse.dropWhile isBlank = text.reverse :=
    trimStart_eq_self (endsVisibly_iff_reverse.1 visible)
  rw [trimEnd, kept, List.reverse_reverse]

/-- What is left of text without its trailing blanks is a beginning of it. -/
theorem trimEnd_isPrefix (text : List Char) : trimEnd text <+: text := by
  rw [trimEnd, ← List.reverse_suffix, List.reverse_reverse]
  exact List.dropWhile_suffix isBlank

/-- Only blanks are dropped at the end. -/
theorem exists_blanks_trimEnd (text : List Char) :
    ∃ blanks, allBlank blanks = true ∧ text = trimEnd text ++ blanks := by
  obtain ⟨blanks, blank, split⟩ := exists_blanks_trimStart text.reverse
  refine ⟨blanks.reverse, by simpa [allBlank] using blank, ?_⟩
  rw [trimEnd, ← List.reverse_append]
  exact List.reverse_eq_iff.1 split

/-- Blanks put behind text are dropped with its own. -/
theorem trimEnd_append {blanks : List Char} (blank : allBlank blanks = true)
    (text : List Char) : trimEnd (text ++ blanks) = trimEnd text := by
  have behind : allBlank blanks.reverse = true := by simpa [allBlank] using blank
  have dropped := trimStart_append behind text.reverse
  rw [trimEnd, List.reverse_append, trimEnd]
  exact congrArg List.reverse dropped

/-- How text ends is decided by the last part of it that is not empty. -/
theorem endsVisibly_append {left right : List Char} (nonempty : right ≠ []) :
    EndsVisibly (left ++ right) ↔ EndsVisibly right := by
  rw [EndsVisibly, EndsVisibly, List.getLast?_append,
    List.getLast?_eq_some_getLast nonempty, Option.some_or]

/-- Text that ends visibly is not all blank. -/
theorem EndsVisibly.not_allBlank {text : List Char} (ends : EndsVisibly text)
    (nonempty : text ≠ []) : allBlank text = false := by
  have last := ends _ (List.getLast?_eq_some_getLast nonempty)
  rw [allBlank, List.all_eq_false]
  exact ⟨text.getLast nonempty, List.getLast_mem nonempty, by simp [last]⟩

/-! ## Both ends -/

/-- Trimmed text begins visibly. -/
theorem startsVisibly_trim (text : List Char) : StartsVisibly (trim text) :=
  (startsVisibly_trimStart text).of_isPrefix (trimEnd_isPrefix _)

/-- Trimmed text ends visibly. -/
theorem endsVisibly_trim (text : List Char) : EndsVisibly (trim text) :=
  endsVisibly_trimEnd _

/-- Text that is visible at both ends has nothing to trim. -/
theorem trim_eq_self {text : List Char} (starts : StartsVisibly text)
    (ends : EndsVisibly text) : trim text = text := by
  rw [trim, trimStart_eq_self starts, trimEnd_eq_self ends]

/-- Text that ends visibly loses only leading blanks. -/
theorem trim_eq_trimStart {text : List Char} (ends : EndsVisibly text) :
    trim text = trimStart text := by
  obtain ⟨blanks, -, split⟩ := exists_blanks_trimStart text
  by_cases nothing : trimStart text = []
  · rw [trim, nothing]
    rfl
  · rw [split, endsVisibly_append nothing] at ends
    exact trimEnd_eq_self ends

/-- Trimmed text is what stands visibly between blanks. -/
theorem trim_eq_iff {text core : List Char} :
    trim text = core ↔ StartsVisibly core ∧ EndsVisibly core ∧
      ∃ before after, allBlank before = true ∧ allBlank after = true ∧
        text = before ++ core ++ after := by
  constructor
  · rintro rfl
    obtain ⟨before, blankBefore, split⟩ := exists_blanks_trimStart text
    obtain ⟨after, blankAfter, splitLater⟩ := exists_blanks_trimEnd (trimStart text)
    refine ⟨startsVisibly_trim text, endsVisibly_trim text, before, after, blankBefore,
      blankAfter, ?_⟩
    rw [trim, List.append_assoc, ← splitLater, ← split]
  · rintro ⟨starts, ends, before, after, blankBefore, blankAfter, rfl⟩
    rw [trim, List.append_assoc, trimStart_append blankBefore]
    by_cases nothing : core = []
    · have dropped : trimStart after = [] := by
        rw [← List.append_nil after, trimStart_append blankAfter]
        rfl
      rw [nothing, List.nil_append, dropped]
      rfl
    · rw [trimStart_eq_self (starts.append nothing after), trimEnd_append blankAfter,
        trimEnd_eq_self ends]

/-- Trimming the end first makes no difference. -/
theorem trim_trimEnd (text : List Char) : trim (trimEnd text) = trim text := by
  obtain ⟨blanks, blank, split⟩ := exists_blanks_trimEnd text
  obtain ⟨starts, ends, before, after, blankBefore, blankAfter, inner⟩ :=
    trim_eq_iff.1 (rfl : trim (trimEnd text) = _)
  refine (trim_eq_iff.2 ⟨starts, ends, before, after ++ blanks, blankBefore, ?_, ?_⟩).symm
  · rw [allBlank, List.all_append, Bool.and_eq_true]
    exact ⟨blankAfter, blank⟩
  · rw [← List.append_assoc, ← inner, ← split]

/-- Behind a visible beginning nothing but trailing blanks is dropped. -/
theorem trim_append {start text : List Char} (starts : StartsVisibly start)
    (nonempty : start ≠ []) (said : trim text ≠ []) :
    trim (start ++ text) = start ++ trimEnd text := by
  obtain ⟨blanks, blank, split⟩ := exists_blanks_trimEnd text
  have visible : trimEnd text ≠ [] := by
    intro nothing
    rw [← trim_trimEnd, nothing] at said
    exact said rfl
  refine trim_eq_iff.2 ⟨starts.append nonempty _,
    (endsVisibly_append visible).2 (endsVisibly_trimEnd text), [], blanks, rfl, blank, ?_⟩
  rw [List.nil_append, List.append_assoc, ← split]

/-- Trimming takes no character that was not there. -/
theorem trim_subset (text : List Char) : trim text ⊆ text := by
  intro c member
  obtain ⟨blanks, -, split⟩ := exists_blanks_trimStart text
  rw [split]
  exact List.mem_append_right _ ((trimEnd_isPrefix _).subset member)

/-- Trimming leaves text on one line there. -/
theorem OneLine.trim {text : List Char} (oneLine : OneLine text) : OneLine (trim text) :=
  ⟨fun member => oneLine.1 (trim_subset text member),
    fun member => oneLine.2 (trim_subset text member)⟩

/-! ## Words -/

theorem IsWord.startsVisibly {text : List Char} (word : IsWord text) : StartsVisibly text :=
  fun c first => word.visible c (List.mem_of_head? first)

theorem IsWord.endsVisibly {text : List Char} (word : IsWord text) : EndsVisibly text :=
  fun c last => word.visible c (List.mem_of_getLast? last)

/-- No word has a space in it. -/
theorem IsWord.unspaced {text : List Char} (word : IsWord text) : ' ' ∉ text :=
  fun member => absurd (word.visible ' ' member) (by decide)

/-- No word ends a line. -/
theorem IsWord.oneLine {text : List Char} (word : IsWord text) : OneLine text :=
  ⟨fun member => absurd (word.visible _ member) (by decide),
    fun member => absurd (word.visible _ member) (by decide)⟩

end Text
end Parley
