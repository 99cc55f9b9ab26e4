/-!
# Cutting at marks

The two ways in which a sequence of characters or bytes is cut: once, at the first
mark, or at every mark.
-/

namespace Parley
namespace Text

variable {α : Type} [DecidableEq α]

/-- The text before and after the first `mark`, when there is one. -/
def cut? (mark : α) : List α → Option (List α × List α)
  | [] => none
  | c :: rest =>
      if c = mark then some ([], rest)
      else (cut? mark rest).map fun halves => (c :: halves.1, halves.2)

/-- The pieces of text between marks; text without a mark is one piece. -/
def pieces (mark : α) : List α → List (List α)
  | [] => [[]]
  | c :: rest =>
      if c = mark then [] :: pieces mark rest
      else match pieces mark rest with
        | [] => [[c]]
        | piece :: others => (c :: piece) :: others

/-- The first line of text, without the mark of its end. -/
def firstLine (text : String) : String :=
  match cut? '\n' text.toList with
  | none => text
  | some (line, _) =>
      String.ofList (if line.getLast? = some '\r' then line.dropLast else line)

/-- A cut takes away exactly one mark. -/
theorem eq_of_cut? {mark : α} {text before after : List α}
    (found : cut? mark text = some (before, after)) :
    text = before ++ mark :: after := by
  induction text generalizing before with
  | nil => simp [cut?] at found
  | cons c rest induction =>
      unfold cut? at found
      split at found
      · rename_i isMark
        simp at found
        simp [← found.1, ← found.2, isMark]
      · simp only [Option.map_eq_some_iff, Prod.exists, Prod.mk.injEq] at found
        obtain ⟨inner, rest', atRest, rfl, rfl⟩ := found
        simp [induction atRest]

/-- The part before a cut holds no mark. -/
theorem not_mem_of_cut? {mark : α} {text before after : List α}
    (found : cut? mark text = some (before, after)) : mark ∉ before := by
  induction text generalizing before with
  | nil => simp [cut?] at found
  | cons c rest induction =>
      unfold cut? at found
      split at found
      · simp only [Option.some.injEq, Prod.mk.injEq] at found
        simp [← found.1]
      · rename_i notMark
        simp only [Option.map_eq_some_iff, Prod.exists, Prod.mk.injEq] at found
        obtain ⟨inner, rest', atRest, rfl, rfl⟩ := found
        intro member
        rcases List.mem_cons.1 member with equal | inside
        · exact notMark equal.symm
        · exact induction atRest inside

/-- Text is left uncut exactly when it holds no mark. -/
theorem cut?_eq_none_iff {mark : α} {text : List α} :
    cut? mark text = none ↔ mark ∉ text := by
  induction text with
  | nil => simp [cut?]
  | cons c rest induction =>
      unfold cut?
      split
      · rename_i isMark
        simp [isMark]
      · rename_i notMark
        simp only [Option.map_eq_none_iff, induction, List.mem_cons, not_or]
        exact ⟨fun absent => ⟨fun equal => notMark equal.symm, absent⟩, fun both => both.2⟩

/-- Text without a mark is one piece. -/
theorem pieces_of_not_mem {mark : α} {text : List α} (absent : mark ∉ text) :
    pieces mark text = [text] := by
  induction text with
  | nil => rfl
  | cons c rest induction =>
      rw [List.mem_cons, not_or] at absent
      have different : ¬c = mark := fun equal => absent.1 equal.symm
      simp [pieces, different, induction absent.2]

/-- The text before the first mark is the first piece. -/
theorem pieces_append_cons {mark : α} {before : List α} (absent : mark ∉ before)
    (after : List α) :
    pieces mark (before ++ mark :: after) = before :: pieces mark after := by
  induction before with
  | nil => simp [pieces]
  | cons c rest induction =>
      rw [List.mem_cons, not_or] at absent
      have different : ¬c = mark := fun equal => absent.1 equal.symm
      simp [pieces, different, induction absent.2]

end Text
end Parley
