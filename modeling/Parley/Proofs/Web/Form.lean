import Parley.Proofs.Text
import Parley.Proofs.Text.Utf8
import Parley.Web.Form

/-!
# Forms without escapes

A form that is written without any escapes gives back its pairs, as long as no character in
them means anything to a form: a percent sign, a plus sign, an ampersand or an equals sign.
-/

namespace Parley

/-- Bytes without percent signs stand for themselves. -/
theorem Percent.decode_of_not_mem {bytes : List UInt8} (absent : 0x25 ∉ bytes) :
    decode bytes = bytes := by
  fun_induction decode bytes with
  | case1 => simp at absent
  | case2 => simp at absent
  | case3 byte rest _ induction =>
      rw [List.mem_cons, not_or] at absent
      rw [induction absent.2]
  | case4 => rfl

namespace Form

/-- Whether a character means something to a form. -/
def isSpecial (c : Char) : Bool := c = '%' || c = '+' || c = '&' || c = '='

/-- Text that means nothing to a form but itself. -/
def IsPlain (text : String) : Prop := ∀ c ∈ text.toList, isSpecial c = false

/-- A pair as it is written, without escapes. -/
def writePair (pair : String × String) : String := pair.1 ++ "=" ++ pair.2

/-- A form as it is written, without escapes. -/
def write : List (String × String) → String
  | [] => ""
  | [pair] => writePair pair
  | pair :: next :: others => writePair pair ++ "&" ++ write (next :: others)

/-- A form has no characters but those of its pairs and the marks between them. -/
theorem not_mem_write {c : Char} (unmarked : c ≠ '=' ∧ c ≠ '&') {form : List (String × String)}
    (absent : ∀ pair ∈ form, c ∉ pair.1.toList ∧ c ∉ pair.2.toList) :
    c ∉ (write form).toList := by
  have apart (pair : String × String) (own : c ∉ pair.1.toList ∧ c ∉ pair.2.toList) :
      c ∉ (writePair pair).toList := by
    simp [writePair, own, unmarked]
  induction form using write.induct with
  | case1 => simp [write]
  | case2 pair => exact apart pair (absent pair (List.mem_singleton_self _))
  | case3 pair next others induction =>
      have own := apart pair (absent pair (List.mem_cons_self ..))
      have behind := induction fun other later => absent other (List.mem_cons_of_mem _ later)
      simp [write, own, behind, unmarked]

/-- No byte of plain text is one that means something to a form. -/
theorem IsPlain.not_mem_encode {plain : String} (isPlain : IsPlain plain) {byte : UInt8}
    (ascii : byte.toNat < 0x80) (special : isSpecial (Char.ofNat byte.toNat) = true) :
    byte ∉ Utf8.encode plain := by
  intro member
  have harmless := isPlain _ (Utf8.mem_of_mem_encode ascii member)
  rw [special] at harmless
  cases harmless

/-- Plain text is read as it stands. -/
theorem text_encode {plain : String} (isPlain : IsPlain plain) :
    text (Utf8.encode plain) = plain := by
  have unspaced : (Utf8.encode plain).map spaced = Utf8.encode plain := by
    refine (List.map_congr_left fun byte member => ?_).trans (List.map_id _)
    have different : byte ≠ 0x2B := by
      rintro rfl
      exact isPlain.not_mem_encode (by decide) (by decide) member
    exact if_neg different
  rw [text, unspaced, Percent.decode_of_not_mem (isPlain.not_mem_encode (by decide) (by decide)),
    Utf8.decodeLossy_encode]

theorem encode_writePair (pair : String × String) :
    Utf8.encode (writePair pair) =
      Utf8.encode pair.1 ++ valueMark :: Utf8.encode pair.2 := by
  have mark : Utf8.encode "=" = [valueMark] := by decide
  rw [writePair, Utf8.encode_append, Utf8.encode_append, mark, List.append_assoc]
  rfl

/-- A plain pair is read as it is written. -/
theorem pair_encode_writePair {written : String × String} (name : IsPlain written.1)
    (value : IsPlain written.2) : pair (Utf8.encode (writePair written)) = written := by
  rw [pair, encode_writePair,
    Text.cut?_append_cons (name.not_mem_encode (by decide) (by decide))]
  dsimp only
  rw [text_encode name, text_encode value]

theorem pairMark_not_mem_encode_writePair {written : String × String} (name : IsPlain written.1)
    (value : IsPlain written.2) : pairMark ∉ Utf8.encode (writePair written) := by
  have absentName : pairMark ∉ Utf8.encode written.1 :=
    name.not_mem_encode (by decide) (by decide)
  have absentValue : pairMark ∉ Utf8.encode written.2 :=
    value.not_mem_encode (by decide) (by decide)
  rw [encode_writePair, List.mem_append, List.mem_cons]
  rintro (inName | same | inValue)
  · exact absentName inName
  · exact absurd same (by decide)
  · exact absentValue inValue

/-- The pieces of a form are its pairs. -/
theorem pieces_encode_write {first : String × String} {others : List (String × String)}
    (plain : ∀ written ∈ first :: others, IsPlain written.1 ∧ IsPlain written.2) :
    Text.pieces pairMark (Utf8.encode (write (first :: others))) =
      (first :: others).map fun written => Utf8.encode (writePair written) := by
  induction others generalizing first with
  | nil =>
      have own := plain first (List.mem_singleton_self _)
      exact Text.pieces_of_not_mem (pairMark_not_mem_encode_writePair own.1 own.2)
  | cons next others induction =>
      have own := plain first (List.mem_cons_self ..)
      have mark : Utf8.encode "&" = [pairMark] := by decide
      have absent := pairMark_not_mem_encode_writePair own.1 own.2
      rw [write, Utf8.encode_append, Utf8.encode_append, mark, List.append_assoc,
        List.singleton_append, Text.pieces_append_cons absent,
        induction fun written later => plain written (List.mem_cons_of_mem _ later)]
      rfl

/-- A form of plain pairs gives back these pairs, all of them and nothing else. -/
theorem pairs_write {form : List (String × String)}
    (plain : ∀ written ∈ form, IsPlain written.1 ∧ IsPlain written.2) :
    pairs (write form) = form := by
  cases form with
  | nil => rfl
  | cons first others =>
      have nonempty (written : String × String) :
          (!(Utf8.encode (writePair written)).isEmpty) = true := by
        rw [encode_writePair]
        simp
      have kept : ((first :: others).map fun written => Utf8.encode (writePair written)).filter
          (fun bytes => !bytes.isEmpty) =
            (first :: others).map fun written => Utf8.encode (writePair written) := by
        refine List.filter_eq_self.2 fun bytes member => ?_
        obtain ⟨written, -, rfl⟩ := List.mem_map.1 member
        exact nonempty written
      rw [pairs, pieces_encode_write plain, kept, List.map_map]
      refine (List.map_congr_left fun written member => ?_).trans (List.map_id _)
      exact pair_encode_writePair (plain written member).1 (plain written member).2

end Form
end Parley
