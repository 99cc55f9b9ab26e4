import Mathlib.Algebra.Group.Nat.Defs
import Parley.Text.Number

/-!
# Numbers in digits

A number that is written with zeros in front consists of digits, as many as asked for if
they suffice, and its digits give it back.
-/

namespace Parley
namespace Number

variable {width n : Nat}

theorem toList_padded (width n : Nat) :
    (padded width n).toList =
      List.replicate (width - (Nat.toDigits 10 n).length) '0' ++ Nat.toDigits 10 n := by
  simp [padded, ← String.length_toList]

/-- The digits of a number are digits, those in front included. -/
theorem all_isDigit_padded (width n : Nat) : (padded width n).toList.all Char.isDigit = true := by
  rw [toList_padded, List.all_append, Bool.and_eq_true]
  refine ⟨?_, List.all_eq_true.2 fun c member => ?_⟩
  · simp
  · exact Nat.isDigit_of_mem_toDigits (by decide) (by decide) member

/-- The digits give the number back. -/
theorem ofDigitChars_padded (width n : Nat) : Nat.ofDigitChars 10 (padded width n).toList 0 = n := by
  rw [toList_padded, Nat.ofDigitChars_append, Nat.ofDigitChars_replicate_zero, Nat.mul_zero,
    Nat.ofDigitChars_ten_toDigits]

theorem le_length_padded (width n : Nat) : width ≤ (padded width n).toList.length := by
  rw [toList_padded, List.length_append, List.length_replicate]
  omega

/-- A number that is small enough has as many digits as asked for. -/
theorem length_padded (positive : 0 < width) (small : n < 10 ^ width) :
    (padded width n).toList.length = width := by
  have few := (Nat.length_toDigits_le_iff (by decide) positive).2 small
  rw [toList_padded, List.length_append, List.length_replicate]
  omega

end Number
end Parley
