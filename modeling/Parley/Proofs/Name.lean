import Parley.Name.Basic
import Parley.Proofs.Text

/-!
# What names look like

Room names and display names are words: not empty, and without blanks.  Connection ids and
display names consist of the characters that their checks allow.
-/

namespace Parley

open Text

/-- Characters of a display name lie between the space and the end of ASCII. -/
theorem Name.toNat_bounds_of_isDisplayCharacter {c : Char}
    (display : isDisplayCharacter c = true) : 32 < c.toNat ∧ c.toNat < 127 := by
  delta isDisplayCharacter isPlain Char.isAlphanum Char.isAlpha Char.isUpper Char.isLower
    Char.isDigit at display
  simp only [Bool.or_eq_true, Bool.and_eq_true, decide_eq_true_eq, UInt32.le_iff_toNat_le]
    at display
  rcases display with ((plain | rfl) | rfl) | rfl
  · change ((65 ≤ c.toNat ∧ c.toNat ≤ 90) ∨ 97 ≤ c.toNat ∧ c.toNat ≤ 122) ∨
      48 ≤ c.toNat ∧ c.toNat ≤ 57 at plain
    omega
  · decide
  · decide
  · decide

theorem Name.not_isBlank_of_isDisplayCharacter {c : Char} (display : isDisplayCharacter c = true) :
    isBlank c = false := by
  have bounds := toNat_bounds_of_isDisplayCharacter display
  simp [isBlank, blankRanges]
  omega

/-- Characters of a display name take one byte each. -/
theorem Name.utf8Size_of_isDisplayCharacter {c : Char} (display : isDisplayCharacter c = true) :
    c.utf8Size = 1 := by
  have bounds := toNat_bounds_of_isDisplayCharacter display
  rw [Char.utf8Size_eq_one_iff, UInt32.le_iff_toNat_le]
  exact Nat.le_of_lt bounds.2

/-- Connection ids have fewer characters to choose from than display names. -/
theorem Name.isDisplayCharacter_of_isIdCharacter {c : Char} (allowed : isIdCharacter c = true) :
    isDisplayCharacter c = true := by
  simp only [isIdCharacter, isDisplayCharacter, Bool.or_eq_true] at allowed ⊢
  tauto

theorem RoomName.isWord (room : RoomName) : IsWord room.text.toList := by
  have checked := room.checked
  unfold Name.roomFault at checked
  split at checked
  · cases checked
  · rename_i nonempty
    split at checked
    · cases checked
    · split at checked
      · cases checked
      · rename_i unblank
        refine ⟨fun empty => nonempty (List.isEmpty_iff.2 empty), fun c member => ?_⟩
        exact Bool.eq_false_iff.2 fun blank => unblank (List.any_eq_true.2 ⟨c, member, blank⟩)

/-- The text of a display name passed the check of all display names. -/
theorem DisplayName.isDisplay_text (name : DisplayName) :
    Name.isDisplay name.text.toList = true := by
  have checked := name.checked
  unfold Name.displayFault at checked
  split at checked
  · cases checked
  · split at checked
    · assumption
    · cases checked

theorem DisplayName.isWord (name : DisplayName) : IsWord name.text.toList := by
  have display := name.isDisplay_text
  simp only [Name.isDisplay, Bool.and_eq_true, List.all_eq_true] at display
  refine ⟨fun empty => ?_, fun c member => ?_⟩
  · rw [empty] at display
    exact absurd display.1.1 (by decide)
  · exact Name.not_isBlank_of_isDisplayCharacter (display.2 c member)

/-- Text that can be a display name is the text of one. -/
theorem DisplayName.exists_of_isDisplay {text : String}
    (display : Name.isDisplay text.toList = true) : ∃ name : DisplayName, name.text = text := by
  have nonempty : ¬text.toList.isEmpty = true := fun empty => by
    simp [Name.isDisplay, empty] at display
  have checked : Name.displayFault text.toList = none := by
    rw [Name.displayFault, if_neg nonempty, if_pos display]
  exact ⟨⟨text, checked⟩, rfl⟩

theorem ConnectionId.text_ne_empty (id : ConnectionId) : id.text ≠ "" := by
  intro empty
  have checked := id.checked
  rw [empty] at checked
  cases checked

theorem ConnectionId.all_isIdCharacter (id : ConnectionId) :
    id.text.toList.all Name.isIdCharacter = true := by
  have checked := id.checked
  unfold Name.idFault at checked
  split at checked
  · cases checked
  · split at checked
    · cases checked
    · split at checked
      · assumption
      · cases checked

end Parley
