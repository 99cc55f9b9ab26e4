import Parley.Name.Basic

/-!
# Fresh connection ids

A fresh id is the text of a version 4 UUID.  Every such text passes the check
of a connection id.
-/

namespace Parley

namespace ConnectionId

/-- The hexadecimal digits. -/
def hexDigits : List Char :=
  ['0', '1', '2', '3', '4', '5', '6', '7', '8', '9', 'a', 'b', 'c', 'd', 'e', 'f']

/-- A hexadecimal digit. -/
def digit (n : Nat) : Char := hexDigits.get ⟨n % 16, Nat.mod_lt n (by decide)⟩

/-- The last `count` hexadecimal digits of a number. -/
def digits : Nat → Nat → List Char
  | 0, _ => []
  | count + 1, n => digits count (n / 16) ++ [digit n]

/-- The text of a version 4 UUID with the given random bits: 32 hexadecimal
digits in groups, of which the thirteenth is 4 and the seventeenth one of
8, 9, a and b. -/
def randomText (bits : Nat) : List Char :=
  digits 8 (bits >>> 96) ++ '-' :: digits 4 (bits >>> 80) ++ '-' :: '4' ::
    digits 3 (bits >>> 64) ++ '-' :: digit (8 + (bits >>> 60) % 4) ::
    digits 3 (bits >>> 48) ++ '-' :: digits 12 bits

theorem digit_mem (n : Nat) : digit n ∈ hexDigits := List.get_mem _ _

/-- Whatever holds for all sixteen digits holds for each digit of a number. -/
theorem all_digits {p : Char → Bool} (all : hexDigits.all p = true) (count n : Nat) :
    (digits count n).all p = true := by
  induction count generalizing n with
  | zero => rfl
  | succ count induction =>
      rw [digits, List.all_append, induction]
      simp [List.all_eq_true.1 all _ (digit_mem n)]

@[simp]
theorem length_digits (count n : Nat) : (digits count n).length = count := by
  induction count generalizing n with
  | zero => rfl
  | succ count induction => simp [digits, induction]

/-- Whatever holds for the hyphen and all sixteen digits holds for the text of a
UUID. -/
theorem all_randomText {p : Char → Bool} (hyphen : p '-' = true)
    (all : hexDigits.all p = true) (bits : Nat) : (randomText bits).all p = true := by
  have one (n : Nat) : p (digit n) = true := List.all_eq_true.1 all _ (digit_mem n)
  have four : p '4' = true := List.all_eq_true.1 all '4' (by decide)
  simp [randomText, all_digits all, one, four, hyphen]

theorem byteCount_eq_length {text : List Char}
    (ascii : (text.all fun c => c.utf8Size == 1) = true) :
    Utf8.byteCount text = text.length := by
  induction text with
  | nil => rfl
  | cons c rest induction =>
      rw [List.all_cons, Bool.and_eq_true, beq_iff_eq] at ascii
      simp [Utf8.byteCount, ascii.1, induction ascii.2, Nat.add_comm]

theorem length_randomText (bits : Nat) : (randomText bits).length = 36 := by
  simp [randomText]

/-- The text of a UUID is fit to be a connection id. -/
theorem idFault_randomText (bits : Nat) : Name.idFault (randomText bits) = none := by
  have size : Utf8.byteCount (randomText bits) = 36 := by
    rw [byteCount_eq_length (all_randomText (by decide) (by decide) bits), length_randomText]
  have allowed : (randomText bits).all Name.isIdCharacter = true :=
    all_randomText (by decide) (by decide) bits
  have notEmpty : (randomText bits).isEmpty = false := by
    rw [List.isEmpty_eq_false_iff, ← List.length_pos_iff, length_randomText]
    decide
  simp [Name.idFault, size, allowed, notEmpty, Name.idLimit]

/-- The connection id made of the given random bits. -/
def ofRandom (bits : Nat) : ConnectionId :=
  ⟨String.ofList (randomText bits), by
    rw [String.toList_ofList]
    exact idFault_randomText bits⟩

end ConnectionId

end Parley
