import Parley.Text.Number

/-!
# Integers of a command line

Whole numbers with an optional sign, read digit by digit: the first character
that is no digit, or the first digit that is one too many, decides the error.
-/

namespace Parley

/-- Why text is no number in range. -/
inductive IntegerError
  | empty
  | invalidDigit
  | tooLarge
  | tooSmall
  | outside (value : Int) (low : Int) (high : Int)
  deriving DecidableEq, Repr

/-- What an integer error says. -/
def IntegerError.message : IntegerError → String
  | .empty => "cannot parse integer from empty string"
  | .invalidDigit => "invalid digit found in string"
  | .tooLarge => "number too large to fit in target type"
  | .tooSmall => "number too small to fit in target type"
  | .outside value low high => s!"{value} is not in {low}..={high}"

namespace Integer

/-- Read digits up to a limit. -/
def readDigits (limit : Nat) (overflow : IntegerError) : Nat → List Char → Except IntegerError Nat
  | value, [] => .ok value
  | value, c :: rest =>
      match Number.digit? c with
      | none => .error .invalidDigit
      | some digit =>
          let next := value * 10 + digit
          if limit < next then .error overflow else readDigits limit overflow next rest

/-- The largest number of 64 bits without a sign. -/
def largestNat : Nat := 0xFFFFFFFFFFFFFFFF

/-- The largest number of 64 bits with a sign; the smallest is one further from
zero. -/
def largestInt : Nat := 0x7FFFFFFFFFFFFFFF

/-- Read a number of 64 bits without a sign; a plus sign may stand in front. -/
def readNat (text : String) : Except IntegerError Nat :=
  match text.toList with
  | [] => .error .empty
  | ['+'] => .error .invalidDigit
  | '+' :: digits => readDigits largestNat .tooLarge 0 digits
  | digits => readDigits largestNat .tooLarge 0 digits

/-- Read a number of 64 bits with a sign. -/
def readInt (text : String) : Except IntegerError Int :=
  match text.toList with
  | [] => .error .empty
  | ['+'] | ['-'] => .error .invalidDigit
  | '+' :: digits => (readDigits largestInt .tooLarge 0 digits).map Int.ofNat
  | '-' :: digits => (readDigits (largestInt + 1) .tooSmall 0 digits).map fun n => -Int.ofNat n
  | digits => (readDigits largestInt .tooLarge 0 digits).map Int.ofNat

/-- Read a number in a range. -/
def readWithin (low high : Int) (text : String) : Except IntegerError Nat :=
  match readInt text with
  | .error cause => .error cause
  | .ok value =>
      if low ≤ value ∧ value ≤ high then .ok value.toNat
      else .error (.outside value low high)

end Integer
end Parley
