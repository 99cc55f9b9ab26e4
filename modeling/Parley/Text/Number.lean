/-!
# Decimal text

Numbers written with a least count of digits, decimal fractions without
trailing zeros, and reading digits back.
-/

namespace Parley
namespace Number

/-- A number with zeros in front up to the given width. -/
def padded (width : Nat) (n : Nat) : String :=
  let digits := toString n
  String.ofList (List.replicate (width - digits.length) '0') ++ digits

/-- Drop trailing zeros. -/
def trimZeros (digits : List Char) : List Char :=
  (digits.reverse.dropWhile (· = '0')).reverse

/-- The digits of `part / 10 ^ places` behind the point, with the point and
without trailing zeros; nothing when the fraction is zero. -/
def fraction (places : Nat) (part : Nat) : String :=
  if part = 0 then "" else
    "." ++ String.ofList (trimZeros (padded places part).toList)

/-- The value of a decimal digit. -/
def digit? (c : Char) : Option Nat :=
  if c.isDigit then some (c.toNat - '0'.toNat) else none

end Number
end Parley
