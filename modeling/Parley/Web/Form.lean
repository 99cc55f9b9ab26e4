import Parley.Text.Cut
import Parley.Text.Utf8

/-!
# Form values

Percent escapes, and the pairs of a form or query: names and values joined by
equals signs, pairs joined by ampersands, spaces written as plus signs.
-/

namespace Parley

namespace Percent

/-- The value of a hexadecimal digit. -/
def digit? (byte : UInt8) : Option Nat :=
  let n := byte.toNat
  if 0x30 ≤ n ∧ n ≤ 0x39 then some (n - 0x30)
  else if 0x41 ≤ n ∧ n ≤ 0x46 then some (n - 0x41 + 10)
  else if 0x61 ≤ n ∧ n ≤ 0x66 then some (n - 0x61 + 10)
  else none

/-- The byte behind a percent sign; none when no two digits follow. -/
def byte? (high low : UInt8) : Option UInt8 :=
  match digit? high, digit? low with
  | some h, some l => some (UInt8.ofNat (h * 16 + l))
  | _, _ => none

/-- The bytes with percent escapes resolved; a percent sign that begins none stands
for itself. -/
def decode : List UInt8 → List UInt8
  | 0x25 :: high :: low :: rest =>
      match byte? high low with
      | some byte => byte :: decode rest
      | none => 0x25 :: decode (high :: low :: rest)
  | byte :: rest => byte :: decode rest
  | [] => []

end Percent

namespace Form

/-- The ampersand, which stands between pairs. -/
def pairMark : UInt8 := 0x26

/-- The equals sign, which stands between a name and its value. -/
def valueMark : UInt8 := 0x3D

/-- A plus sign stands for a space. -/
def spaced (byte : UInt8) : UInt8 := if byte = 0x2B then 0x20 else byte

/-- The text of a name or a value. -/
def text (bytes : List UInt8) : String :=
  Utf8.decodeLossy (Percent.decode (bytes.map spaced))

/-- The name and value of a pair; a pair without an equals sign has no value. -/
def pair (bytes : List UInt8) : String × String :=
  match Text.cut? valueMark bytes with
  | some (name, value) => (text name, text value)
  | none => (text bytes, "")

/-- The pairs of a form; empty ones are left out. -/
def pairs (query : String) : List (String × String) :=
  ((Text.pieces pairMark (Utf8.encode query)).filter fun bytes => !bytes.isEmpty).map pair

end Form

end Parley
