/-!
# UTF-8

The length of text in bytes, and reading bytes as text: strictly, where one
ill-formed sequence spoils all, and leniently, where every maximal ill-formed part
becomes one U+FFFD.
-/

namespace Parley
namespace Utf8

/-- The number of bytes of text in UTF-8. -/
def byteCount : List Char → Nat
  | [] => 0
  | c :: rest => c.utf8Size + byteCount rest

/-- What stands at the front of a byte sequence. -/
inductive Front
  /-- A well-formed character and the bytes behind it. -/
  | character (c : Char) (rest : List UInt8)
  /-- An ill-formed part and the bytes behind it. -/
  | broken (rest : List UInt8)

/-- The payload of a continuation byte. -/
def tail (byte : UInt8) : Nat := byte.toNat % 64

/-- Whether a byte lies in the given range. -/
def within (low high : Nat) (byte : UInt8) : Bool :=
  low ≤ byte.toNat && byte.toNat ≤ high

/-- Whether a byte continues a character. -/
def continues (byte : UInt8) : Bool := within 0x80 0xBF byte

/-- The range of the second byte after a given first byte of three. -/
def secondOfThree (first : Nat) : Nat × Nat :=
  if first = 0xE0 then (0xA0, 0xBF)
  else if first = 0xED then (0x80, 0x9F)
  else (0x80, 0xBF)

/-- The range of the second byte after a given first byte of four. -/
def secondOfFour (first : Nat) : Nat × Nat :=
  if first = 0xF0 then (0x90, 0xBF)
  else if first = 0xF4 then (0x80, 0x8F)
  else (0x80, 0xBF)

/-- Split off the first character, or the longest part that could have begun
one. -/
def front (byte : UInt8) (rest : List UInt8) : Front :=
  let first := byte.toNat
  if first < 0x80 then .character (Char.ofNat first) rest
  else if within 0xC2 0xDF byte then
    match rest with
    | second :: behind =>
        if continues second then
          .character (Char.ofNat ((first % 32) * 64 + tail second)) behind
        else .broken rest
    | [] => .broken []
  else if within 0xE0 0xEF byte then
    match rest with
    | second :: third :: behind =>
        if within (secondOfThree first).1 (secondOfThree first).2 second then
          if continues third then
            .character
              (Char.ofNat ((first % 16) * 4096 + tail second * 64 + tail third)) behind
          else .broken (third :: behind)
        else .broken rest
    | [second] =>
        if within (secondOfThree first).1 (secondOfThree first).2 second then .broken []
        else .broken rest
    | [] => .broken []
  else if within 0xF0 0xF4 byte then
    match rest with
    | second :: third :: fourth :: behind =>
        if within (secondOfFour first).1 (secondOfFour first).2 second then
          if continues third then
            if continues fourth then
              .character
                (Char.ofNat ((first % 8) * 262144 + tail second * 4096 + tail third * 64
                  + tail fourth)) behind
            else .broken (fourth :: behind)
          else .broken (third :: fourth :: behind)
        else .broken rest
    | [second, third] =>
        if within (secondOfFour first).1 (secondOfFour first).2 second then
          if continues third then .broken [] else .broken [third]
        else .broken rest
    | [second] =>
        if within (secondOfFour first).1 (secondOfFour first).2 second then .broken []
        else .broken rest
    | [] => .broken []
  else .broken rest

/-- Read characters as long as `fuel` lasts; `none` stands for a broken part. -/
def scan : Nat → List UInt8 → List (Option Char)
  | 0, _ => []
  | _ + 1, [] => []
  | fuel + 1, byte :: rest =>
      match front byte rest with
      | .character c behind => some c :: scan fuel behind
      | .broken behind => none :: scan fuel behind

/-- The characters of a byte sequence, `none` for each broken part. -/
def characters (bytes : List UInt8) : List (Option Char) :=
  scan bytes.length bytes

/-- The text of well-formed bytes. -/
def decode? (bytes : List UInt8) : Option String :=
  ((characters bytes).mapM id).map String.ofList

/-- The text of any bytes, with U+FFFD for each broken part. -/
def decodeLossy (bytes : List UInt8) : String :=
  String.ofList ((characters bytes).map fun c => c.getD (Char.ofNat 0xFFFD))

/-- The bytes of a string. -/
def encode (text : String) : List UInt8 :=
  text.toList.flatMap String.utf8EncodeChar

end Utf8
end Parley
