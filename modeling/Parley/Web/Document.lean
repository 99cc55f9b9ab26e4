import Parley.Text.Number

/-!
# Documents

The values that the server answers with, and their compact text: no blanks
between tokens, fields in the order in which they are given.
-/

namespace Parley

/-- A value of an answer. -/
inductive Document
  | null
  | number (n : Nat)
  | text (s : String)
  | list (items : List Document)
  | record (fields : List (String × Document))

namespace Document

/-- The last two hexadecimal digits of a number. -/
def hexPair (n : Nat) : List Char :=
  let digits := Nat.toDigits 16 (n % 256)
  List.replicate (2 - digits.length) '0' ++ digits

/-- A character inside quotes.  Quotes, backslashes and control characters are
escaped, everything else stands for itself. -/
def escape (c : Char) : List Char :=
  if c = '"' then ['\\', '"']
  else if c = '\\' then ['\\', '\\']
  else if c = '\n' then ['\\', 'n']
  else if c = '\r' then ['\\', 'r']
  else if c = '\t' then ['\\', 't']
  else if c.toNat = 8 then ['\\', 'b']
  else if c.toNat = 12 then ['\\', 'f']
  else if c.toNat < 32 then ['\\', 'u', '0', '0'] ++ hexPair c.toNat
  else [c]

/-- Text in quotes. -/
def quoted (s : String) : String :=
  "\"" ++ String.ofList (s.toList.flatMap escape) ++ "\""

mutual

/-- The compact text of a value. -/
def render : Document → String
  | .null => "null"
  | .number n => toString n
  | .text s => quoted s
  | .list items => "[" ++ String.intercalate "," (renderItems items) ++ "]"
  | .record fields => "\x7b" ++ String.intercalate "," (renderFields fields) ++ "\x7d"

/-- The compact texts of several values. -/
def renderItems : List Document → List String
  | [] => []
  | item :: rest => item.render :: renderItems rest

/-- The compact texts of several fields. -/
def renderFields : List (String × Document) → List String
  | [] => []
  | (name, value) :: rest => (quoted name ++ ":" ++ value.render) :: renderFields rest

end

end Document
end Parley
