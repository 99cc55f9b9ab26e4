import Parley.Text.Cut
import Parley.Text.Utf8

/-!
# Addresses

The address that a client opens: the server's, with the display name and the id
of an earlier connection as query values.
-/

namespace Parley

/-- Why an address cannot be opened. -/
inductive AddressError
  | tooLong
  | invalidCharacter
  deriving DecidableEq, Repr

/-- What is said about an address that cannot be opened. -/
def AddressError.message : AddressError → String
  | .tooLong => "HTTP format error: uri too long"
  | .invalidCharacter => "HTTP format error: invalid uri character"

namespace Address

/-- The query value that holds the display name. -/
def nameKey : String := "name"

/-- The query value that holds the id of an earlier connection. -/
def idKey : String := "client_id"

/-- The response field that holds the id of a connection. -/
def idField : String := "x-connection-id"

/-- The address of a client. -/
def upgrade (base : String) (name : String) (clientId : Option String) : String :=
  let named := s!"{base}?{nameKey}={name}"
  match clientId with
  | some id => s!"{named}&{idKey}={id}"
  | none => named

/-- Characters that a query may not hold as they are: control characters, the
space, the double quote and angle brackets. -/
def isBarred (c : Char) : Bool :=
  c.toNat ≤ 0x20 || c.toNat = 0x7F || c = '"' || c = '<' || c = '>'

/-- The largest number of bytes of an address. -/
def lengthLimit : Nat := 65534

/-- What is wrong with an address, if it cannot be opened.  A number sign ends its
query. -/
def fault? (address : String) : Option AddressError :=
  if lengthLimit < Utf8.byteCount address.toList then some .tooLong
  else
    match Text.cut? '?' address.toList with
    | none => none
    | some (_, query) =>
        if (query.takeWhile (· ≠ '#')).any isBarred then some .invalidCharacter else none

end Address
end Parley
