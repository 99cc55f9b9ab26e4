import Parley.Text.Utf8

/-!
# Socket messages

What travels on a socket in either direction.
-/

namespace Parley

/-- A reason to close, with its code. -/
structure CloseReason where
  code : Nat
  text : String
  deriving DecidableEq, Repr

/-- What travels on a socket. -/
inductive Message
  | text (content : String)
  | binary (content : List UInt8)
  | ping (content : List UInt8)
  | pong (content : List UInt8)
  | close (reason : Option CloseReason)
  deriving DecidableEq, Repr

namespace Message

/-- The number of bytes that a message carries. -/
def contentSize : Message → Nat
  | .text content => content.utf8ByteSize
  | .binary content | .ping content | .pong content => content.length
  | .close none => 0
  | .close (some reason) => 2 + reason.text.utf8ByteSize

/-- The number of bytes in front of so many bytes of content. -/
def headerSize (content : Nat) : Nat :=
  if content < 126 then 2 else if content < 65536 then 4 else 10

/-- The number of bytes that a message takes on a socket. -/
def size (message : Message) : Nat := headerSize message.contentSize + message.contentSize

/-- The most bytes that a control message carries. -/
def controlLimit : Nat := 125

/-- Whether a server that accepts so many bytes accepts a message. -/
def isAcceptable (limit : Nat) : Message → Bool
  | .text content => content.utf8ByteSize ≤ limit
  | .binary content => content.length ≤ limit
  | message => message.contentSize ≤ controlLimit

end Message
end Parley
