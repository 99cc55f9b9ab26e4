import Parley.Transport.Message

/-!
# Wires

A wire holds what was sent to a peer and not read by it.  It has room for so many
bytes; what does not fit waits at the sender, in order.
-/

namespace Parley

/-- What was sent to a peer and not read. -/
structure Wire where
  capacity : Nat
  /-- Messages sent and not read, oldest first. -/
  unread : List Message := []
  deriving DecidableEq, Repr

namespace Wire

/-- The bytes of all messages that are not read. -/
def load (wire : Wire) : Nat :=
  wire.unread.foldr (fun message load => message.size + load) 0

/-- Whether everything sent has left the sender. -/
def isFlushed (wire : Wire) : Bool := wire.load ≤ wire.capacity

/-- Send a message. -/
def send (wire : Wire) (message : Message) : Wire :=
  { wire with unread := wire.unread ++ [message] }

/-- The messages in front that fit completely into so many bytes. -/
def fitting : Nat → List Message → List Message
  | _, [] => []
  | room, message :: rest =>
      if message.size ≤ room then message :: fitting (room - message.size) rest else []

/-- The sender is gone; a message that has not left it completely is lost. -/
def cutOff (wire : Wire) : Wire := { wire with unread := fitting wire.capacity wire.unread }

end Wire
end Parley
