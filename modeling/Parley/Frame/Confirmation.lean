/-!
# Confirmations

What the hub tells a peer about its own changes of rooms.  Confirmations travel
as payloads and are recognized by the word they begin with.
-/

namespace Parley

/-- The outcome of a peer's own join or leave. -/
inductive Confirmation
  | joined (room : String)
  | joinFailed (room : String)
  | left (room : String)
  deriving DecidableEq, Repr

namespace Confirmation

/-- The words that begin a confirmation, each with what it confirms. -/
def words : List (String × (String → Confirmation)) :=
  [("join_room_success:", joined), ("join_room_failed:", joinFailed),
    ("leave_room_success:", left)]

/-- The payload of a confirmation. -/
def encode : Confirmation → String
  | .joined room => "join_room_success:" ++ room
  | .joinFailed room => "join_room_failed:" ++ room
  | .left room => "leave_room_success:" ++ room

/-- The confirmation of a payload; any other payload is a plain message. -/
def parse? (payload : String) : Option Confirmation :=
  words.findSome? fun (word, confirm) =>
    (word.toList.isPrefixOf? payload.toList).map fun rest => confirm (String.ofList rest)

/-- A room that a confirmation is about. -/
def room : Confirmation → String
  | .joined room => room
  | .joinFailed room => room
  | .left room => room

end Confirmation
end Parley
