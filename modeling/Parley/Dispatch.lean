import Parley.Frame.Command
import Parley.Frame.Confirmation
import Parley.Hub.Request

/-!
# Dispatching frames

A frame of a registered peer is one command, and a command is one request of the
hub on behalf of that peer.  The peer is told how its own changes of rooms
went, and only after the hub has made them.
-/

namespace Parley

/-- Why a frame has no effect. -/
inductive DispatchError
  | malformed (cause : FrameError)
  | invalidName (cause : NameError)
  | rejected (refusal : Refusal)
  | hubUnavailable
  deriving DecidableEq, Repr

namespace DispatchError

/-- What a dispatch error says. -/
def message : DispatchError → String
  | .malformed cause => s!"malformed frame: {cause.message}"
  | .invalidName cause => s!"invalid value: {cause.message}"
  | .rejected refusal => s!"request rejected: {refusal.message}"
  | .hubUnavailable => Hub.unavailableText

/-- Whether the transport cannot go on. -/
def isFatal : DispatchError → Bool
  | .hubUnavailable => true
  | _ => false

/-- A hub that has stopped serves no peer any more; any other refusal concerns
one request only. -/
def ofRefusal : Refusal → DispatchError
  | .stopped => .hubUnavailable
  | refusal => .rejected refusal

end DispatchError

namespace Dispatch

/-- The request that a command of a peer makes. -/
def requestOf (sender : ConnectionId) : Command → Except NameError Request
  | .joinRoom room => (RoomName.ofString room).map (.joinRoom sender)
  | .leaveRoom room => (RoomName.ofString room).map (.leaveRoom sender)
  | .roomMessage room body =>
      (RoomName.ofString room).map fun room => .sendToRoom room body (some sender)
  | .privateMessage recipient body =>
      (DisplayName.ofString recipient).map fun name => .sendToName name body
  | .broadcast body => .ok (.broadcast body)

/-- The command of a frame and the request it makes. -/
def request (sender : ConnectionId) (frame : String) :
    Except DispatchError (Command × Request) :=
  match Command.parse frame with
  | .error cause => .error (.malformed cause)
  | .ok command =>
      match requestOf sender command with
      | .error cause => .error (.invalidName cause)
      | .ok request => .ok (command, request)

/-- What the peer is told about a command.  A room that may not be created is a
confirmation of its own. -/
def conclude : Command → Outcome → Except DispatchError (Option Confirmation)
  | .joinRoom room, .ok _ => .ok (some (.joined room))
  | .joinRoom room, .error (.roomLimit _) => .ok (some (.joinFailed room))
  | .leaveRoom room, .ok _ => .ok (some (.left room))
  | _, .ok _ => .ok none
  | _, .error refusal => .error (.ofRefusal refusal)

/-- Carry out the command of a frame. -/
def execute {m : Type → Type} [Monad m] (ask : Ask m) (sender : ConnectionId)
    (frame : String) : m (Except DispatchError (Option Confirmation)) :=
  match request sender frame with
  | .error cause => pure (.error cause)
  | .ok (command, request) => conclude command <$> ask request

end Dispatch
end Parley
