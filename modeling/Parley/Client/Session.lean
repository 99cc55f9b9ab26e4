import Parley.Client.Address
import Parley.Client.Display
import Parley.Client.Failure
import Parley.Client.Input
import Parley.Frame.Batch

/-!
# Client sessions

A session lasts from the server's answer until the user quits or the connection
ends.  It turns what arrives and what is typed into output and frames.
-/

namespace Parley

/-- How the server answers a client. -/
inductive Greeting
  /-- The connection is open; the id field may be missing. -/
  | accepted (assigned : Option String)
  | refused (status : Nat) (body : String)
  /-- There is no answer. -/
  | failed (reason : String)
  deriving DecidableEq, Repr

/-- What happens to a session. -/
inductive SessionEvent
  | text (frame : String) (receivedAt : Stamp)
  | binary (byteCount : Nat)
  /-- A frame that only keeps the connection alive. -/
  | keepAlive
  | closed
  | broken (reason : String)
  | ended
  | line (text : String)
  | inputEnded
  deriving DecidableEq, Repr

/-- What a client puts on the wire. -/
inductive Sending
  | text (frame : String)
  | close
  deriving DecidableEq, Repr

/-- What a session does about an event. -/
structure Reaction where
  output : String := ""
  sent : List Sending := []
  /-- How the session ended, if it did. -/
  outcome : Option (Except Failure Unit) := none

/-- An open connection as the client knows it. -/
structure ClientSession where
  name : String
  id : String
  deriving DecidableEq, Repr

namespace ClientSession

/-- Begin a session with the server's answer.  Gives the banner and prompt. -/
def begin? (name : String) (previous : Option String) :
    Greeting → Except Failure (ClientSession × String)
  | .failed reason => .error (.unreachable reason)
  | .refused status body => .error (.rejected status body)
  | .accepted none => .error (.unreachable s!"missing '{Address.idField}' header")
  | .accepted (some id) =>
      .ok ({ name, id },
        Display.connected id name (previous = some id) ++ Display.prompt name)

/-- What a session does about an event. -/
def react (session : ClientSession) : SessionEvent → Reaction
  | .text frame receivedAt =>
      { output := String.join ((Batch.split frame).map fun payload =>
          Display.payload payload receivedAt) ++ Display.prompt session.name }
  | .binary byteCount =>
      { output := Display.binary byteCount ++ Display.prompt session.name }
  | .keepAlive => {}
  | .closed => { outcome := some (.error (.lost "server closed the connection")) }
  | .broken reason => { outcome := some (.error (.lost reason)) }
  | .ended => { outcome := some (.error (.lost "stream ended")) }
  | .line text =>
      match Input.parse text with
      | none => {}
      | some (.ok (.frame frame)) => { sent := [.text frame] }
      | some (.ok .help) => { output := Input.helpText ++ "\n" }
      | some (.ok .quit) => { sent := [.close], outcome := some (.ok ()) }
      | some (.error cause) => { output := Display.error cause.message }
  | .inputEnded => { sent := [.close], outcome := some (.ok ()) }

end ClientSession
end Parley
