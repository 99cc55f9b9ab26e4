import Parley.Frame.Confirmation
import Parley.Time.Stamp

/-!
# Display

What a terminal shows of a connection and of what arrives on it.
-/

namespace Parley
namespace Display

/-- The line above and below a banner. -/
def rule : String := String.ofList (List.replicate 60 '=')

/-- The banner of an established connection. -/
def connected (id : String) (name : String) (resumed : Bool) : String :=
  let status := if resumed then "Reconnected, missed messages follow" else "Connected"
  s!"\n{rule}\n{status} as '{name}' (id {id})\n" ++
    s!"Type /help for commands. Press Ctrl+C to exit.\n{rule}\n"

/-- A payload: confirmations as status lines, anything else with the time of its
arrival. -/
def payload (text : String) (receivedAt : Stamp) : String :=
  match Confirmation.parse? text with
  | some (.joined room) => s!"\n* joined room '{room}'\n"
  | some (.joinFailed room) => s!"\n! could not join room '{room}' (room limit reached)\n"
  | some (.left room) => s!"\n* left room '{room}'\n"
  | none => s!"\n[{receivedAt.clock}] {text}\n"

/-- A notice of bytes that are not shown. -/
def binary (byteCount : Nat) : String := s!"\n← Received {byteCount} bytes of binary data\n"

/-- An error line. -/
def error (message : String) : String := s!"! {message}\n"

/-- The prompt of a terminal. -/
def prompt (name : String) : String := s!"{name}> "

end Display
end Parley
