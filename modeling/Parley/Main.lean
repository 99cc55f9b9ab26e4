import Parley.Client.Input
import Parley.Client.Display
import Parley.CommandLine.Client
import Parley.CommandLine.Server
import Parley.Name.Random
import Parley.Simulation.Loopback

/-!
# The program

Runs a hub with one peer at the terminal.  What is typed is read as by a client, and
what the peer sees is shown as by a client.  Times are counted from the start.
-/

namespace Parley
namespace Terminal

/-- The label of the peer at the terminal. -/
def label : String := "terminal"

/-- What the terminal shows of what its peer saw. -/
def shown (sighting : Sighting) : String :=
  match sighting.sight with
  | .message (.text frame) =>
      String.join ((Batch.split frame).map fun payload =>
        Display.payload payload (Moment.milliseconds sighting.moment))
  | .message (.binary content) => Display.binary content.length
  | .message _ => ""
  | .ended => Display.error "the connection is over"

/-- What the terminal shows after a line, and the hub behind it; no hub when the user
leaves. -/
def respond (loop : Loopback) (line : String) : String × Option Loopback :=
  match loop.present? label, Input.parse line with
  | none, _ => ("", none)
  | some _, none => ("", some loop)
  | some id, some (.ok (.frame frame)) => ("", some (loop.send id (.text frame)))
  | some _, some (.ok .help) => (Input.helpText ++ "\n", some loop)
  | some _, some (.ok .quit) => ("", none)
  | some _, some (.error cause) => (Display.error cause.message, some loop)

/-- The hub when its clock has moved on. -/
def caughtUp (loop : Loopback) (milliseconds : Nat) : Loopback :=
  loop.advance (milliseconds - Moment.milliseconds loop.now)

/-- A hub with a peer at the terminal, and the banner. -/
def opened (settings : Settings) (name : String) : String × Loopback :=
  let dial : Dial :=
    { label
      query := "name=" ++ name
      spare := ConnectionId.ofRandom 0
      capacity := 0x100000 }
  let (_, loop) := (Loopback.new settings 0).connect [dial]
  (((loop.idOf? label).map fun id => Display.connected id.text name false).getD "", loop)

/-- Print a line of the log. -/
def log (line : LogLine) : IO Unit := IO.eprintln (line.level ++ " " ++ line.text)

/-- Read lines until the user leaves. -/
partial def converse (input : IO.FS.Stream) (name : String) (start : Nat) (loop : Loopback) :
    IO Unit := do
  IO.print (Display.prompt name)
  (← IO.getStdout).flush
  let line ← input.getLine
  if line.isEmpty then return
  let elapsed := (← IO.monoMsNow) - start
  let (output, next) := respond (caughtUp loop elapsed) line
  IO.print output
  match next with
  | none => return
  | some loop =>
      IO.print (String.join (loop.seen.map shown))
      converse input name start { loop with seen := [] }

/-- Run a hub with the given settings and one peer with the given name. -/
def run (settings : Settings) (name : String) : IO Unit := do
  let (banner, loop) := opened settings name
  IO.print banner
  converse (← IO.getStdin) name (← IO.monoMsNow) loop

/-- Report on a command line, and run when it is in order. -/
def begin (launch : Launch Options) (running : Options → IO Unit) : IO UInt32 := do
  let report := launch.report fun _ lines => { exit := some 0, log := lines }
  report.log.forM log
  if let some complaint := report.complaint then IO.eprintln complaint
  if let .run options _ := launch then running options
  return UInt32.ofNat (report.exit.getD 0)

end Terminal
end Parley

open Parley in
/-- The first argument tells whose options follow. -/
def main (arguments : List String) : IO UInt32 :=
  match arguments with
  | "server" :: rest =>
      Terminal.begin (ServerOptions.launch rest) fun options =>
        Terminal.run options.settings DisplayName.default.text
  | "client" :: rest =>
      Terminal.begin (ClientOptions.launch rest) fun options => Terminal.run {} options.name
  | _ => do
      IO.eprintln "usage: parley server|client [options]"
      return 2
