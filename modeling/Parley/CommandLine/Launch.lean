import Parley.CommandLine.Options

/-!
# Launches

What a program does with its command line, and what is seen of it: the lines of its
log, a complaint about the command line, and the exit code.
-/

namespace Parley

/-- A line of a log. -/
inductive LogLine
  | debug (message : String)
  | error (message : String)
  deriving DecidableEq, Repr

namespace LogLine

/-- How grave a line is. -/
def level : LogLine → String
  | .debug _ => "DEBUG"
  | .error _ => "ERROR"

/-- How a character is written in a log: control characters that a terminal could act
on are written with their codes. -/
def character (c : Char) : String :=
  let n := c.toNat
  let code := String.ofList [Nat.digitChar (n / 16), Nat.digitChar (n % 16)]
  if n ∈ [0x07, 0x08, 0x0C, 0x1B, 0x7F] then "\\x" ++ code
  else if 0x80 ≤ n ∧ n ≤ 0x9F then "\\u\x7b" ++ code ++ "\x7d"
  else String.singleton c

/-- What is written in a log. -/
def text : LogLine → String
  | .debug message | .error message => String.join (message.toList.map character)

end LogLine

/-- What a command line makes a program do. -/
inductive Launch (Options : Type)
  /-- The command line is wrong. -/
  | misused (cause : UsageError)
  | help
  /-- The values do not fit together. -/
  | unfit (line : LogLine)
  | run (options : Options) (log : List LogLine)

/-- What is seen of a program. -/
structure LaunchReport where
  /-- The exit code, once the program has ended. -/
  exit : Option Nat
  log : List LogLine := []
  complaint : Option String := none
  deriving DecidableEq, Repr

/-- What is seen of a program whose run is reported like this. -/
def Launch.report (running : Options → List LogLine → LaunchReport) :
    Launch Options → LaunchReport
  | .misused cause => { exit := some 2, complaint := some cause.message }
  | .help => { exit := some 0 }
  | .unfit line => { exit := some 2, log := [line] }
  | .run options log => running options log

end Parley
