import Parley.CommandLine.Integer
import Parley.Text.ControlSequence
import Parley.Text.Cut

/-!
# Options of a command line

A command line is a list of options, each with one value.  An option is written
with its long name, or with one letter; its value follows as the next argument
or behind an equals sign.  A value that follows as the next argument is checked
only when the next option begins or the line ends, so an unknown argument behind
it is noticed first.  So is a value attached to an option that takes none.
-/

namespace Parley

/-- The kinds of values. -/
inductive ValueKind
  | text
  /-- A number of 64 bits without a sign. -/
  | natural
  | within (low : Int) (high : Int)
  deriving DecidableEq, Repr

/-- An option with one value. -/
structure OptionSpec where
  long : String
  letter : Option Char := none
  kind : ValueKind
  deriving DecidableEq, Repr

/-- A value that was read. -/
inductive OptionValue
  | text (s : String)
  | number (n : Nat)
  deriving DecidableEq, Repr

/-- Why a command line is not accepted. -/
inductive UsageError
  | unexpectedArgument (argument : String)
  | unexpectedValue (value : String) (option : String)
  | missingValue (option : String)
  | invalidValue (value : String) (option : String) (cause : IntegerError)
  | repeated (option : String)
  deriving DecidableEq, Repr

/-- Text in quotes as a terminal would show it: without control sequences, of which none
reaches beyond the text. -/
def UsageError.quoted (text : String) : String := s!"'{ControlSequence.visible text}'"

/-- What a usage error says. -/
def UsageError.message : UsageError → String
  | .unexpectedArgument argument => s!"error: unexpected argument {quoted argument} found"
  | .unexpectedValue value option =>
      s!"error: unexpected value {quoted value} for '{option}' found; no more were expected"
  | .missingValue option =>
      s!"error: a value is required for '{option}' but none was supplied"
  | .invalidValue value option cause =>
      s!"error: invalid value {quoted value} for '{option}': {cause.message}"
  | .repeated option => s!"error: the argument '{option}' cannot be used multiple times"

namespace OptionSpec

/-- The word for the value: the long name in capitals, with underscores. -/
def placeholder (spec : OptionSpec) : String :=
  String.ofList (spec.long.toList.map fun c => if c = '-' then '_' else c.toUpper)

/-- How the option is written in messages. -/
def usage (spec : OptionSpec) : String := s!"--{spec.long} <{spec.placeholder}>"

/-- Read the value of the option. -/
def read (spec : OptionSpec) (value : String) : Except UsageError OptionValue :=
  match spec.kind with
  | .text => .ok (.text value)
  | .natural =>
      ((Integer.readNat value).map .number).mapError (.invalidValue value spec.usage)
  | .within low high =>
      ((Integer.readWithin low high value).map .number).mapError
        (.invalidValue value spec.usage)

end OptionSpec

/-- What a command line asks for. -/
inductive Invocation
  | help
  | values (given : List (String × OptionValue))

namespace CommandLine

/-- An option whose value may still come. -/
structure Pending where
  spec : OptionSpec
  value : Option String := none

/-- What was read so far. -/
structure Progress where
  given : List (String × OptionValue) := []
  pending : Option Pending := none

/-- Store the value of an option, which must not have one yet. -/
def Progress.store (progress : Progress) (spec : OptionSpec) (value : String) :
    Except UsageError Progress :=
  if (progress.given.lookup spec.long).isSome then .error (.repeated spec.usage)
  else
    (spec.read value).map fun read =>
      { progress with given := progress.given ++ [(spec.long, read)] }

/-- Store the value of the option that is still open. -/
def Progress.resolve (progress : Progress) : Except UsageError Progress :=
  match progress.pending with
  | none => .ok progress
  | some { spec, value := none } => .error (.missingValue spec.usage)
  | some { spec, value := some value } => { progress with pending := none }.store spec value

/-- Begin an option; its value may be attached. -/
def Progress.begin (progress : Progress) (spec : OptionSpec) (attached : Option String) :
    Except UsageError Progress := do
  let progress ← progress.resolve
  match attached with
  | some value => progress.store spec value
  | none => return { progress with pending := some { spec } }

/-- Split a long option at its first equals sign. -/
def splitAttached (text : List Char) : String × Option String :=
  match Text.cut? '=' text with
  | some (name, value) => (String.ofList name, some (String.ofList value))
  | none => (String.ofList text, none)

/-- The value attached to an option letter. -/
def attachedToLetter : List Char → Option String
  | [] => none
  | '=' :: value => some (String.ofList value)
  | value => some (String.ofList value)

/-- What one argument leads to. -/
inductive Step
  | help
  | proceed (progress : Progress)

/-- The step of asking for help, once open values are settled. -/
def askHelp (progress : Progress) : Except UsageError Step :=
  progress.resolve.map fun _ => .help

/-- Read one argument; `plain` tells that no argument is an option any more. -/
def readArgument (specs : List OptionSpec) (plain : Bool) (progress : Progress)
    (argument : String) : Except UsageError Step :=
  match plain, argument.toList with
  | false, '-' :: '-' :: name =>
      let (name, attached) := splitAttached name
      match specs.find? fun spec => spec.long = name with
      | some spec => (progress.begin spec attached).map .proceed
      | none =>
          if name = "help" then
            match attached with
            | some value => .error (.unexpectedValue value "--help")
            | none => askHelp progress
          else .error (.unexpectedArgument s!"--{name}")
  | false, '-' :: letter :: rest =>
      match specs.find? fun spec => spec.letter = some letter with
      | some spec => (progress.begin spec (attachedToLetter rest)).map .proceed
      | none =>
          if letter = 'h' then askHelp progress
          else .error (.unexpectedArgument s!"-{letter}")
  | false, _ =>
      match progress.pending with
      | some { spec, value := none } =>
          .ok (.proceed { progress with pending := some { spec, value := some argument } })
      | _ => .error (.unexpectedArgument argument)
  | true, _ => .error (.unexpectedArgument argument)

/-- Read the remaining arguments. -/
def readFrom (specs : List OptionSpec) (plain : Bool) (progress : Progress) :
    List String → Except UsageError Invocation
  | [] => progress.resolve.map fun progress => .values progress.given
  | argument :: rest =>
      if !plain && argument = "--" then readFrom specs true progress rest
      else
        match readArgument specs plain progress argument with
        | .error cause => .error cause
        | .ok .help => .ok .help
        | .ok (.proceed progress) => readFrom specs plain progress rest

/-- Read the arguments of a command line. -/
def read (specs : List OptionSpec) (arguments : List String) : Except UsageError Invocation :=
  readFrom specs false {} arguments

end CommandLine

namespace Invocation

/-- The text given for an option. -/
def text? (given : List (String × OptionValue)) (long : String) : Option String :=
  match given.lookup long with
  | some (.text s) => some s
  | _ => none

/-- The number given for an option. -/
def number? (given : List (String × OptionValue)) (long : String) : Option Nat :=
  match given.lookup long with
  | some (.number n) => some n
  | _ => none

end Invocation
end Parley
