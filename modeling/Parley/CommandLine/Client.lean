import Parley.Client.Retry
import Parley.CommandLine.Launch
import Parley.Name.Basic

/-!
# The client's command line

Which server a client connects to, under which name, and as which earlier
connection.
-/

namespace Parley

/-- How a client connects. -/
structure ClientOptions where
  name : String := DisplayName.default.text
  url : String := "ws://127.0.0.1:8080/ws"
  clientId : Option String := none
  deriving DecidableEq, Repr

namespace ClientOptions

/-- The options of the client. -/
def specs : List OptionSpec :=
  [{ long := "name", letter := some 'n', kind := .text },
    { long := "url", letter := some 'u', kind := .text },
    { long := "client-id", letter := some 'c', kind := .text }]

/-- The options with the given values. -/
def ofValues (given : List (String × OptionValue)) : ClientOptions :=
  let defaults : ClientOptions := {}
  { name := (Invocation.text? given "name").getD defaults.name
    url := (Invocation.text? given "url").getD defaults.url
    clientId := Invocation.text? given "client-id" }

/-- What is said about a name that is none. -/
def invalidName (name : String) : String :=
  s!"Invalid name '{name}': use 1-64 letters, digits, '_', '-' or '.'"

/-- What the client does with its arguments. -/
def launch (arguments : List String) : Launch ClientOptions :=
  match CommandLine.read specs arguments with
  | .error cause => .misused cause
  | .ok .help => .help
  | .ok (.values given) =>
      let options := ofValues given
      if Name.isDisplay options.name.toList then .run options []
      else .unfit (.error (invalidName options.name))

/-- What is seen of a client whose sessions end like this. -/
def ending (outcomes : List (Except Failure Unit)) (_ : ClientOptions) (log : List LogLine) :
    LaunchReport :=
  match Retry.run outcomes with
  | none => { exit := none, log }
  | some (.ok ()) => { exit := some 0, log }
  | some (.error failure) =>
      { exit := some 1, log := log ++ [.error s!"Client error: {failure.message}"] }

end ClientOptions
end Parley
