import Parley.Frame.Command

/-!
# Typed lines

What a line typed at a terminal asks for.  A line that begins with a slash is a
command of the terminal; any other line is a frame as it stands.
-/

namespace Parley

/-- What a typed line asks for. -/
inductive Input
  | frame (text : String)
  | help
  | quit
  deriving DecidableEq, Repr

/-- Why a typed line asks for nothing. -/
inductive InputError
  | usage (form : String)
  | unknownCommand (word : String)
  deriving DecidableEq, Repr

/-- What an input error says. -/
def InputError.message : InputError → String
  | .usage form => s!"usage: {form}"
  | .unknownCommand word => s!"unknown command '/{word}', type /help"

/-- The commands of the terminal. -/
inductive SlashCommand
  | join
  | leave
  | room
  | msg
  | help
  | quit
  deriving DecidableEq, Repr

namespace SlashCommand

/-- The command that a word stands for. -/
def ofWord? (word : String) : Option SlashCommand :=
  [("join", join), ("leave", leave), ("room", room), ("msg", msg), ("help", help),
    ("quit", quit), ("exit", quit)].lookup word

/-- How a command is typed. -/
def form : SlashCommand → String
  | .join => "/join <room>"
  | .leave => "/leave <room>"
  | .room => "/room <room> <text>"
  | .msg => "/msg <name> <text>"
  | .help => "/help"
  | .quit => "/quit"

/-- A single argument is not empty and has no blanks. -/
def singleArgument (arguments : List Char) : Option String :=
  if arguments.isEmpty || arguments.any Text.isBlank then none
  else some (String.ofList arguments)

/-- A target reaches to the first space; the text behind it must not be blank and
loses the blanks around it. -/
def targetAndText (arguments : List Char) : Option (String × String) :=
  match Text.cut? ' ' arguments with
  | some (target, text) =>
      let text := Text.trim text
      if text.isEmpty then none else some (String.ofList target, String.ofList text)
  | none => none

/-- What a command asks for with the given arguments; none when they do not fit
its form. -/
def input? (arguments : List Char) : SlashCommand → Option Input
  | .join => (singleArgument arguments).map fun room => .frame (Command.joinRoom room).encode
  | .leave => (singleArgument arguments).map fun room => .frame (Command.leaveRoom room).encode
  | .room => (targetAndText arguments).map fun (target, body) =>
      .frame (Command.roomMessage target body).encode
  | .msg => (targetAndText arguments).map fun (recipient, body) =>
      .frame (Command.privateMessage recipient body).encode
  | .help => some .help
  | .quit => some .quit

end SlashCommand

namespace Input

/-- The lines of help. -/
def helpText : String :=
  String.intercalate "\n"
    ["/join <room>          join a room",
      "/leave <room>         leave a room",
      "/room <room> <text>   send to a room",
      "/msg <name> <text>    send to everyone named <name>",
      "/quit                 exit",
      "<text>                send to everyone"]

/-- The word of a slash command and the text behind the first space. -/
def splitWord (rest : List Char) : List Char × List Char :=
  (Text.cut? ' ' rest).getD (rest, [])

/-- Read the text behind a slash. -/
def readSlash (rest : List Char) : Except InputError Input :=
  let (word, arguments) := splitWord rest
  match SlashCommand.ofWord? (String.ofList word) with
  | none => .error (.unknownCommand (String.ofList word))
  | some command =>
      match command.input? (Text.trim arguments) with
      | some input => .ok input
      | none => .error (.usage command.form)

/-- Read a typed line; a blank one asks for nothing. -/
def parse (line : String) : Option (Except InputError Input) :=
  match Text.trim line.toList with
  | [] => none
  | '/' :: rest => some (readSlash rest)
  | text => some (.ok (.frame (String.ofList text)))

end Input
end Parley
