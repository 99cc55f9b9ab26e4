import Parley.Text.Blank
import Parley.Text.Cut

/-!
# Commands

The frames a peer sends.  A frame is normalized and then read by the word it
begins with; a frame that begins with no command word is a broadcast of the
whole frame.
-/

namespace Parley

/-- The words that begin a command. -/
inductive CommandWord
  | joinRoom
  | leaveRoom
  | roomMessage
  | privateMessage
  deriving DecidableEq, Repr

/-- How a command word is written. -/
def CommandWord.text : CommandWord → String
  | .joinRoom => "join_room:"
  | .leaveRoom => "leave_room:"
  | .roomMessage => "room_message:"
  | .privateMessage => "private_message:"

/-- All command words. -/
def CommandWord.all : List CommandWord :=
  [.joinRoom, .leaveRoom, .roomMessage, .privateMessage]

/-- What a peer asks for. -/
inductive Command
  | joinRoom (room : String)
  | leaveRoom (room : String)
  | roomMessage (room : String) (body : String)
  | privateMessage (recipient : String) (body : String)
  | broadcast (body : String)
  deriving DecidableEq, Repr

/-- Why a frame is no command. -/
inductive FrameError
  | emptyFrame
  | missingRoomName (word : CommandWord)
  | missingBody (word : CommandWord)
  | missingRecipient
  deriving DecidableEq, Repr

/-- What a frame error says. -/
def FrameError.message : FrameError → String
  | .emptyFrame => "frame is empty"
  | .missingRoomName word => s!"'{word.text}' command without a room name"
  | .missingBody word => s!"'{word.text}' command without a message body"
  | .missingRecipient => "private message without a recipient"

namespace Frame

/-- Line ends count as spaces. -/
def unbroken (c : Char) : Char :=
  if c = '\r' ∨ c = '\n' then ' ' else c

/-- A frame on one line, without blanks around it. -/
def normalizeText (frame : List Char) : List Char :=
  Text.trim (frame.map unbroken)

/-- A frame on one line, without blanks around it. -/
def normalize (frame : String) : String :=
  String.ofList (normalizeText frame.toList)

end Frame

namespace CommandWord

/-- The command word at the front of some text, and the text behind it. -/
def recognize? (text : List Char) : Option (CommandWord × List Char) :=
  all.findSome? fun word => (word.text.toList.isPrefixOf? text).map fun rest => (word, rest)

/-- The error of a command whose target is missing. -/
def missingTarget : CommandWord → FrameError
  | .privateMessage => .missingRecipient
  | word => .missingRoomName word

end CommandWord

namespace Command

/-- A room name is all the text behind the word, without blanks around it. -/
def readRoom (word : CommandWord) (rest : List Char) : Except FrameError String :=
  let room := Text.trim rest
  if room.isEmpty then .error (.missingRoomName word) else .ok (String.ofList room)

/-- A target reaches to the first space; the body is all the text behind that
space and must not be blank. -/
def readTarget (word : CommandWord) (rest : List Char) :
    Except FrameError (String × String) :=
  match Text.cut? ' ' rest with
  | none => .error (if rest.isEmpty then word.missingTarget else .missingBody word)
  | some (target, body) =>
      if target.isEmpty then .error word.missingTarget
      else if Text.allBlank body then .error (.missingBody word)
      else .ok (String.ofList target, String.ofList body)

/-- Read the text behind a command word. -/
def readBehind : CommandWord → List Char → Except FrameError Command
  | .joinRoom, rest => (readRoom .joinRoom rest).map .joinRoom
  | .leaveRoom, rest => (readRoom .leaveRoom rest).map .leaveRoom
  | .roomMessage, rest =>
      (readTarget .roomMessage rest).map fun (room, body) => .roomMessage room body
  | .privateMessage, rest =>
      (readTarget .privateMessage rest).map fun (recipient, body) =>
        .privateMessage recipient body

/-- Read a frame that is already normalized. -/
def readNormal (text : List Char) : Except FrameError Command :=
  if text.isEmpty then .error .emptyFrame
  else match CommandWord.recognize? text with
    | some (word, rest) => readBehind word rest
    | none => .ok (.broadcast (String.ofList text))

/-- The command of a frame. -/
def parse (frame : String) : Except FrameError Command :=
  readNormal (Frame.normalizeText frame.toList)

/-- The frame of a command. -/
def encode : Command → String
  | .joinRoom room => CommandWord.joinRoom.text ++ room
  | .leaveRoom room => CommandWord.leaveRoom.text ++ room
  | .roomMessage room body => CommandWord.roomMessage.text ++ room ++ " " ++ body
  | .privateMessage recipient body =>
      CommandWord.privateMessage.text ++ recipient ++ " " ++ body
  | .broadcast body => body

end Command
end Parley
