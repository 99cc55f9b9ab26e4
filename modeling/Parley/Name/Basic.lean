import Parley.Text.Blank
import Parley.Text.Utf8

/-!
# Names

Connection ids, display names and room names.  Each is a string that passed
the check of its kind, and each check refuses a string for one cause.
-/

namespace Parley

/-- The kinds of names. -/
inductive NameKind
  | connectionId
  | displayName
  | roomName
  deriving DecidableEq, Repr

/-- The words for a kind of name. -/
def NameKind.words : NameKind → String
  | .connectionId => "connection id"
  | .displayName => "display name"
  | .roomName => "room name"

/-- Why a string is no name. -/
inductive NameError
  | empty (kind : NameKind)
  | tooLong (kind : NameKind) (limit : Nat)
  | invalidCharacters (kind : NameKind)
  deriving DecidableEq, Repr

/-- What a name error says. -/
def NameError.message : NameError → String
  | .empty kind => s!"{kind.words} must not be empty"
  | .tooLong kind limit => s!"{kind.words} must be at most {limit} characters"
  | .invalidCharacters kind => s!"{kind.words} contains invalid characters"

namespace Name

/-- ASCII letters and digits. -/
def isPlain (c : Char) : Bool := c.isAlphanum

/-- Characters of a connection id. -/
def isIdCharacter (c : Char) : Bool := isPlain c || c = '-' || c = '_'

/-- Characters of a display name. -/
def isDisplayCharacter (c : Char) : Bool := isPlain c || c = '_' || c = '-' || c = '.'

/-- The longest connection id, in bytes. -/
def idLimit : Nat := 64

/-- The longest display name, in bytes. -/
def displayLimit : Nat := 64

/-- The longest room name, in characters. -/
def roomLimit : Nat := 128

/-- A connection id has 1 to 64 bytes, all of them letters, digits, hyphens or
underscores. -/
def idFault (text : List Char) : Option NameError :=
  if text.isEmpty then some (.empty .connectionId)
  else if Utf8.byteCount text > idLimit then some (.tooLong .connectionId idLimit)
  else if text.all isIdCharacter then none
  else some (.invalidCharacters .connectionId)

/-- Whether text can be a display name: 1 to 64 bytes, all of them letters,
digits, underscores, hyphens or dots. -/
def isDisplay (text : List Char) : Bool :=
  !text.isEmpty && Utf8.byteCount text ≤ displayLimit && text.all isDisplayCharacter

/-- Text that is not empty is either a display name or has invalid characters;
length is no cause of its own. -/
def displayFault (text : List Char) : Option NameError :=
  if text.isEmpty then some (.empty .displayName)
  else if isDisplay text then none
  else some (.invalidCharacters .displayName)

/-- A room name has 1 to 128 characters, none of them blank. -/
def roomFault (text : List Char) : Option NameError :=
  if text.isEmpty then some (.empty .roomName)
  else if text.length > roomLimit then some (.tooLong .roomName roomLimit)
  else if text.any Text.isBlank then some (.invalidCharacters .roomName)
  else none

end Name

/-- The identity of a connection, kept across its transports. -/
structure ConnectionId where
  text : String
  checked : Name.idFault text.toList = none
  deriving DecidableEq, Repr

/-- The label by which private messages find connections; it need not be
unique. -/
structure DisplayName where
  text : String
  checked : Name.displayFault text.toList = none
  deriving DecidableEq, Repr

/-- The name of a room. -/
structure RoomName where
  text : String
  checked : Name.roomFault text.toList = none
  deriving DecidableEq, Repr

/-- The connection id with this text. -/
def ConnectionId.ofString (text : String) : Except NameError ConnectionId :=
  match checked : Name.idFault text.toList with
  | none => .ok ⟨text, checked⟩
  | some cause => .error cause

/-- The display name with this text. -/
def DisplayName.ofString (text : String) : Except NameError DisplayName :=
  match checked : Name.displayFault text.toList with
  | none => .ok ⟨text, checked⟩
  | some cause => .error cause

/-- The room name with this text. -/
def RoomName.ofString (text : String) : Except NameError RoomName :=
  match checked : Name.roomFault text.toList with
  | none => .ok ⟨text, checked⟩
  | some cause => .error cause

/-- The name of a peer that chose none. -/
def DisplayName.default : DisplayName := ⟨"root", by decide⟩

instance : Inhabited DisplayName := ⟨DisplayName.default⟩

/-- An accepted display name keeps its text. -/
theorem DisplayName.text_of_ofString {text : String} {name : DisplayName}
    (accepted : DisplayName.ofString text = .ok name) : name.text = text := by
  unfold ofString at accepted
  split at accepted
  · cases accepted
    rfl
  · cases accepted

/-- An accepted room name keeps its text. -/
theorem RoomName.text_of_ofString {text : String} {name : RoomName}
    (accepted : RoomName.ofString text = .ok name) : name.text = text := by
  unfold ofString at accepted
  split at accepted
  · cases accepted
    rfl
  · cases accepted

/-- The text of a connection id gives it back. -/
@[simp]
theorem ConnectionId.ofString_text (id : ConnectionId) : ofString id.text = .ok id := by
  unfold ofString
  split
  · rfl
  · rename_i cause refused
    rw [id.checked] at refused
    cases refused

/-- The text of a display name gives it back. -/
@[simp]
theorem DisplayName.ofString_text (name : DisplayName) : ofString name.text = .ok name := by
  unfold ofString
  split
  · rfl
  · rename_i cause refused
    rw [name.checked] at refused
    cases refused

/-- The text of a room name gives it back. -/
@[simp]
theorem RoomName.ofString_text (name : RoomName) : ofString name.text = .ok name := by
  unfold ofString
  split
  · rfl
  · rename_i cause refused
    rw [name.checked] at refused
    cases refused

end Parley
