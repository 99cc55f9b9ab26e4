/-!
# Control sequences

Text for a terminal may hold control sequences: an escape character and what belongs
to it.  Where a sequence ends depends on its kind; one that never ends takes away all
that follows.  What is left without them is what is seen of the text.
-/

namespace Parley
namespace ControlSequence

/-- Where a reader of text is. -/
inductive Place
  /-- Outside of all sequences. -/
  | ground
  /-- Right behind an escape character. -/
  | escape
  /-- In a short sequence that selects something. -/
  | selection
  /-- In a command, which a letter ends. -/
  | command
  /-- At the start of a string for a device. -/
  | device
  | deviceParameters
  | deviceSelection
  /-- In a string that lasts until its terminator. -/
  | string
  /-- In a string that a bell ends. -/
  | title
  deriving DecidableEq, Repr

/-- Whether the code of a character lies in the given range. -/
def within (low high : Nat) (c : Char) : Bool := low ≤ c.toNat && c.toNat ≤ high

/-- The terminator of strings is a byte, so it is found inside of characters too. -/
def holdsTerminator (c : Char) : Bool := (String.utf8EncodeChar c).contains 0x9C

namespace Place

/-- Where a reader is behind a character.  An escape character begins a sequence
anywhere, and the two characters that cancel end one anywhere. -/
def next (place : Place) (c : Char) : Place :=
  if c.toNat = 0x1B then .escape
  else if c.toNat = 0x18 ∨ c.toNat = 0x1A then .ground
  else
    match place with
    | .ground => .ground
    | .escape =>
        if c = '[' then .command
        else if c = ']' then .title
        else if c = 'P' then .device
        else if c = 'X' ∨ c = '^' ∨ c = '_' then .string
        else if within 0x20 0x2F c then .selection
        else if within 0x30 0x7E c then .ground
        else .escape
    | .selection => if within 0x30 0x7E c then .ground else .selection
    | .command => if within 0x40 0x7E c then .ground else .command
    | .device =>
        if within 0x20 0x2F c then .deviceSelection
        else if within 0x30 0x3F c then .deviceParameters
        else if within 0x40 0x7E c then .string
        else .device
    | .deviceParameters =>
        if within 0x20 0x2F c then .deviceSelection
        else if within 0x3C 0x7E c then .string
        else .deviceParameters
    | .deviceSelection => if within 0x30 0x7E c then .string else .deviceSelection
    | .string => if holdsTerminator c then .ground else .string
    | .title => if c.toNat = 0x07 then .ground else .title

/-- Whether a character is seen at a place.  Tabs and ends of lines are seen even inside
of short sequences. -/
def shows (place : Place) (c : Char) : Bool :=
  let blank := c = '\t' || c = '\n' || c.toNat = 0x0C || c = '\r'
  match place with
  | .ground => blank || (0x20 ≤ c.toNat && c.toNat ≠ 0x7F)
  | .escape | .selection | .command => blank
  | _ => false

end Place

/-- What is seen of text from a place on.  Once a character is seen, the ones behind it
are seen as outside of all sequences, until one is not; `seeing` tells that this is
so.  The place is kept for the time after that, unless a character beyond ASCII
is seen. -/
def visibleFrom (place : Place) (seeing : Bool) : List Char → List Char
  | [] => []
  | c :: rest =>
      if (if seeing then Place.ground else place).shows c then
        c :: visibleFrom (if c.toNat < 0x80 then place else .ground) true rest
      else visibleFrom (place.next c) false rest

/-- What is seen of text. -/
def visible (text : String) : String := String.ofList (visibleFrom .ground true text.toList)

end ControlSequence
end Parley
