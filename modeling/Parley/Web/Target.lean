import Parley.Text.Cut

/-!
# Request targets

What a request is aimed at: a path, and the query behind its question mark.  A
target may begin with its path or name a server first.  What follows a number sign
is no part of it.
-/

namespace Parley

/-- What a request is aimed at. -/
structure Target where
  path : String
  query : String := ""
  deriving DecidableEq, Repr

namespace Target

/-- Whether a character may stand in the name of a scheme. -/
def isSchemeMark (c : Char) : Bool :=
  c.isAlphanum || c = '+' || c = '-' || c = '.' || c = '~'

/-- The text behind a scheme and its two slashes. -/
def behindScheme? (text : List Char) : Option (List Char) :=
  match text.dropWhile isSchemeMark with
  | ':' :: '/' :: '/' :: rest => some rest
  | _ => none

/-- The text behind the name of a server. -/
def behindServer (text : List Char) : List Char :=
  text.dropWhile fun c => c ≠ '/' && c ≠ '?'

/-- The target with its path in front. -/
def ofOrigin (text : List Char) : Target :=
  match Text.cut? '?' text with
  | some (path, query) => { path := String.ofList path, query := String.ofList query }
  | none => { path := String.ofList text }

/-- Read a target.  Behind a scheme and a server, nothing stands for the root; a target
that begins neither with a path nor with a scheme has no path. -/
def read (text : String) : Target :=
  let text := text.toList.takeWhile (· ≠ '#')
  if text.head? = some '/' then ofOrigin text
  else
    match behindScheme? text with
    | some rest =>
        let target := ofOrigin (behindServer rest)
        if target.path = "" then { target with path := "/" } else target
    | none => { path := "" }

end Target
end Parley
