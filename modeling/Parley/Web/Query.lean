import Parley.Web.Form

/-!
# Query values

The values that a peer connects with.  Each may be given once.
-/

namespace Parley

/-- The values that a peer connects with. -/
structure ConnectQuery where
  clientId : Option String := none
  name : Option String := none
  deriving DecidableEq, Repr

/-- A value that is given more than once. -/
structure DuplicateField where
  name : String
  deriving DecidableEq, Repr

/-- What is said about a value that is given more than once. -/
def DuplicateField.message (duplicate : DuplicateField) : String :=
  s!"Failed to deserialize query string: duplicate field `{duplicate.name}`"

namespace ConnectQuery

/-- Take up one pair; names without a meaning are passed over. -/
def add (query : ConnectQuery) (pair : String × String) : Except DuplicateField ConnectQuery :=
  match pair.1 with
  | "client_id" =>
      if query.clientId.isSome then .error ⟨pair.1⟩
      else .ok { query with clientId := some pair.2 }
  | "name" =>
      if query.name.isSome then .error ⟨pair.1⟩ else .ok { query with name := some pair.2 }
  | _ => .ok query

/-- The values of a query. -/
def parse (query : String) : Except DuplicateField ConnectQuery :=
  (Form.pairs query).foldlM add {}

end ConnectQuery
end Parley
