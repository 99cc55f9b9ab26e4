import Parley.Hub.Request

/-!
# Inspection

The views of a hub for those who watch it.  All are taken from one snapshot.
-/

namespace Parley

/-- Why there is nothing to see. -/
inductive InspectionError
  | roomNotFound (name : String)
  | hubUnavailable
  deriving DecidableEq, Repr

/-- What an inspection error says. -/
def InspectionError.message : InspectionError → String
  | .roomNotFound name => s!"room '{name}' not found"
  | .hubUnavailable => Hub.unavailableText

namespace Inspection

/-- The snapshot in the hub's answer; any refusal hides it. -/
def conclude : Outcome → Except InspectionError Snapshot
  | .ok (.inspected snapshot) => .ok snapshot
  | _ => .error .hubUnavailable

/-- A room of a snapshot, with the views of its members. -/
def detail (name : String) (snapshot : Snapshot) : Except InspectionError RoomDetail :=
  match snapshot.roomDetail? name with
  | some detail => .ok detail
  | none => .error (.roomNotFound name)

variable {m : Type → Type} [Monad m]

/-- All that the hub knows. -/
def state (ask : Ask m) : m (Except InspectionError Snapshot) :=
  conclude <$> ask .inspect

/-- All rooms, sorted by name. -/
def rooms (ask : Ask m) : m (Except InspectionError (List RoomView)) :=
  (fun found => found.map (·.rooms)) <$> state ask

/-- One room, with the views of its members. -/
def roomDetail (ask : Ask m) (name : String) : m (Except InspectionError RoomDetail) :=
  (fun found => found.bind (detail name)) <$> state ask

end Inspection
end Parley
