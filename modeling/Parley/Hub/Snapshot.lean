import Parley.Name.Basic
import Parley.Time.Stamp

/-!
# Snapshots

A snapshot is a copy of what the hub knows, for inspection: connections sorted
by id, rooms sorted by name.
-/

namespace Parley

/-- Sort by a text. -/
def sortByText (text : α → String) (values : List α) : List α :=
  values.mergeSort fun left right => !decide (text right < text left)

/-- A connection in a snapshot. -/
structure ConnectionView where
  id : ConnectionId
  name : DisplayName
  live : Bool
  connectedAt : Stamp
  detachedSince : Option Stamp
  backlogSize : Nat
  rooms : List RoomName
  deriving DecidableEq, Repr

/-- A room in a snapshot. -/
structure RoomView where
  name : RoomName
  members : List ConnectionId
  deriving DecidableEq, Repr

/-- A room with what is known about its members. -/
structure RoomDetail where
  name : RoomName
  members : List ConnectionView
  deriving DecidableEq, Repr

/-- What the hub knows at one moment. -/
structure Snapshot where
  connections : List ConnectionView := []
  rooms : List RoomView := []
  deriving DecidableEq, Repr, Inhabited

namespace Snapshot

/-- The view of a connection. -/
def connection? (snapshot : Snapshot) (id : ConnectionId) : Option ConnectionView :=
  snapshot.connections.find? fun view => view.id = id

/-- The view of a room. -/
def room? (snapshot : Snapshot) (name : String) : Option RoomView :=
  snapshot.rooms.find? fun view => view.name.text = name

/-- A room with the views of its members. -/
def roomDetail? (snapshot : Snapshot) (name : String) : Option RoomDetail :=
  (snapshot.room? name).map fun room =>
    { name := room.name, members := room.members.filterMap snapshot.connection? }

end Snapshot
end Parley
