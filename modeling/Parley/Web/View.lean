import Parley.Hub.Snapshot
import Parley.Web.Document

/-!
# Views

How snapshots are shown as documents.  Times are given in RFC 3339.
-/

namespace Parley
namespace View

/-- A room with the ids of its members. -/
def room (view : RoomView) : Document :=
  .record [("name", .text view.name.text),
    ("members", .list (view.members.map fun id => .text id.text))]

/-- Several rooms. -/
def rooms (views : List RoomView) : Document := .list (views.map room)

/-- The words for whether a transport is attached. -/
def stateText (live : Bool) : String := if live then "live" else "detached"

/-- A connection; the time of its loss is left out when it has none. -/
def connection (view : ConnectionView) : Document :=
  .record ([("connection_id", .text view.id.text), ("display_name", .text view.name.text),
      ("state", .text (stateText view.live)), ("connected_at", .text view.connectedAt.rfc3339)] ++
    (view.detachedSince.map fun since => ("detached_at", .text since.rfc3339)).toList ++
    [("backlog_len", .number view.backlogSize),
      ("rooms", .list (view.rooms.map fun name => .text name.text))])

/-- All connections and rooms. -/
def state (snapshot : Snapshot) : Document :=
  .record [("connections", .list (snapshot.connections.map connection)),
    ("rooms", rooms snapshot.rooms)]

/-- A member of a room. -/
def member (view : ConnectionView) : Document :=
  .record [("connection_id", .text view.id.text), ("display_name", .text view.name.text),
    ("connected_at", .text view.connectedAt.rfc3339)]

/-- A room with its members. -/
def detail (detail : RoomDetail) : Document :=
  .record [("name", .text detail.name.text), ("members", .list (detail.members.map member))]

end View
end Parley
