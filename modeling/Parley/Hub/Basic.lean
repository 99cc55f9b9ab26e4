import Parley.Connection
import Parley.Hub.Request
import Parley.Roster
import Parley.Settings

/-!
# Hubs

A hub owns the connections and the roster of rooms and serves one request at a
time.  Each request is one function on the hub; `Hub.serve` carries out any of
them.
-/

namespace Parley

/-- The end of the grace of a lost transport. -/
structure Expiry where
  due : Moment
  id : ConnectionId
  generation : Generation
  deriving DecidableEq, Repr

/-- Connections, rooms and outboxes, and the clock they are stamped by. -/
structure Hub where
  settings : Settings
  connections : Table ConnectionId Connection := .empty
  roster : Roster
  /-- The generation given out last. -/
  lastGeneration : Generation := 0
  outboxes : Outboxes := .empty
  /-- The graces that still run, in the order in which they began. -/
  expiries : List Expiry := []
  /-- The stamp of moment zero. -/
  startedAt : Stamp
  now : Moment := 0

namespace Hub

/-- A hub without connections. -/
def new (settings : Settings) (startedAt : Stamp) : Hub :=
  { settings, roster := { maxRooms := settings.maxRooms }, startedAt }

/-- The stamp of the present. -/
def stamp (hub : Hub) : Stamp := hub.startedAt + hub.now.milliseconds

/-- The ceiling that keeps another connection from being registered. -/
def ceiling? (hub : Hub) : Option Nat :=
  hub.settings.maxConnections.filter fun limit => limit ≤ hub.connections.size

/-- The id for a peer: a known one is kept; a spare one is given out only while
there is room. -/
def identify (hub : Hub) (requested : Option ConnectionId) (spare : ConnectionId) : Outcome :=
  match requested.filter hub.connections.contains with
  | some id => .ok (.identified id)
  | none =>
      match hub.ceiling? with
      | some limit => .error (.connectionLimit limit)
      | none => .ok (.identified spare)

/-- Let go of an outbox. -/
def release (hub : Hub) (outbox : OutboxId) : Hub :=
  { hub with outboxes := hub.outboxes.release outbox }

/-- Attach a transport to a known connection, or register a new connection while
there is room. -/
def register (hub : Hub) (id : ConnectionId) (name : DisplayName) (outbox : OutboxId) :
    Outcome × Hub :=
  let generation := hub.lastGeneration + 1
  match hub.connections.get? id with
  | some connection =>
      let (_, connection, outboxes) := connection.attach name outbox generation hub.outboxes
      (.ok (.registered generation),
        { hub with
          connections := hub.connections.set id connection
          outboxes
          lastGeneration := generation })
  | none =>
      match hub.ceiling? with
      | some limit => (.error (.connectionLimit limit), hub.release outbox)
      | none =>
          let connection :=
            Connection.new id name generation outbox hub.settings.backlogCapacity hub.stamp
          (.ok (.registered generation),
            { hub with
              connections := hub.connections.set id connection
              lastGeneration := generation })

/-- Forget a connection: it leaves the table and every room, and its outbox is
released. -/
def purge (hub : Hub) (id : ConnectionId) : Hub :=
  match hub.connections.get? id with
  | none => hub
  | some connection =>
      { hub with
        connections := hub.connections.erase id
        roster := (hub.roster.removeEverywhere id).2
        outboxes := Connection.releaseLink connection.link hub.outboxes }

/-- Forget a connection whose latest transport has ended for good. -/
def unregister (hub : Hub) (id : ConnectionId) (generation : Generation) : Hub :=
  match hub.connections.get? id with
  | some connection => if connection.generation = generation then hub.purge id else hub
  | none => hub

/-- Detach a connection whose latest transport was lost, for the length of the
grace.  A transport that was superseded only hands over what it could not
write. -/
def detach (hub : Hub) (id : ConnectionId) (generation : Generation)
    (undelivered : List Payload) : Hub :=
  match hub.connections.get? id with
  | none => hub
  | some connection =>
      if connection.generation ≠ generation then
        let (_, connection, outboxes) := connection.deliverAll undelivered hub.outboxes
        { hub with connections := hub.connections.set id connection, outboxes }
      else if hub.settings.reconnectGrace.isZero then hub.purge id
      else
        let (_, connection, outboxes) := connection.detach undelivered hub.stamp hub.outboxes
        let due := hub.now + hub.settings.reconnectGrace.nanoseconds
        { hub with
          connections := hub.connections.set id connection
          outboxes
          expiries := hub.expiries ++ [{ due, id, generation }] }

/-- Forget a connection that is still detached when its grace is over. -/
def expire (hub : Hub) (id : ConnectionId) (generation : Generation) : Hub :=
  match hub.connections.get? id with
  | some connection =>
      if connection.generation = generation && !connection.isLive then hub.purge id else hub
  | none => hub

/-- Give a connection a payload. -/
def deliverTo (hub : Hub) (payload : Payload) (id : ConnectionId) : Hub :=
  match hub.connections.get? id with
  | none => hub
  | some connection =>
      let (_, connection, outboxes) := connection.deliver payload hub.outboxes
      { hub with connections := hub.connections.set id connection, outboxes }

/-- Give several connections a payload. -/
def deliverToAll (hub : Hub) (payload : Payload) (ids : List ConnectionId) : Hub :=
  ids.foldl (fun hub id => hub.deliverTo payload id) hub

/-- The connections that a message to a room reaches: its members, without the
sender. -/
def roomAudience (hub : Hub) (room : RoomName) (sender : Option ConnectionId) :
    List ConnectionId :=
  (hub.roster.members room).filter fun id => some id ≠ sender

/-- The connections with a display name. -/
def nameAudience (hub : Hub) (name : DisplayName) : List ConnectionId :=
  (hub.connections.entries.filter fun entry => entry.2.name = name).map Prod.fst

/-- Add a registered connection to a room. -/
def joinRoom (hub : Hub) (id : ConnectionId) (room : RoomName) : Outcome × Hub :=
  if !hub.connections.contains id then (.error (.unknownConnection id.text), hub)
  else
    match hub.roster.join id room with
    | .ok (_, roster) => (.ok .done, { hub with roster })
    | .error limit => (.error (.roomLimit limit), hub)

/-- Take a connection out of a room. -/
def leaveRoom (hub : Hub) (id : ConnectionId) (room : RoomName) : Hub :=
  { hub with roster := (hub.roster.leave id room).2 }

/-- What the snapshot shows of a connection. -/
def viewConnection (hub : Hub) (connection : Connection) : ConnectionView :=
  { id := connection.id
    name := connection.name
    live := connection.isLive
    connectedAt := connection.connectedAt
    detachedSince := connection.detachedSince
    backlogSize := connection.backlog.size
    rooms := sortByText RoomName.text (hub.roster.roomsOf connection.id) }

/-- What the snapshot shows of a room. -/
def viewRoom (room : RoomName × List ConnectionId) : RoomView :=
  { name := room.1, members := sortByText ConnectionId.text room.2 }

/-- A copy of what the hub knows. -/
def snapshot (hub : Hub) : Snapshot :=
  { connections := sortByText (·.id.text) (hub.connections.values.map hub.viewConnection)
    rooms := sortByText (·.name.text) (hub.roster.rooms.entries.map viewRoom) }

/-- Forget all connections and rooms. -/
def closeAll (hub : Hub) : Hub :=
  if hub.connections.isEmpty then hub
  else
    { hub with
      connections := .empty
      roster := hub.roster.clear
      outboxes := hub.connections.values.foldl
        (fun boxes connection => Connection.releaseLink connection.link boxes) hub.outboxes }

/-- Carry out one request. -/
def serve (hub : Hub) : Request → Outcome × Hub
  | .identify requested spare => (hub.identify requested spare, hub)
  | .register id name outbox => hub.register id name outbox
  | .unregister id generation => (.ok .done, hub.unregister id generation)
  | .detach id generation undelivered => (.ok .done, hub.detach id generation undelivered)
  | .expire id generation => (.ok .done, hub.expire id generation)
  | .broadcast payload => (.ok .done, hub.deliverToAll payload hub.connections.keys)
  | .joinRoom id room => hub.joinRoom id room
  | .leaveRoom id room => (.ok .done, hub.leaveRoom id room)
  | .sendToRoom room payload sender =>
      (.ok .done, hub.deliverToAll payload (hub.roomAudience room sender))
  | .sendToName name payload => (.ok .done, hub.deliverToAll payload (hub.nameAudience name))
  | .inspect => (.ok (.inspected hub.snapshot), hub)
  | .shutdown => (.ok .done, hub.closeAll)

end Hub
end Parley
