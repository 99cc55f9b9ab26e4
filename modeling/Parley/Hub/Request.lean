import Parley.Hub.Snapshot
import Parley.Outbox

/-!
# Requests

What can be asked of a hub, and what it answers.
-/

namespace Parley

/-- What can be asked of a hub. -/
inductive Request
  /-- Which id a peer gets: the one it asks for if that is known, otherwise the
  spare one. -/
  | identify (requested : Option ConnectionId) (spare : ConnectionId)
  /-- Attach a transport. -/
  | register (id : ConnectionId) (name : DisplayName) (outbox : OutboxId)
  /-- The peer of a transport has left. -/
  | unregister (id : ConnectionId) (generation : Nat)
  /-- A transport was lost with payloads it could not write. -/
  | detach (id : ConnectionId) (generation : Nat) (undelivered : List Payload)
  /-- The grace of a lost transport is over. -/
  | expire (id : ConnectionId) (generation : Nat)
  | broadcast (payload : Payload)
  | joinRoom (id : ConnectionId) (room : RoomName)
  | leaveRoom (id : ConnectionId) (room : RoomName)
  | sendToRoom (room : RoomName) (payload : Payload) (sender : Option ConnectionId)
  | sendToName (name : DisplayName) (payload : Payload)
  | inspect
  | shutdown
  deriving DecidableEq, Repr

/-- Whether the answer to a request is waited for. -/
def Request.awaited : Request → Bool
  | .unregister .. | .detach .. | .expire .. | .broadcast .. | .sendToRoom ..
  | .sendToName .. => false
  | _ => true

/-- The outbox that a request hands over. -/
def Request.outbox? : Request → Option OutboxId
  | .register _ _ outbox => some outbox
  | _ => none

/-- What a hub answers to a request that it carries out. -/
inductive Answer
  | done
  | identified (id : ConnectionId)
  | registered (generation : Nat)
  | inspected (snapshot : Snapshot)
  deriving DecidableEq, Repr

/-- Why a request is not carried out. -/
inductive Refusal
  | stopped
  | connectionLimit (limit : Nat)
  | roomLimit (limit : Nat)
  | unknownConnection (id : String)
  deriving DecidableEq, Repr

/-- What a refusal says. -/
def Refusal.message : Refusal → String
  | .stopped => "hub channel closed"
  | .connectionLimit limit => s!"connection limit of {limit} reached"
  | .roomLimit limit => s!"room limit of {limit} reached"
  | .unknownConnection id => s!"connection '{id}' is not registered"

/-- The outcome of a request. -/
abbrev Outcome := Except Refusal Answer

/-- A way to ask a hub and wait for the outcome. -/
abbrev Ask (m : Type → Type) := Request → m Outcome

/-- What a peer is told when the hub has stopped. -/
def Hub.unavailableText : String := "hub is not running"

end Parley
