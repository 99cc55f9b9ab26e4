import Parley.Hub.Request

/-!
# Departure

How a transport ends, and what the hub is told about it.  A peer that leaves is
forgotten; one whose transport is lost may come back.
-/

namespace Parley

/-- How a transport ended. -/
inductive Departure
  /-- The peer left. -/
  | left
  /-- The transport broke, with payloads that it could not write. -/
  | lost (undelivered : List Payload)
  deriving DecidableEq, Repr

namespace Departure

/-- What the hub is told about the end of a transport. -/
def request (id : ConnectionId) (generation : Nat) : Departure → Request
  | .left => .unregister id generation
  | .lost undelivered => .detach id generation undelivered

/-- Tell the hub about the end of a transport; says whether it listened. -/
def report {m : Type → Type} [Monad m] (ask : Ask m) (id : ConnectionId) (generation : Nat)
    (departure : Departure) : m Bool :=
  (fun outcome => outcome.isOk) <$> ask (departure.request id generation)

end Departure
end Parley
