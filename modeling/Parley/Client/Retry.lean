import Parley.Client.Failure

/-!
# Reconnecting

A client tries again after every failure that may pass, until a series of
attempts is used up.  A connection that was established begins a new series.
-/

namespace Parley
namespace Retry

/-- The attempts of one series. -/
def limit : Nat := 5

/-- Seconds between two attempts. -/
def pause : Nat := 5

/-- What follows from the outcome of a session. -/
inductive Verdict
  | finished
  | failed (failure : Failure)
  /-- Try again; so many attempts of the series have failed. -/
  | again (failures : Nat)
  deriving DecidableEq, Repr

/-- The failures of the series before a session that ended like this. -/
def counted (failures : Nat) : Failure → Nat
  | .lost _ => 0
  | _ => failures

/-- What follows from the outcome of a session after so many failures. -/
def judge (failures : Nat) : Except Failure Unit → Verdict
  | .ok () => .finished
  | .error failure =>
      if failure.isRetryable then
        let failures := counted failures failure + 1
        if limit ≤ failures then .failed (.retriesExhausted limit) else .again failures
      else .failed failure

/-- The end of a client whose sessions end like this after so many failures; none
when it would try once more than there are outcomes. -/
def runFrom (failures : Nat) : List (Except Failure Unit) → Option (Except Failure Unit)
  | [] => none
  | outcome :: rest =>
      match judge failures outcome with
      | .finished => some (.ok ())
      | .failed failure => some (.error failure)
      | .again failures => runFrom failures rest

/-- The end of a client whose sessions end like this. -/
def run (outcomes : List (Except Failure Unit)) : Option (Except Failure Unit) :=
  runFrom 0 outcomes

end Retry
end Parley
