/-!
# Failures of a client

Why a client has no connection, or no longer has one.
-/

namespace Parley

/-- Why a client has no connection. -/
inductive Failure
  /-- The server turned the client away. -/
  | rejected (status : Nat) (reason : String)
  /-- The server could not be reached. -/
  | unreachable (reason : String)
  /-- An established connection ended. -/
  | lost (reason : String)
  | retriesExhausted (attempts : Nat)
  deriving DecidableEq, Repr

namespace Failure

/-- What a failure says. -/
def message : Failure → String
  | .rejected status reason => s!"Server rejected the connection ({status}): {reason}"
  | .unreachable reason => s!"Connection error: {reason}"
  | .lost reason => s!"Connection lost: {reason}"
  | .retriesExhausted attempts => s!"Failed to reconnect after {attempts} attempts"

/-- Whether another attempt with the same values can succeed. -/
def isRetryable : Failure → Bool
  | .rejected status _ => 500 ≤ status
  | .unreachable _ => true
  | .lost _ => true
  | .retriesExhausted _ => false

end Failure
end Parley
