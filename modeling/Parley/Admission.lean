import Parley.Hub.Request

/-!
# Admission

A peer gets its identity in two steps.  Before its transport exists, the values
that it asks with are checked and the hub settles which id it gets; once the
transport exists, it is registered under that id.
-/

namespace Parley

/-- The identity that a peer was granted. -/
structure Admission where
  id : ConnectionId
  name : DisplayName
  deriving DecidableEq, Repr

/-- Why a peer is not let in. -/
inductive AdmissionError
  | invalidClientId (cause : NameError)
  | invalidDisplayName (cause : NameError)
  | connectionLimit (limit : Nat)
  | hubUnavailable
  deriving DecidableEq, Repr

namespace AdmissionError

/-- What an admission error says. -/
def message : AdmissionError → String
  | .invalidClientId cause => s!"invalid client id: {cause.message}"
  | .invalidDisplayName cause => s!"invalid display name: {cause.message}"
  | .connectionLimit limit => s!"connection limit of {limit} reached"
  | .hubUnavailable => Hub.unavailableText

/-- Only the ceiling is told to the peer; any other refusal means that there is
no hub to serve it. -/
def ofRefusal : Refusal → AdmissionError
  | .connectionLimit limit => .connectionLimit limit
  | _ => .hubUnavailable

end AdmissionError

namespace Admission

/-- The id that a peer asks for; an empty one counts as none. -/
def readId (clientId : Option String) : Except AdmissionError (Option ConnectionId) :=
  match clientId.filter fun text => !text.isEmpty with
  | none => .ok none
  | some text => ((ConnectionId.ofString text).map some).mapError .invalidClientId

/-- The display name that a peer asks for. -/
def readName (name : Option String) : Except AdmissionError DisplayName :=
  match name with
  | none => .ok DisplayName.default
  | some text => (DisplayName.ofString text).mapError .invalidDisplayName

/-- Check the values that a peer asks with, the id before the name. -/
def read (clientId : Option String) (name : Option String) :
    Except AdmissionError (Option ConnectionId × DisplayName) := do
  let requested ← readId clientId
  let name ← readName name
  return (requested, name)

/-- The admission that the hub's answer leads to. -/
def conclude (name : DisplayName) : Outcome → Except AdmissionError Admission
  | .ok (.identified id) => .ok { id, name }
  | .ok _ => .error .hubUnavailable
  | .error refusal => .error (.ofRefusal refusal)

/-- The registration of an admission for the consumer of an outbox. -/
def registration (admission : Admission) (outbox : OutboxId) : Request :=
  .register admission.id admission.name outbox

/-- The generation that the hub's answer to a registration gives. -/
def generation? : Outcome → Except AdmissionError Nat
  | .ok (.registered generation) => .ok generation
  | .ok _ => .error .hubUnavailable
  | .error refusal => .error (.ofRefusal refusal)

variable {m : Type → Type} [Monad m]

/-- Settle the identity of a peer; the spare id is for one that is not known. -/
def grant (ask : Ask m) (clientId : Option String) (name : Option String)
    (spare : ConnectionId) : m (Except AdmissionError Admission) :=
  match read clientId name with
  | .error cause => pure (.error cause)
  | .ok (requested, name) => conclude name <$> ask (.identify requested spare)

/-- Register the transport of an admitted peer. -/
def enroll (ask : Ask m) (admission : Admission) (outbox : OutboxId) :
    m (Except AdmissionError Nat) :=
  generation? <$> ask (admission.registration outbox)

end Admission
end Parley
