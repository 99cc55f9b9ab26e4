import Parley.Admission
import Parley.Inspection
import Parley.Web.Query
import Parley.Web.Target
import Parley.Web.View

/-!
# Routes

Which resource a request is for, and how it is answered.  All resources are read
only; one of them is the place where peers connect.
-/

namespace Parley

/-- The resources of the server. -/
inductive Route
  | connect
  | health
  | rooms
  | room (name : List UInt8)
  | hub
  deriving DecidableEq, Repr

/-- The content of an answer. -/
inductive Body
  | nothing
  | text (s : String)
  | document (value : Document)

/-- An answer of the server. -/
structure Response where
  status : Nat
  body : Body := .nothing

/-- The text of an answer. -/
def Body.render : Body → String
  | .nothing => ""
  | .text s => s
  | .document value => value.render

/-- The kind of content, where there is some. -/
def Body.contentType? : Body → Option String
  | .nothing => none
  | .text _ => some "text/plain; charset=utf-8"
  | .document _ => some "application/json"

/-- What an upgrade leads to. -/
inductive Upgrade
  | accepted (admission : Admission)
  | refused (response : Response)

namespace Route

/-- The resource of a path. -/
def ofPath? (path : String) : Option Route :=
  match (Text.pieces '/' path.toList).map String.ofList with
  | ["", "ws"] => some .connect
  | ["", "api", "health"] => some .health
  | ["", "api", "rooms"] => some .rooms
  | ["", "api", "rooms", name] =>
      if name.isEmpty then none else some (.room (Percent.decode (Utf8.encode name)))
  | ["", "debug", "hub"] => some .hub
  | _ => none

end Route

namespace Response

/-- The answer to a failed inspection. -/
def ofInspectionError : InspectionError → Response
  | .roomNotFound _ => { status := 404 }
  | .hubUnavailable => { status := 503 }

/-- The answer to an inspection. -/
def ofInspection (view : α → Document) : Except InspectionError α → Response
  | .ok value => { status := 200, body := .document (view value) }
  | .error cause => ofInspectionError cause

/-- The answer to a peer that is not let in: values that are none are its own
fault. -/
def ofAdmissionError (cause : AdmissionError) : Response :=
  match cause with
  | .invalidClientId _ | .invalidDisplayName _ => { status := 400, body := .text cause.message }
  | .connectionLimit _ | .hubUnavailable => { status := 503, body := .text cause.message }

/-- The answer without its content. -/
def withoutBody (response : Response) : Response := { response with body := .nothing }

end Response

namespace Web

variable {m : Type → Type} [Monad m]

/-- The answer to a plain reading request. -/
def read (ask : Ask m) : Route → m Response
  | .connect =>
      pure { status := 400, body := .text "Connection header did not include 'upgrade'" }
  | .health => pure { status := 200, body := .document (.record [("status", .text "ok")]) }
  | .rooms => Response.ofInspection View.rooms <$> Inspection.rooms ask
  | .room name =>
      match Utf8.decode? name with
      | some name => Response.ofInspection View.detail <$> Inspection.roomDetail ask name
      | none =>
          pure { status := 400, body := .text "Invalid URL: Invalid UTF-8 in `room_name`" }
  | .hub => Response.ofInspection View.state <$> Inspection.state ask

/-- The answer to a request. -/
def respond (ask : Ask m) (method : String) (target : Target) : m Response :=
  match Route.ofPath? target.path with
  | none => pure { status := 404 }
  | some route =>
      if method = "GET" then read ask route
      else if method = "HEAD" then
        if route = .connect then pure { status := 405 }
        else Response.withoutBody <$> read ask route
      else pure { status := 405 }

/-- The answer to an upgrade at the place where peers connect; the spare id is for a
peer that is not known. -/
def upgrade (ask : Ask m) (target : Target) (spare : ConnectionId) : m Upgrade :=
  match ConnectQuery.parse target.query with
  | .error duplicate => pure (.refused { status := 400, body := .text duplicate.message })
  | .ok values => do
      match ← Admission.grant ask values.clientId values.name spare with
      | .ok admission => pure (.accepted admission)
      | .error cause => pure (.refused (.ofAdmissionError cause))

end Web
end Parley
