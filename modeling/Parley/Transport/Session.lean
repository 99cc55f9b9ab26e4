import Parley.Admission
import Parley.Departure
import Parley.Transport.Reader
import Parley.Transport.Writer

/-!
# Sessions

One transport of a peer, from its registration to its end.  A reader and a writer
share the transport; whichever ends first decides what the hub is told.
-/

namespace Parley

/-- How far a session has come. -/
inductive SessionStage
  /-- The hub was asked to register the transport. -/
  | enrolling (ticket : Ticket)
  /-- The hub refused, and the peer is told so. -/
  | refusing (reason : CloseReason)
  | serving (generation : Generation) (reader : Reader) (writer : Writer)
  /-- The reader has ended, and the writer was told to stop. -/
  | leaving (generation : Generation) (outcome : ReadEnd) (writer : Writer)
  | over
  deriving DecidableEq, Repr

/-- One transport of a peer. -/
structure Session where
  admission : Admission
  stage : SessionStage
  deriving DecidableEq, Repr

namespace Departure

/-- What the hub is told when the reader ended first. -/
def ofReader (read : ReadEnd) (written : WriteEnd) : Option Departure :=
  if read = .peerClosed then some .left
  else if read.isLoss then some (.lost written.undelivered)
  else none

/-- What the hub is told when the writer ended first; nothing when it was the hub
that ended it. -/
def ofWriter : WriteEnd → Option Departure
  | .queueClosed => none
  | written => some (.lost written.undelivered)

end Departure

namespace Session

/-- The code of a close that asks the peer to come again later. -/
def tryAgainLater : Nat := 1013

/-- The stage after the hub's answer to the registration. -/
def enrolled (settings : Settings) (now : Moment) (outcome : Outcome) : SessionStage :=
  match Admission.generation? outcome with
  | .ok generation =>
      .serving generation (Reader.listen settings now) (Writer.start settings now)
  | .error cause => .refusing { code := tryAgainLater, text := cause.message }

/-- The writer of a session that has one. -/
def writer? (session : Session) : Option Writer :=
  match session.stage with
  | .serving _ _ writer => some writer
  | .leaving _ _ writer => some writer
  | _ => none

/-- The reader of a session that still has one. -/
def reader? (session : Session) : Option Reader :=
  match session.stage with
  | .serving _ reader _ => some reader
  | _ => none

/-- The session with another writer. -/
def withWriter (session : Session) (writer : Writer) : Session :=
  match session.stage with
  | .serving generation reader _ => { session with stage := .serving generation reader writer }
  | .leaving generation outcome _ => { session with stage := .leaving generation outcome writer }
  | _ => session

/-- The session with another reader. -/
def withReader (session : Session) (reader : Reader) : Session :=
  match session.stage with
  | .serving generation _ writer => { session with stage := .serving generation reader writer }
  | _ => session

/-- The message that is being written. -/
def outgoing? (session : Session) : Option Message :=
  match session.stage with
  | .refusing reason => some (.close (some reason))
  | _ => (session.writer?.bind Writer.cargo?).map Cargo.message

/-- Whether the session is over. -/
def isOver (session : Session) : Bool := session.stage = .over

/-- When time alone makes the session do something. -/
def due? (session : Session) : Option Moment :=
  ((session.reader?.bind Reader.due?).toList ++ (session.writer?.bind Writer.due?).toList).min?

end Session
end Parley
