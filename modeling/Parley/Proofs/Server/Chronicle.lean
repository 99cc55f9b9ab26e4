import Parley.Proofs.Server.StandingBy

/-!
# The chronicle of a session

What an onlooker sees of one transport along a run: how its registration was answered,
which messages it began to write, which payloads its outbox accepted and which of them
were written, which of its two sides ended first, and which letters told the hub about
the end.
-/

namespace Parley

/-- Which side of a session ended first, and how. -/
inductive FirstEnd
  | reader (outcome : ReadEnd)
  | writer (outcome : WriteEnd)
  deriving DecidableEq, Repr

/-- Whether the transport was lost: it broke or fell silent, or a write failed. -/
def FirstEnd.isLoss : FirstEnd → Bool
  | .reader outcome => outcome.isLoss
  | .writer (.failed _) => true
  | .writer _ => false

/-- The side that ends first when a session goes from one state to the next. -/
def Session.firstEnd? (before after : Session) : Option FirstEnd :=
  match before.stage, after.stage with
  | .serving .., .leaving _ outcome _ => some (.reader outcome)
  | .serving _ _ writer, .over => writer.outcome?.map .writer
  | _, _ => none

theorem Session.firstEnd?_self (session : Session) : session.firstEnd? session = none := by
  obtain ⟨admission, stage⟩ := session
  cases stage <;> rfl

/-- The message whose write begins when there was none before. -/
def begun : Option Message → Option Message → List Message
  | none, some message => [message]
  | _, _ => []

theorem begun_self (message? : Option Message) : begun message? message? = [] := by
  cases message? <;> rfl

/-- What became of a session. -/
structure Chronicle where
  /-- What its registration led to. -/
  answers : List (Except AdmissionError Generation) := []
  /-- The messages whose writes began. -/
  attempted : List Message := []
  /-- The payloads that its outbox accepted. -/
  accepted : List Payload := []
  /-- The payloads that were written. -/
  written : List Payload := []
  /-- The side that ended before the other. -/
  ends : List FirstEnd := []
  /-- The letters that told the hub about the end of a transport. -/
  told : List Letter := []
  deriving Repr

namespace Chronicle

/-- One chronicle goes on with another. -/
def append (first second : Chronicle) : Chronicle where
  answers := first.answers ++ second.answers
  attempted := first.attempted ++ second.attempted
  accepted := first.accepted ++ second.accepted
  written := first.written ++ second.written
  ends := first.ends ++ second.ends
  told := first.told ++ second.told

instance : Append Chronicle := ⟨append⟩

variable (first second third : Chronicle)

@[simp] theorem answers_append : (first ++ second).answers = first.answers ++ second.answers := rfl

@[simp] theorem attempted_append :
    (first ++ second).attempted = first.attempted ++ second.attempted := rfl

@[simp] theorem accepted_append :
    (first ++ second).accepted = first.accepted ++ second.accepted := rfl

@[simp] theorem written_append : (first ++ second).written = first.written ++ second.written := rfl

@[simp] theorem ends_append : (first ++ second).ends = first.ends ++ second.ends := rfl

@[simp] theorem told_append : (first ++ second).told = first.told ++ second.told := rfl

@[simp] theorem append_empty : first ++ {} = first := by
  obtain ⟨answers, attempted, accepted, written, ends, told⟩ := first
  show Chronicle.mk .. = Chronicle.mk ..
  simp

theorem append_assoc : first ++ second ++ third = first ++ (second ++ third) := by
  show Chronicle.mk .. = Chronicle.mk ..
  simp

end Chronicle

namespace Server

/-- What reaches a session of the answer to its registration in a step. -/
def answersBy (server : Server) (key : OutboxId) :
    ServerStep → List (Except AdmissionError Generation)
  | .upgrade admission =>
      if server.nextOutbox = key then
        match (server.submit (admission.registration key)).1 with
        | .settled outcome => [Admission.generation? outcome]
        | .pending _ => []
      else []
  | .answer other =>
      if other = key then
        match (server.sessions.get? key).map Session.stage with
        | some (.enrolling ticket) =>
            (server.broker.replies.get? ticket).toList.map Admission.generation?
        | _ => []
      else []
  | _ => []

/-- The payloads that a session writes in a step. -/
def writtenBy (server : Server) (key : OutboxId) : ServerStep → List Payload
  | .written other =>
      if other = key then
        ((server.sessions.get? key).bind Session.writer?).elim [] Writer.current
      else []
  | _ => []

/-- The letters that tell the end of a transport and come from a session in a step. -/
def toldBy (server : Server) (key : OutboxId) (step : ServerStep) : List Letter :=
  if step.session? = some key then
    ((server.step step).broker.mailbox.drop server.broker.mailbox.length).filter
      fun letter => letter.request.departed?.isSome
  else []

/-- What a step adds to the chronicle of a session.  What its outbox accepts stands behind
what it held. -/
def noted (server : Server) (key : OutboxId) (step : ServerStep) : Chronicle :=
  let later := server.step step
  let before := server.sessions.get? key
  let after := later.sessions.get? key
  { answers := server.answersBy key step
    attempted := begun (before.bind Session.outgoing?) (after.bind Session.outgoing?)
    accepted := (later.outbox key).held.drop (server.outbox key).held.length
    written := server.writtenBy key step
    ends := (before.bind fun before => after.bind before.firstEnd?).toList
    told := server.toldBy key step }

/-- The chronicle of a session along a run. -/
def chronicle (server : Server) (key : OutboxId) : List ServerStep → Chronicle
  | [] => {}
  | step :: rest => server.noted key step ++ (server.step step).chronicle key rest

variable {server : Server} {key : OutboxId} {session : Session} {box : Outbox}
  {step : ServerStep}

/-- A step of somebody else adds to the chronicle what the outbox accepts. -/
theorem noted_of_elsewhere {laterBox : Outbox} (threaded : server.Threaded)
    (elsewhere : step.session? ≠ some key) (present : server.sessions.get? key = some session)
    (found : server.broker.hub.outboxes.get? key = some box)
    (presentLater : (server.step step).sessions.get? key = some session)
    (foundLater : (server.step step).broker.hub.outboxes.get? key = some laterBox) :
    server.noted key step = { accepted := laterBox.held.drop box.held.length } := by
  have different : ∀ other, step.session? = some other → other ≠ key := by
    rintro other concerns rfl
    exact elsewhere concerns
  have answers : server.answersBy key step = [] := by
    unfold answersBy
    split
    · exact if_neg fun same => threaded.ne_nextOutbox found same.symm
    · exact if_neg (different _ rfl)
    · rfl
  have written : server.writtenBy key step = [] := by
    unfold writtenBy
    split
    · exact if_neg (different _ rfl)
    · rfl
  simp only [noted, answers, written, toldBy, if_neg elsewhere, present, presentLater,
    outbox_of_present found, outbox_of_present foundLater, Option.bind_some,
    Session.firstEnd?_self, begun_self, Option.toList_none]

theorem writtenBy_eq (concerns : step.session? = some key)
    (present : server.sessions.get? key = some session) :
    server.writtenBy key step = (server.frameBy session.admission.id step).flatMap Prod.snd := by
  cases step with
  | written other =>
      cases concerns
      simp only [writtenBy, frameBy, present, if_true, Option.bind_some]
      cases session.writer? with
      | none => rfl
      | some writer =>
          simp only [Option.elim_some, Option.bind_some, Writer.current]
          cases writer.cargo? with
          | none => rfl
          | some cargo => cases cargo <;> simp [Cargo.payloads]
  | _ => rfl

theorem answersBy_of_registered (present : server.sessions.get? key = some session)
    (registered : ∀ ticket, session.stage ≠ .enrolling ticket)
    (concerns : step.session? = some key) : server.answersBy key step = [] := by
  cases step with
  | answer other =>
      cases concerns
      simp only [answersBy, if_true, present, Option.map_some]
      cases stage : session.stage with
      | enrolling ticket => exact absurd stage (registered ticket)
      | _ => rfl
  | upgrade admission => cases concerns
  | _ => rfl

/-- A step that does nothing adds nothing to the chronicle of a registered session. -/
theorem noted_of_idle (idles : server.Idles step) (concerns : step.session? = some key)
    (present : server.sessions.get? key = some session)
    (registered : ∀ ticket, session.stage ≠ .enrolling ticket) : server.noted key step = {} := by
  have written : server.writtenBy key step = [] := by
    rw [writtenBy_eq concerns present, idles.frames]
    rfl
  simp only [noted, answersBy_of_registered present registered concerns, written, toldBy,
    idles.result, present, Option.bind_some, Session.firstEnd?_self, begun_self, List.drop_length,
    Option.toList_none, List.filter_nil, ite_self]

/-- A session that waits for its registration goes on with the answer only. -/
theorem step_of_enrolling {ticket : Ticket} (present : server.sessions.get? key = some session)
    (stage : session.stage = .enrolling ticket) (concerns : step.session? = some key) :
    (server.step step = server ∧ server.answersBy key step = []) ∨
      ∃ outcome, server.broker.replies.get? ticket = some outcome ∧
        server.step step = server.setSession key
          { session with stage := Session.enrolled server.settings server.now outcome } ∧
        server.answersBy key step = [Admission.generation? outcome] := by
  have idle : session.writer? = none := by simp [Session.writer?, stage]
  have still : session.reader? = none := by simp [Session.reader?, stage]
  have unchanged (change : Writer → Outbox → Writer × Outbox) :
      server.changeWriter key change = server := changeWriter_of_none present idle change
  have unrefused : server.endRefusal key = server := by simp [endRefusal, present, stage]
  cases step <;> cases concerns
  case answer =>
    cases answered : server.broker.replies.get? ticket with
    | none =>
        exact .inl ⟨by simp [Server.step, answer, present, stage, answered],
          by simp [answersBy, present, stage, answered]⟩
    | some outcome =>
        exact .inr ⟨outcome, rfl, by simp [Server.step, answer, present, stage, answered],
          by simp [answersBy, present, stage, answered]⟩
  case arrive => exact .inl ⟨by simp [Server.step, arrive, present, still], rfl⟩
  case fallSilent => exact .inl ⟨by simp [Server.step, fallSilent, present, still], rfl⟩
  case turn => exact .inl ⟨by simp [Server.step, turn, unchanged], rfl⟩
  case written => exact .inl ⟨by simp [Server.step, written, unchanged, unrefused], rfl⟩
  case unwritten => exact .inl ⟨by simp [Server.step, unwritten, unchanged, unrefused], rfl⟩
  case giveUpWrite => exact .inl ⟨by simp [Server.step, giveUpWrite, unchanged], rfl⟩
  case joinReader => exact .inl ⟨by simp [Server.step, joinReader, present, stage], rfl⟩
  case joinWriter => exact .inl ⟨by simp [Server.step, joinWriter, present, stage], rfl⟩

/-- The answer to its registration is what a session that waits for it adds to its
chronicle, and the close if it is refused. -/
theorem noted_of_enrolling {ticket : Ticket} (present : server.sessions.get? key = some session)
    (stage : session.stage = .enrolling ticket) (concerns : step.session? = some key) :
    (server.step step = server ∧ server.noted key step = {}) ∨
      ∃ outcome, server.broker.replies.get? ticket = some outcome ∧
        let entry : Session :=
          { session with stage := Session.enrolled server.settings server.now outcome }
        server.step step = server.setSession key entry ∧
          server.noted key step =
            { answers := [Admission.generation? outcome]
              attempted := begun none entry.outgoing? } := by
  have idle : session.writer? = none := by simp [Session.writer?, stage]
  have silent : session.outgoing? = none := by simp [Session.outgoing?, stage, idle]
  have unended (later : Session) : session.firstEnd? later = none := by
    simp [Session.firstEnd?, stage]
  have unwritten : server.writtenBy key step = [] := by
    unfold writtenBy
    split
    · simp [present, idle]
    · rfl
  rcases step_of_enrolling present stage concerns with
    ⟨same, nothing⟩ | ⟨outcome, answered, result, answers⟩
  · refine .inl ⟨same, ?_⟩
    simp [noted, nothing, unwritten, same, present, begun_self, unended, toldBy]
  · refine .inr ⟨outcome, answered, result, ?_⟩
    have sameOutbox : (server.step step).outbox key = server.outbox key := by rw [result]; rfl
    have sameMailbox : (server.step step).broker.mailbox = server.broker.mailbox := by
      rw [result]
      rfl
    have later := congrArg (fun server : Server => server.sessions.get? key) result
    simp only [setSession, Table.get?_set_self] at later
    simp [noted, answers, unwritten, sameOutbox, present, later, silent, unended, toldBy,
      sameMailbox]

/-- The letters that become of a request that a session sends. -/
def posted (server : Server) (request : Option Request) : List Letter :=
  if server.broker.running then
    request.toList.map fun request => ⟨server.broker.nextTicket, request⟩
  else []

theorem mailbox_progress {later : Session} {laterBox : Outbox} {request : Option Request}
    {carried added : List Payload}
    (moves : session.Moves server box later laterBox request carried added) :
    (server.progress key later laterBox request).broker.mailbox =
      server.broker.mailbox ++ server.posted request := by
  unfold posted
  cases request with
  | none => simp [progress, setSession, setOutbox]
  | some sent =>
      simp only [progress, Option.elim_some, setSession, setOutbox]
      cases running : server.broker.running with
      | true => simp [submit_of_running running]
      | false => simp [submit_of_stopped running (moves.plain rfl)]

/-- What a move of a registered session adds to its chronicle. -/
def noteOfMove (server : Server) (session later : Session) (box laterBox : Outbox)
    (request : Option Request) (carried : List Payload) : Chronicle where
  attempted := begun session.outgoing? later.outgoing?
  accepted := laterBox.held.drop box.held.length
  written := carried
  ends := (session.firstEnd? later).toList
  told := (server.posted request).filter fun letter => letter.request.departed?.isSome

section

variable (session later : Session) (laterBox : Outbox) (carried : List Payload)

@[simp] theorem answers_noteOfMove (request : Option Request) :
    (server.noteOfMove session later box laterBox request carried).answers = [] := rfl

@[simp] theorem attempted_noteOfMove (request : Option Request) :
    (server.noteOfMove session later box laterBox request carried).attempted =
      begun session.outgoing? later.outgoing? := rfl

@[simp] theorem ends_noteOfMove (request : Option Request) :
    (server.noteOfMove session later box laterBox request carried).ends =
      (session.firstEnd? later).toList := rfl

@[simp] theorem told_noteOfMove_none :
    (server.noteOfMove session later box laterBox none carried).told = [] := by
  simp [noteOfMove, posted]

end

theorem noted_of_advances {later : Session} {laterBox : Outbox} {request : Option Request}
    {carried added : List Payload} (concerns : step.session? = some key)
    (advances : server.Advances step key session box later laterBox request carried added)
    (registered : ∀ ticket, session.stage ≠ .enrolling ticket) :
    server.noted key step = server.noteOfMove session later box laterBox request carried := by
  have written : server.writtenBy key step = carried := by
    rw [writtenBy_eq concerns advances.present, advances.frames, if_pos rfl]
  have presentLater : (server.step step).sessions.get? key = some later := by
    rw [advances.result]
    exact Table.get?_set_self _ _ _
  have foundLater : (server.step step).broker.hub.outboxes.get? key = some laterBox := by
    rw [advances.result, hub_progress key advances.moves]
    exact Table.get?_set_self _ _ _
  have told : server.toldBy key step =
      (server.posted request).filter fun letter => letter.request.departed?.isSome := by
    rw [toldBy, if_pos concerns, advances.result, mailbox_progress advances.moves, List.drop_left]
  simp only [noted, noteOfMove, answersBy_of_registered advances.present registered concerns,
    written, told, advances.present, presentLater, outbox_of_present advances.found,
    outbox_of_present foundLater, Option.bind_some]

end Server
end Parley
