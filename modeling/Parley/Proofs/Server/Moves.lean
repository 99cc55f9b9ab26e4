import Parley.Proofs.Broker
import Parley.Proofs.Transport.Reader
import Parley.Proofs.Transport.Writer
import Parley.Server.Run

/-!
# What a session can do

A session changes itself and its outbox and sends at most one request at a time.
`Session.Moves` lists all such moves, each with the payloads that it carries to the
peer and those that it adds to the outbox.
-/

namespace Parley

/-- A writer that ends before its outbox is let go of has something to hand back. -/
theorem Departure.ofWriter_of_lost {written : WriteEnd} (lost : written ≠ .queueClosed) :
    ofWriter written = some (.lost written.undelivered) := by
  cases written with
  | queueClosed => exact absurd rfl lost
  | stopped undelivered => rfl
  | failed undelivered => rfl

/-- The hub is told of every end of a reader but its own. -/
theorem Departure.ofReader_cases {outcome : ReadEnd} (noticed : outcome ≠ .hubClosed)
    (written : WriteEnd) :
    ofReader outcome written = some .left ∨
      ofReader outcome written = some (.lost written.undelivered) := by
  cases outcome with
  | hubClosed => exact absurd rfl noticed
  | peerClosed => exact .inl rfl
  | transportError => exact .inr rfl
  | streamEnded => exact .inr rfl
  | idleTimeout => exact .inr rfl

/-- Only a registration gives a generation. -/
theorem Admission.eq_of_generation? {outcome : Outcome} {generation : Generation}
    (given : generation? outcome = .ok generation) : outcome = .ok (.registered generation) := by
  unfold generation? at given
  split at given <;> cases given
  rfl

namespace Session

/-- The generation under which a session is registered. -/
def generation? (session : Session) : Option Generation :=
  match session.stage with
  | .serving generation _ _ => some generation
  | .leaving generation _ _ => some generation
  | _ => none

@[simp]
theorem writer?_withReader (session : Session) (reader : Reader) :
    (session.withReader reader).writer? = session.writer? := by
  obtain ⟨admission, stage⟩ := session
  cases stage <;> rfl

@[simp]
theorem generation?_withReader (session : Session) (reader : Reader) :
    (session.withReader reader).generation? = session.generation? := by
  obtain ⟨admission, stage⟩ := session
  cases stage <;> rfl

@[simp]
theorem generation?_withWriter (session : Session) (writer : Writer) :
    (session.withWriter writer).generation? = session.generation? := by
  obtain ⟨admission, stage⟩ := session
  cases stage <;> rfl

@[simp]
theorem admission_withReader (session : Session) (reader : Reader) :
    (session.withReader reader).admission = session.admission := by
  unfold withReader
  split <;> rfl

@[simp]
theorem admission_withWriter (session : Session) (writer : Writer) :
    (session.withWriter writer).admission = session.admission := by
  unfold withWriter
  split <;> rfl

theorem exists_of_reader? {session : Session} {reader : Reader}
    (reading : session.reader? = some reader) :
    ∃ generation writer, session.stage = .serving generation reader writer := by
  unfold reader? at reading
  split at reading
  · rename_i generation other writer stage
    cases reading
    exact ⟨generation, writer, stage⟩
  · cases reading

theorem exists_of_writer? {session : Session} {writer : Writer}
    (writing : session.writer? = some writer) :
    (∃ generation reader, session.stage = .serving generation reader writer) ∨
      ∃ generation outcome, session.stage = .leaving generation outcome writer := by
  unfold writer? at writing
  split at writing
  · rename_i generation reader other stage
    cases writing
    exact .inl ⟨generation, reader, stage⟩
  · rename_i generation outcome other stage
    cases writing
    exact .inr ⟨generation, outcome, stage⟩
  · cases writing

theorem enrolled_ne_enrolling (settings : Settings) (now : Moment) (outcome : Outcome)
    (ticket : Ticket) : enrolled settings now outcome ≠ .enrolling ticket := by
  unfold enrolled
  split <;> simp

/-- A session with a writer keeps one. -/
theorem writer?_withWriter {session : Session} {writer : Writer}
    (writing : session.writer? = some writer) (later : Writer) :
    (session.withWriter later).writer? = some later := by
  unfold writer? at writing
  unfold withWriter writer?
  split at writing <;> simp_all

theorem withWriter_self {session : Session} {writer : Writer}
    (writing : session.writer? = some writer) : session.withWriter writer = session := by
  obtain ⟨admission, stage⟩ := session
  unfold writer? at writing
  unfold withWriter
  split at writing <;> simp_all

/-- A session whose reader has found the hub gone. -/
def FoundHubGone (session : Session) : Prop :=
  ∃ generation writer, session.stage = .serving generation (.ended .hubClosed) writer ∨
    session.stage = .leaving generation .hubClosed writer

/-- What a session can do: the session and its outbox afterwards, the request that it
sends, the payloads that it carries to the peer and those that it adds to the
outbox. -/
inductive Moves (server : Server) (session : Session) (box : Outbox) :
    Session → Outbox → Option Request → List Payload → List Payload → Prop
  | enroll {ticket : Ticket} {outcome : Outcome} (waiting : session.stage = .enrolling ticket)
      (answered : server.broker.replies.get? ticket = some outcome) :
      Moves server session box
        { session with stage := enrolled server.settings server.now outcome } box none [] []
  | conclude {generation : Generation} {command : Command} {ticket : Ticket} {writer : Writer}
      {outcome : Outcome} (asking : session.stage = .serving generation (.asking command ticket) writer)
      (answered : server.broker.replies.get? ticket = some outcome) :
      Moves server session box
        (session.withReader
          (Reader.conclude server.settings server.now command outcome box).1)
        (Reader.conclude server.settings server.now command outcome box).2 none []
        (Reader.confirmed command outcome box)
  | hear {deadline : Moment} {reader : Reader}
      (listening : session.reader? = some (.listening deadline))
      (alive : reader ≠ .ended .hubClosed) :
      Moves server session box (session.withReader reader) box none [] []
  | ask {deadline : Moment} {reader : Reader} {request : Request}
      (listening : session.reader? = some (.listening deadline))
      (alive : server.broker.running = true → reader ≠ .ended .hubClosed)
      (plain : request.outbox? = none) (stays : ∀ id, request.departs id = false) :
      Moves server session box (session.withReader reader) box (some request) [] []
  | work {writer laterWriter : Writer} {laterBox : Outbox} {carried : List Payload}
      (writing : session.writer? = some writer)
      (works : writer.Works server.settings server.now box laterWriter laterBox carried) :
      Moves server session box (session.withWriter laterWriter) laterBox none carried []
  | refuse {reason : CloseReason} (refusing : session.stage = .refusing reason) :
      Moves server session box { session with stage := .over } box none [] []
  | leave {generation : Generation} {outcome : ReadEnd} {writer : Writer}
      (serving : session.stage = .serving generation (.ended outcome) writer) :
      Moves server session box
        { session with stage := .leaving generation outcome writer.stop } box none [] []
  | depart {generation : Generation} {reader : Reader} {writer : Writer} {written : WriteEnd}
      (serving : session.stage = .serving generation reader writer)
      (ended : writer.phase = .ended written) :
      Moves server session box { session with stage := .over } box
        ((Departure.ofWriter written).map (·.request session.admission.id generation)) [] []
  | departLeaving {generation : Generation} {outcome : ReadEnd} {writer : Writer}
      {written : WriteEnd} (leaving : session.stage = .leaving generation outcome writer)
      (ended : writer.phase = .ended written) :
      Moves server session box { session with stage := .over } box
        ((Departure.ofReader outcome written).map (·.request session.admission.id generation))
        [] []

/-! ## What moves keep -/

variable {server : Server} {session later : Session} {box laterBox : Outbox}
  {request : Option Request} {carried added : List Payload}

theorem Moves.admission_eq
    (moves : session.Moves server box later laterBox request carried added) :
    later.admission = session.admission := by
  cases moves <;> simp

/-- A session enrolls once. -/
theorem Moves.not_enrolling
    (moves : session.Moves server box later laterBox request carried added) (ticket : Ticket) :
    later.stage ≠ .enrolling ticket := by
  cases moves with
  | enroll => exact enrolled_ne_enrolling _ _ _ _
  | conclude asking => simp [withReader, asking]
  | hear listening =>
      obtain ⟨_, _, stage⟩ := exists_of_reader? listening
      simp [withReader, stage]
  | ask listening =>
      obtain ⟨_, _, stage⟩ := exists_of_reader? listening
      simp [withReader, stage]
  | work writing =>
      rcases exists_of_writer? writing with ⟨_, _, stage⟩ | ⟨_, _, stage⟩ <;>
        simp [withWriter, stage]
  | refuse => simp
  | leave => simp
  | depart => simp
  | departLeaving => simp

/-- A session without a writer moves on with the answer to its registration, or comes to
its end. -/
theorem Moves.of_idle (moves : session.Moves server box later laterBox request carried added)
    (idle : session.writer? = none) :
    (laterBox = box ∧ request = none ∧ carried = [] ∧ added = []) ∧
      ((∃ ticket outcome, session.stage = .enrolling ticket ∧
          server.broker.replies.get? ticket = some outcome ∧
          later = { session with stage := enrolled server.settings server.now outcome }) ∨
        (∃ reason, session.stage = .refusing reason) ∧ later = { session with stage := .over }) := by
  have noReader (reader : Reader) : session.reader? ≠ some reader := by
    intro reading
    obtain ⟨_, _, stage⟩ := exists_of_reader? reading
    simp [writer?, stage] at idle
  cases moves with
  | enroll waiting answered =>
      exact ⟨⟨rfl, rfl, rfl, rfl⟩, .inl ⟨_, _, waiting, answered, rfl⟩⟩
  | refuse refusing => exact ⟨⟨rfl, rfl, rfl, rfl⟩, .inr ⟨⟨_, refusing⟩, rfl⟩⟩
  | hear listening => exact absurd listening (noReader _)
  | ask listening => exact absurd listening (noReader _)
  | work writing => simp [writing] at idle
  | conclude asking => simp [writer?, asking] at idle
  | leave serving => simp [writer?, serving] at idle
  | depart serving => simp [writer?, serving] at idle
  | departLeaving leaving => simp [writer?, leaving] at idle

/-- A session that waits for its registration moves on with the answer only. -/
theorem Moves.answered (moves : session.Moves server box later laterBox request carried added)
    {ticket : Ticket} (enrolling : session.stage = .enrolling ticket) :
    ∃ outcome, server.broker.replies.get? ticket = some outcome ∧
      later = { session with stage := enrolled server.settings server.now outcome } ∧
      laterBox = box ∧ request = none ∧ carried = [] ∧ added = [] := by
  obtain ⟨still, ⟨other, outcome, stage, answered, result⟩ | ⟨⟨_, stage⟩, _⟩⟩ :=
    moves.of_idle (by simp [writer?, enrolling])
  · obtain rfl := SessionStage.enrolling.inj (enrolling.symm.trans stage)
    exact ⟨outcome, answered, result, still⟩
  · rw [enrolling] at stage
    cases stage

/-- A session never opens its outbox. -/
theorem Moves.isOpen (moves : session.Moves server box later laterBox request carried added)
    (listening : laterBox.isOpen = true) : box.isOpen = true := by
  cases moves with
  | conclude =>
      rw [Reader.snd_conclude_eq] at listening
      exact listening
  | work writing works => exact works.isOpen listening
  | _ => exact listening

/-- A session never lets go of its outbox. -/
theorem Moves.released_eq (moves : session.Moves server box later laterBox request carried added) :
    laterBox.released = box.released := by
  cases moves with
  | conclude => rw [Reader.snd_conclude_eq]
  | work writing works => exact works.released_eq
  | _ => rfl

/-- A session sends no registration. -/
theorem Moves.plain (moves : session.Moves server box later laterBox request carried added)
    {sent : Request} (sends : request = some sent) : sent.outbox? = none := by
  cases moves with
  | ask listening alive plain stays =>
      cases sends
      exact plain
  | @depart generation reader writer written =>
      obtain ⟨departure, _, rfl⟩ := Option.map_eq_some_iff.1 sends
      cases departure <;> rfl
  | @departLeaving generation outcome writer written =>
      obtain ⟨departure, _, rfl⟩ := Option.map_eq_some_iff.1 sends
      cases departure <;> rfl
  | _ => cases sends

/-- As long as the broker runs, no reader finds the hub gone. -/
theorem Moves.alive (moves : session.Moves server box later laterBox request carried added)
    (running : server.broker.running = true)
    (unstopped : ∀ ticket, server.broker.replies.get? ticket ≠ some (.error .stopped))
    (alive : ¬session.FoundHubGone) : ¬later.FoundHubGone := by
  rintro ⟨generation, writer, gone⟩
  cases moves with
  | @enroll ticket outcome waiting answered =>
      have mild (settings : Settings) (now : Moment) :
          enrolled settings now outcome ≠ .serving generation (.ended .hubClosed) writer ∧
            enrolled settings now outcome ≠ .leaving generation .hubClosed writer := by
        unfold enrolled
        split <;> simp [Reader.listen]
      rcases gone with gone | gone
      · exact (mild _ _).1 gone
      · exact (mild _ _).2 gone
  | @conclude _ command ticket _ outcome asking answered =>
      have mild := Reader.conclude_ne_hubClosed server.settings server.now command outcome box
        fun stopped => unstopped ticket (stopped ▸ answered)
      simp only [withReader, asking, SessionStage.serving.injEq] at gone
      rcases gone with ⟨_, same, _⟩ | gone
      · exact mild same
      · cases gone
  | hear listening mild =>
      obtain ⟨_, _, stage⟩ := exists_of_reader? listening
      simp only [withReader, stage, SessionStage.serving.injEq] at gone
      rcases gone with ⟨_, same, _⟩ | gone
      · exact mild same
      · cases gone
  | ask listening mild =>
      obtain ⟨_, _, stage⟩ := exists_of_reader? listening
      simp only [withReader, stage, SessionStage.serving.injEq] at gone
      rcases gone with ⟨_, same, _⟩ | gone
      · exact mild running same
      · cases gone
  | leave serving =>
      rcases gone with gone | gone
      · cases gone
      · cases gone
        exact alive ⟨_, _, .inl serving⟩
  | work writing =>
      rcases exists_of_writer? writing with ⟨_, _, stage⟩ | ⟨_, _, stage⟩ <;>
        simp only [withWriter, stage] at gone <;> rcases gone with gone | gone <;> cases gone
      · exact alive ⟨_, _, .inl stage⟩
      · exact alive ⟨_, _, .inr stage⟩
  | refuse => rcases gone with gone | gone <;> cases gone
  | depart => rcases gone with gone | gone <;> cases gone
  | departLeaving => rcases gone with gone | gone <;> cases gone

/-- A session tells the end of no transport but that of its own connection. -/
theorem Moves.departs (moves : session.Moves server box later laterBox request carried added)
    {sent : Request} (sends : request = some sent) {id : ConnectionId}
    (other : session.admission.id ≠ id) : sent.departs id = false := by
  cases moves with
  | ask listening alive plain stays =>
      cases sends
      exact stays id
  | @depart generation reader writer written =>
      obtain ⟨departure, _, rfl⟩ := Option.map_eq_some_iff.1 sends
      cases departure <;> simpa [Departure.request, Request.departs] using other
  | @departLeaving generation outcome writer written =>
      obtain ⟨departure, _, rfl⟩ := Option.map_eq_some_iff.1 sends
      cases departure <;> simpa [Departure.request, Request.departs] using other
  | _ => cases sends

/-- A session that is over does nothing any more. -/
theorem Moves.not_over (moves : session.Moves server box later laterBox request carried added) :
    session.stage ≠ .over := by
  intro ended
  obtain ⟨_, ⟨_, _, stage, _⟩ | ⟨⟨_, stage⟩, _⟩⟩ := moves.of_idle (by simp [writer?, ended])
  · rw [ended] at stage
    cases stage
  · rw [ended] at stage
    cases stage

end Session
end Parley
