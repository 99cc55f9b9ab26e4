import Parley.Proofs.Server.Moves

/-!
# Steps of sessions

Every step that concerns a session does nothing, because its time has not come, or is
one of the moves of the session.
-/

namespace Parley

/-- The session whose step it is. -/
def ServerStep.session? : ServerStep → Option OutboxId
  | .answer key | .arrive key _ | .fallSilent key | .turn key | .written key | .unwritten key
  | .giveUpWrite key | .joinReader key | .joinWriter key => some key
  | .upgrade _ | .submit _ | .serve | .tick _ => none

namespace Server

/-- The payloads that a step carries to the peer of a connection, in one text message,
with the transport that it goes out on. -/
def frameBy (server : Server) (id : ConnectionId) : ServerStep → List (OutboxId × List Payload)
  | .written key =>
      match server.sessions.get? key with
      | some session =>
          if session.admission.id = id then
            match session.writer?.bind Writer.cargo? with
            | some (.batch payloads) => [(key, payloads)]
            | _ => []
          else []
      | none => []
  | _ => []

/-- The command whose outcome the reader of a session is about to learn. -/
def answered? (server : Server) (session : Session) : Option (Command × Outcome) :=
  match session.stage with
  | .serving _ (.asking command ticket) _ =>
      (server.broker.replies.get? ticket).map fun outcome => (command, outcome)
  | _ => none

/-- What the outcome of its own command means to the outbox of a connection, in a
step. -/
def ownBy (server : Server) (own : Command → Outcome → Outbox → List Payload)
    (id : ConnectionId) : ServerStep → List Payload
  | .answer key =>
      match server.sessions.get? key with
      | some session =>
          if session.admission.id = id then
            (server.answered? session).elim [] fun answered =>
              own answered.1 answered.2 (server.outbox key)
          else []
      | none => []
  | _ => []

/-- The confirmations that a step adds to the outbox of a connection. -/
def confirmedBy (server : Server) (id : ConnectionId) (step : ServerStep) : List Payload :=
  server.ownBy Reader.confirmed id step

/-- A session and its outbox change, after a request was sent. -/
def progress (server : Server) (key : OutboxId) (session : Session) (box : Outbox)
    (request : Option Request) : Server :=
  ((request.elim server fun request => (server.submit request).2).setOutbox key box).setSession
    key session

variable {server : Server} {key : OutboxId} {session : Session} {box : Outbox}

theorem sessions_progress (server : Server) (key : OutboxId) (session : Session) (box : Outbox)
    (request : Option Request) :
    (server.progress key session box request).sessions = server.sessions.set key session := by
  cases request <;> rfl

theorem outbox_of_present (found : server.broker.hub.outboxes.get? key = some box) :
    server.outbox key = box := by
  simp [outbox, found]

theorem setOutbox_of_present (found : server.broker.hub.outboxes.get? key = some box) :
    server.setOutbox key box = server := by
  simp only [setOutbox, Table.set_of_get?_eq_some found]

theorem setSession_eq_progress (found : server.broker.hub.outboxes.get? key = some box)
    (later : Session) : server.setSession key later = server.progress key later box none := by
  unfold progress
  rw [Option.elim_none, setOutbox_of_present found]

theorem concludeCommand_eq_progress (found : server.broker.hub.outboxes.get? key = some box)
    (command : Command) (outcome : Outcome) :
    server.concludeCommand key session command outcome =
      server.progress key
        (session.withReader
          (Reader.conclude server.settings server.now command outcome box).1)
        (Reader.conclude server.settings server.now command outcome box).2 none := by
  unfold concludeCommand progress
  rw [outbox_of_present found]
  rfl

theorem changeWriter_eq_progress (present : server.sessions.get? key = some session)
    (found : server.broker.hub.outboxes.get? key = some box) {writer : Writer}
    (writing : session.writer? = some writer) (change : Writer → Outbox → Writer × Outbox) :
    server.changeWriter key change =
      server.progress key (session.withWriter (change writer box).1) (change writer box).2 none := by
  unfold changeWriter progress
  simp only [present, writing, outbox_of_present found]
  rfl

theorem changeWriter_of_none (present : server.sessions.get? key = some session)
    (idle : session.writer? = none) (change : Writer → Outbox → Writer × Outbox) :
    server.changeWriter key change = server := by
  simp [changeWriter, present, idle]

/-- Only a session without a writer is refused. -/
theorem endRefusal_of_writer (present : server.sessions.get? key = some session)
    {writer : Writer} (writing : session.writer? = some writer) :
    server.endRefusal key = server := by
  unfold endRefusal
  rw [present]
  dsimp only
  split
  · rename_i reason refusing
    simp [Session.writer?, refusing] at writing
  · rfl

/-- A request without an outbox leaves the hub alone. -/
theorem hub_submit (server : Server) {request : Request} (plain : request.outbox? = none) :
    (server.submit request).2.broker.hub = server.broker.hub := by
  cases running : server.broker.running with
  | true => simp [submit, Broker.submit, Broker.post_of_running running]
  | false => simp [submit, Broker.submit, Broker.post_of_stopped running, plain]

/-- A write is given up only when its time is over. -/
theorem giveUpWrite_eq (server : Server) (key : OutboxId) :
    ∃ change : Writer → Outbox → Writer × Outbox,
      server.giveUpWrite key = server.changeWriter key change ∧
        ∀ writer box, change writer box = writer.failed box ∨ change writer box = (writer, box) := by
  refine ⟨_, rfl, fun writer box => ?_⟩
  split
  · split
    · exact .inl rfl
    · exact .inr rfl
  · exact .inr rfl

theorem submit_eq (server : Server) (request : Request) :
    server.submit request =
      (if server.broker.running = false then .settled (.error .stopped)
        else if request.awaited then .pending server.broker.nextTicket
        else .settled (.ok .done),
        (server.submit request).2) := by
  cases running : server.broker.running <;> simp [submit, Broker.submit, Broker.post, running]

/-- What becomes of a command: a broker that has stopped answers at once, another one
lets the reader wait for its answer or not. -/
theorem arrive_ask (server : Server) {key : OutboxId} {session : Session} {deadline : Moment}
    {arrival : Arrival} {command : Command} {request : Request}
    (present : server.sessions.get? key = some session)
    (reading : session.reader? = some (.listening deadline))
    (heard : Reader.hear server.settings server.now session.admission.id arrival =
      .ask command request) :
    (server.broker.running = false ∧ server.arrive key arrival =
        (server.submit request).2.concludeCommand key session command (.error .stopped)) ∨
      (server.broker.running = true ∧ request.awaited = true ∧ server.arrive key arrival =
        (server.submit request).2.setSession key
          (session.withReader (.asking command server.broker.nextTicket))) ∨
      (server.broker.running = true ∧ request.awaited = false ∧ server.arrive key arrival =
        (server.submit request).2.concludeCommand key session command (.ok .done)) := by
  unfold arrive
  simp only [present, reading, heard]
  rw [submit_eq]
  cases running : server.broker.running with
  | false => exact .inl ⟨rfl, rfl⟩
  | true =>
      cases awaited : request.awaited with
      | true => exact .inr (.inl ⟨rfl, rfl, rfl⟩)
      | false => exact .inr (.inr ⟨rfl, rfl, rfl⟩)

/-- What becomes of an arrival.  Nothing, unless the reader listens; then the reader turns to
something else, or a request is sent, whose outcome may come at once. -/
theorem arrive_cases (server : Server) (key : OutboxId) (arrival : Arrival) :
    (server.arrive key arrival = server ∧
        ((server.sessions.get? key).bind Session.reader?).bind Reader.due? = none) ∨
      ∃ session deadline, server.sessions.get? key = some session ∧
        session.reader? = some (.listening deadline) ∧
        ((∃ reader, Reader.hear server.settings server.now session.admission.id arrival =
              .turn reader ∧
            server.arrive key arrival = server.setSession key (session.withReader reader)) ∨
          ∃ command request, Reader.hear server.settings server.now session.admission.id arrival =
              .ask command request ∧
            ((server.broker.running = false ∧ server.arrive key arrival =
                (server.submit request).2.concludeCommand key session command (.error .stopped)) ∨
              (server.broker.running = true ∧ request.awaited = true ∧
                server.arrive key arrival =
                  (server.submit request).2.setSession key
                    (session.withReader (.asking command server.broker.nextTicket))) ∨
              (server.broker.running = true ∧ request.awaited = false ∧
                server.arrive key arrival =
                  (server.submit request).2.concludeCommand key session command (.ok .done)))) := by
  cases present : server.sessions.get? key with
  | none => exact .inl ⟨by simp [arrive, present], rfl⟩
  | some session =>
      cases reading : session.reader? with
      | none => exact .inl ⟨by simp [arrive, present, reading], by simp [reading]⟩
      | some reader =>
          cases reader with
          | asking command ticket =>
              exact .inl ⟨by simp [arrive, present, reading], by simp [reading, Reader.due?]⟩
          | ended outcome =>
              exact .inl ⟨by simp [arrive, present, reading], by simp [reading, Reader.due?]⟩
          | listening deadline =>
              refine .inr ⟨session, deadline, rfl, reading, ?_⟩
              cases heard : Reader.hear server.settings server.now session.admission.id arrival with
              | turn reader =>
                  exact .inl ⟨reader, rfl, by simp [arrive, present, reading, heard]⟩
              | ask command request =>
                  exact .inr ⟨command, request, rfl, server.arrive_ask present reading heard⟩

/-- A step that does nothing. -/
structure Idles (server : Server) (step : ServerStep) : Prop where
  result : server.step step = server
  frames : ∀ id, server.frameBy id step = []
  confirmed : ∀ id, server.confirmedBy id step = []

/-- A step that is one of the moves of a session. -/
structure Advances (server : Server) (step : ServerStep) (key : OutboxId) (session : Session)
    (box : Outbox) (later : Session) (laterBox : Outbox) (request : Option Request)
    (carried added : List Payload) : Prop where
  present : server.sessions.get? key = some session
  found : server.broker.hub.outboxes.get? key = some box
  moves : session.Moves server box later laterBox request carried added
  result : server.step step = server.progress key later laterBox request
  frames : ∀ id, (server.frameBy id step).flatMap Prod.snd =
    if session.admission.id = id then carried else []
  confirmed : ∀ id, server.confirmedBy id step = if session.admission.id = id then added else []

theorem idles_of_result {step : ServerStep} (result : server.step step = server)
    (notWritten : ∀ key, step ≠ .written key) (notAnswer : ∀ key, step ≠ .answer key) :
    server.Idles step := by
  refine ⟨result, fun id => ?_, fun id => ?_⟩
  · unfold frameBy
    split
    · exact absurd rfl (notWritten _)
    · rfl
  · unfold confirmedBy ownBy
    split
    · exact absurd rfl (notAnswer _)
    · rfl

theorem advances_of_moves {step : ServerStep} {later : Session} {laterBox : Outbox}
    {request : Option Request} (present : server.sessions.get? key = some session)
    (found : server.broker.hub.outboxes.get? key = some box)
    (moves : session.Moves server box later laterBox request [] [])
    (result : server.step step = server.progress key later laterBox request)
    (notWritten : ∀ key, step ≠ .written key) (notAnswer : ∀ key, step ≠ .answer key) :
    server.Advances step key session box later laterBox request [] [] := by
  refine ⟨present, found, moves, result, fun id => ?_, fun id => ?_⟩
  · unfold frameBy
    split
    · exact absurd rfl (notWritten _)
    · simp
  · unfold confirmedBy ownBy
    split
    · exact absurd rfl (notAnswer _)
    · simp

variable (present : server.sessions.get? key = some session)
  (found : server.broker.hub.outboxes.get? key = some box)

include present found

theorem answer_advances : server.Idles (.answer key) ∨
    ∃ later laterBox request carried added,
      server.Advances (.answer key) key session box later laterBox request carried added := by
  have idles (result : server.step (.answer key) = server)
      (nothing : server.answered? session = none) : server.Idles (.answer key) :=
    ⟨result, fun _ => rfl, fun id => by simp [confirmedBy, ownBy, present, nothing]⟩
  cases stage : session.stage with
  | enrolling ticket =>
      cases answered : server.broker.replies.get? ticket with
      | none =>
          exact .inl (idles (by simp [step, answer, present, stage, answered])
            (by simp [answered?, stage]))
      | some outcome =>
          refine .inr ⟨_, _, _, _, _, present, found, .enroll stage answered, ?_, ?_, ?_⟩
          · rw [← setSession_eq_progress found]
            simp [step, answer, present, stage, answered]
          · simp [frameBy]
          · simp [confirmedBy, ownBy, present, answered?, stage]
  | serving generation reader writer =>
      cases reader with
      | asking command ticket =>
          cases answered : server.broker.replies.get? ticket with
          | none =>
              exact .inl (idles (by simp [step, answer, present, stage, answered])
                (by simp [answered?, stage, answered]))
          | some outcome =>
              refine .inr ⟨_, _, _, _, _, present, found, .conclude stage answered, ?_, ?_, ?_⟩
              · rw [← concludeCommand_eq_progress found]
                simp [step, answer, present, stage, answered]
              · simp [frameBy]
              · simp [confirmedBy, ownBy, present, answered?, stage, answered,
                  outbox_of_present found]
      | listening deadline =>
          exact .inl (idles (by simp [step, answer, present, stage]) (by simp [answered?, stage]))
      | ended outcome =>
          exact .inl (idles (by simp [step, answer, present, stage]) (by simp [answered?, stage]))
  | refusing reason =>
      exact .inl (idles (by simp [step, answer, present, stage]) (by simp [answered?, stage]))
  | leaving generation outcome writer =>
      exact .inl (idles (by simp [step, answer, present, stage]) (by simp [answered?, stage]))
  | _ =>
      exact .inl (idles (by simp [step, answer, present, stage]) (by simp [answered?, stage]))

theorem arrive_advances (arrival : Arrival) : server.Idles (.arrive key arrival) ∨
    ∃ later laterBox request carried added, server.Advances (.arrive key arrival) key session box
      later laterBox request carried added := by
  rcases server.arrive_cases key arrival with ⟨same, _⟩ | ⟨other, _, there, reading,
    ⟨reader, heard, arrived⟩ | ⟨command, request, heard, becomes⟩⟩
  · exact .inl (idles_of_result same (by simp) (by simp))
  · obtain rfl := Option.some.inj (present.symm.trans there)
    have alive : reader ≠ .ended .hubClosed := by
      unfold Reader.hear Arrival.heard at heard
      intro gone
      subst gone
      grind [Reader.listen]
    rw [setSession_eq_progress found] at arrived
    exact .inr ⟨_, _, _, _, _, advances_of_moves present found (.hear reading alive) arrived
      (by simp) (by simp)⟩
  · obtain rfl := Option.some.inj (present.symm.trans there)
    refine .inr ?_
    have accepted : Dispatch.requestOf session.admission.id command = .ok request := by
      unfold Reader.hear Dispatch.request at heard
      grind
    obtain ⟨plain, stays, silent⟩ := Dispatch.requestOf_spec accepted
    have foundLater : (server.submit request).2.broker.hub.outboxes.get? key = some box := by
      rw [server.hub_submit plain]
      exact found
    rcases becomes with ⟨stopped, arrived⟩ | ⟨_, _, arrived⟩ | ⟨_, unawaited, arrived⟩
    · rw [concludeCommand_eq_progress foundLater, Reader.conclude_of_stopped] at arrived
      exact ⟨_, _, _, _, _, advances_of_moves present found
        (.ask reading (fun alive => by simp [stopped] at alive) plain stays) arrived
        (by simp) (by simp)⟩
    · rw [setSession_eq_progress foundLater] at arrived
      exact ⟨_, _, _, _, _, advances_of_moves present found
        (.ask reading (fun _ => by simp) plain stays) arrived (by simp) (by simp)⟩
    · rw [concludeCommand_eq_progress foundLater,
        Reader.conclude_of_nothing _ _ _ _ _ (silent unawaited)] at arrived
      exact ⟨_, _, _, _, _, advances_of_moves present found
        (.ask reading (fun _ => by simp [Reader.listen]) plain stays) arrived
        (by simp) (by simp)⟩

theorem fallSilent_advances : server.Idles (.fallSilent key) ∨
    ∃ later laterBox request carried added, server.Advances (.fallSilent key) key session box
      later laterBox request carried added := by
  have idles (result : server.step (.fallSilent key) = server) : server.Idles (.fallSilent key) :=
    idles_of_result result (by simp) (by simp)
  cases reading : session.reader? with
  | none => exact .inl (idles (by simp [step, fallSilent, present, reading]))
  | some reader =>
      cases reader with
      | asking command ticket => exact .inl (idles (by simp [step, fallSilent, present, reading]))
      | ended outcome => exact .inl (idles (by simp [step, fallSilent, present, reading]))
      | listening deadline =>
          by_cases late : Moment.roundUp deadline ≤ server.now
          · have alive : Reader.ended .idleTimeout ≠ .ended .hubClosed := by simp
            refine .inr ⟨_, _, _, _, _, advances_of_moves present found (.hear reading alive) ?_
              (by simp) (by simp)⟩
            rw [← setSession_eq_progress found]
            simp [step, fallSilent, present, reading, late]
          · exact .inl (idles (by simp [step, fallSilent, present, reading, late]))

theorem turn_advances : server.Idles (.turn key) ∨
    ∃ later laterBox request carried added,
      server.Advances (.turn key) key session box later laterBox request carried added := by
  cases writing : session.writer? with
  | none =>
      have unchanged := changeWriter_of_none present writing fun writer box =>
        writer.turn server.settings server.now box
      exact .inl (idles_of_result unchanged (by simp) (by simp))
  | some writer =>
      have changed := changeWriter_eq_progress present found writing fun writer box =>
        writer.turn server.settings server.now box
      exact .inr ⟨_, _, _, _, _, advances_of_moves present found (.work writing .turn) changed
        (by simp) (by simp)⟩

theorem giveUpWrite_advances : server.Idles (.giveUpWrite key) ∨
    ∃ later laterBox request carried added,
      server.Advances (.giveUpWrite key) key session box later laterBox request carried added := by
  have idles (result : server.step (.giveUpWrite key) = server) :
      server.Idles (.giveUpWrite key) := idles_of_result result (by simp) (by simp)
  obtain ⟨change, changes, either⟩ := server.giveUpWrite_eq key
  cases writing : session.writer? with
  | none => exact .inl (idles (changes.trans (changeWriter_of_none present writing change)))
  | some writer =>
      have changed := changes.trans (changeWriter_eq_progress present found writing change)
      rcases either writer box with failed | kept
      · rw [failed] at changed
        exact .inr ⟨_, _, _, _, _, advances_of_moves present found (.work writing .fail) changed
          (by simp) (by simp)⟩
      · rw [kept, Session.withWriter_self writing, ← setSession_eq_progress found] at changed
        refine .inl (idles (changed.trans ?_))
        simp only [setSession, Table.set_of_get?_eq_some present]

/-- A write without a writer is the close to a peer that was refused. -/
theorem endRefusal_cases : server.endRefusal key = server ∨
    ∃ reason, session.stage = .refusing reason ∧
      server.endRefusal key = server.progress key { session with stage := .over } box none := by
  cases stage : session.stage with
  | refusing reason =>
      refine .inr ⟨reason, rfl, ?_⟩
      rw [← setSession_eq_progress found]
      simp [endRefusal, present, stage]
  | _ => exact .inl (by simp [endRefusal, present, stage])

theorem unwritten_advances : server.Idles (.unwritten key) ∨
    ∃ later laterBox request carried added,
      server.Advances (.unwritten key) key session box later laterBox request carried added := by
  cases writing : session.writer? with
  | none =>
      have result : server.step (.unwritten key) = server.endRefusal key := by
        simp only [step, unwritten, changeWriter_of_none present writing]
      rcases endRefusal_cases present found with same | ⟨reason, refusing, ended⟩
      · exact .inl (idles_of_result (result.trans same) (by simp) (by simp))
      · exact .inr ⟨_, _, _, _, _, advances_of_moves present found (.refuse refusing)
          (result.trans ended) (by simp) (by simp)⟩
  | some writer =>
      refine .inr ⟨_, _, _, _, _, advances_of_moves present found (.work writing .fail) ?_
        (by simp) (by simp)⟩
      simp only [step, unwritten, changeWriter_eq_progress present found writing]
      exact endRefusal_of_writer (Table.get?_set_self _ _ _) (Session.writer?_withWriter writing _)

theorem written_advances : server.Idles (.written key) ∨
    ∃ later laterBox request carried added,
      server.Advances (.written key) key session box later laterBox request carried added := by
  cases writing : session.writer? with
  | none =>
      have result : server.step (.written key) = server.endRefusal key := by
        simp only [step, written, changeWriter_of_none present writing]
      have silent (id : ConnectionId) : server.frameBy id (.written key) = [] := by
        simp [frameBy, present, writing]
      rcases endRefusal_cases present found with same | ⟨reason, refusing, ended⟩
      · exact .inl ⟨result.trans same, silent, fun _ => rfl⟩
      · refine .inr ⟨_, _, _, _, _, present, found, .refuse refusing, result.trans ended,
          fun id => ?_, fun id => ?_⟩
        · simp [silent]
        · simp [confirmedBy, ownBy]
  | some writer =>
      refine .inr ⟨_, _, _, _, _, present, found, .work writing .write, ?_, fun id => ?_, fun id => ?_⟩
      · simp only [step, written, changeWriter_eq_progress present found writing]
        exact endRefusal_of_writer (Table.get?_set_self _ _ _) (Session.writer?_withWriter writing _)
      · simp only [frameBy, present, writing, Option.bind_some, Writer.current]
        split
        · cases writer.cargo? with
          | none => rfl
          | some cargo => cases cargo <;> simp [Cargo.payloads]
        · rfl
      · simp [confirmedBy, ownBy]

theorem joinReader_advances : server.Idles (.joinReader key) ∨
    ∃ later laterBox request carried added,
      server.Advances (.joinReader key) key session box later laterBox request carried added := by
  have idles (result : server.step (.joinReader key) = server) : server.Idles (.joinReader key) :=
    idles_of_result result (by simp) (by simp)
  cases stage : session.stage with
  | serving generation reader writer =>
      cases reader with
      | ended outcome =>
          refine .inr ⟨_, _, _, _, _, advances_of_moves present found (.leave stage) ?_
            (by simp) (by simp)⟩
          rw [← setSession_eq_progress found]
          simp [step, joinReader, present, stage]
      | _ => exact .inl (idles (by simp [step, joinReader, present, stage]))
  | _ => exact .inl (idles (by simp [step, joinReader, present, stage]))

omit present in
theorem depart_eq_progress (generation : Generation) (departure : Option Departure) :
    server.depart key session generation departure =
      server.progress key { session with stage := .over } box
        (departure.map (·.request session.admission.id generation)) := by
  cases departure with
  | none => exact setSession_eq_progress found _
  | some departure =>
      have plain : (departure.request session.admission.id generation).outbox? = none := by
        cases departure <;> rfl
      have foundLater :
          (server.submit (departure.request session.admission.id generation)).2.broker.hub.outboxes.get?
            key = some box := by
        rw [hub_submit server plain]
        exact found
      unfold progress
      simp only [Option.map_some, Option.elim_some, setOutbox_of_present foundLater]
      rfl

theorem joinWriter_advances : server.Idles (.joinWriter key) ∨
    ∃ later laterBox request carried added,
      server.Advances (.joinWriter key) key session box later laterBox request carried added := by
  have idles (result : server.step (.joinWriter key) = server) : server.Idles (.joinWriter key) :=
    idles_of_result result (by simp) (by simp)
  cases stage : session.stage with
  | serving generation reader writer =>
      obtain ⟨phase, nextPing, stopping⟩ := writer
      cases phase with
      | ended outcome =>
          refine .inr ⟨_, _, _, _, _, advances_of_moves present found (.depart stage rfl) ?_
            (by simp) (by simp)⟩
          rw [← depart_eq_progress found]
          simp [step, joinWriter, present, stage]
      | _ => exact .inl (idles (by simp [step, joinWriter, present, stage]))
  | leaving generation read writer =>
      obtain ⟨phase, nextPing, stopping⟩ := writer
      cases phase with
      | ended outcome =>
          refine .inr ⟨_, _, _, _, _, advances_of_moves present found (.departLeaving stage rfl) ?_
            (by simp) (by simp)⟩
          rw [← depart_eq_progress found]
          simp [step, joinWriter, present, stage]
      | _ => exact .inl (idles (by simp [step, joinWriter, present, stage]))
  | _ => exact .inl (idles (by simp [step, joinWriter, present, stage]))

omit present found in
/-- A step of a session does nothing, or is one of its moves. -/
theorem idles_or_advances {step : ServerStep} (concerns : step.session? = some key)
    (boxed : ∀ session, server.sessions.get? key = some session →
      ∃ box, server.broker.hub.outboxes.get? key = some box) :
    server.Idles step ∨ ∃ session box later laterBox request carried added,
      server.Advances step key session box later laterBox request carried added := by
  cases present : server.sessions.get? key with
  | none =>
      refine .inl ⟨?_, fun id => ?_, fun id => ?_⟩
      · cases step <;> cases concerns <;>
          simp [Server.step, answer, arrive, fallSilent, turn, written, unwritten, giveUpWrite,
            changeWriter, endRefusal, joinReader, joinWriter, present]
      · unfold frameBy
        split
        · cases concerns
          simp [present]
        · rfl
      · unfold confirmedBy ownBy
        split
        · cases concerns
          simp [present]
        · rfl
  | some session =>
      obtain ⟨box, found⟩ := boxed session present
      have moved (either : server.Idles step ∨ ∃ later laterBox request carried added,
          server.Advances step key session box later laterBox request carried added) :
          server.Idles step ∨ ∃ session box later laterBox request carried added,
            server.Advances step key session box later laterBox request carried added :=
        either.imp id fun advances => ⟨session, box, advances⟩
      cases step with
      | answer other =>
          cases concerns
          exact moved (answer_advances present found)
      | arrive other arrival =>
          cases concerns
          exact moved (arrive_advances present found arrival)
      | fallSilent other =>
          cases concerns
          exact moved (fallSilent_advances present found)
      | turn other =>
          cases concerns
          exact moved (turn_advances present found)
      | written other =>
          cases concerns
          exact moved (written_advances present found)
      | unwritten other =>
          cases concerns
          exact moved (unwritten_advances present found)
      | giveUpWrite other =>
          cases concerns
          exact moved (giveUpWrite_advances present found)
      | joinReader other =>
          cases concerns
          exact moved (joinReader_advances present found)
      | joinWriter other =>
          cases concerns
          exact moved (joinWriter_advances present found)
      | _ => cases concerns

end Server
end Parley
