import Parley.Proofs.Server.Chronicle

/-!
# The end of a session

A session tells the hub of its end once at most, and in the way that fits the side that
ended first.  It keeps silent only when the hub has let go of its outbox or has stopped,
and then no entry is attached to its transport.  So no connection is left behind without
a session.
-/

namespace Parley
namespace Server

/-- What a peer whose registration failed is told. -/
def refusal (cause : AdmissionError) : CloseReason :=
  { code := Session.tryAgainLater, text := cause.message }

/-- A session with a writer has told nothing yet, and all that its outbox accepted was
written, is with the writer or is held. -/
structure Accounts (server : Server) (key : OutboxId) (id : ConnectionId)
    (generation : Generation) (writer : Writer) (box : Outbox) (log : Chronicle) : Prop where
  answers : log.answers = [.ok generation]
  told : log.told = []
  serves : writer.Serves box
  adds_up : log.written ++ (writer.pending ++ box.held) = log.accepted
  confines : server.broker.hub.Confines id generation [key]

/-- What a session has told the hub, depending on the side that ended first. -/
inductive Tells (running : Bool) (id : ConnectionId) (generation : Generation) (box : Outbox)
    (log : Chronicle) (first : FirstEnd) : Prop
  /-- Nothing: the hub has stopped, or it closed the outbox itself. -/
  | nothing (told : log.told = [])
      (why : running = false ∨ first = .writer .queueClosed ∧ box.released = true)
  /-- That the peer left. -/
  | left {letter : Letter} (told : log.told = [letter]) (closed : first = .reader .peerClosed)
      (request : letter.request = .unregister id generation)
  /-- That the transport was lost, with what its outbox accepted and nobody wrote. -/
  | lost {letter : Letter} {undelivered : List Payload} (told : log.told = [letter])
      (loss : first.isLoss = true) (request : letter.request = .detach id generation undelivered)
      (adds_up : log.written ++ undelivered = log.accepted)

/-- What the chronicle of a session says at each of its stages. -/
inductive Recounts (server : Server) (key : OutboxId) (session : Session) (box : Outbox)
    (log : Chronicle) : Prop
  | enrolling {ticket : Ticket} (stage : session.stage = .enrolling ticket)
      (listening : box.isOpen = true) (accepted : log = { accepted := box.held })
      (entered : ∀ generation,
        server.broker.replies.get? ticket = some (.ok (.registered generation)) →
        server.broker.hub.Confines session.admission.id generation [key])
  | refused {cause : AdmissionError}
      (stage : session.stage = .refusing (refusal cause) ∨ session.stage = .over)
      (answers : log.answers = [.error cause])
      (attempted : log.attempted = [.close (some (refusal cause))]) (told : log.told = [])
  | serving {generation : Generation} {reader : Reader} {writer : Writer}
      (stage : session.stage = .serving generation reader writer)
      (accounts : server.Accounts key session.admission.id generation writer box log)
      (unstopped : writer.Unstopped) (ends : log.ends = [])
  | leaving {generation : Generation} {outcome : ReadEnd} {writer : Writer}
      (stage : session.stage = .leaving generation outcome writer)
      (accounts : server.Accounts key session.admission.id generation writer box log)
      (ends : log.ends = [.reader outcome])
  | finished {generation : Generation} {first : FirstEnd} (stage : session.stage = .over)
      (answers : log.answers = [.ok generation]) (ends : log.ends = [first])
      (closed : box.isOpen = false)
      (tells : Tells server.broker.running session.admission.id generation box log first)
      (confines : server.broker.hub.Confines session.admission.id generation [key])
      (waits : (∃ letter ∈ log.told, letter ∈ server.broker.mailbox) ∨
        server.broker.hub.Confines session.admission.id generation [])

variable {server later : Server} {key : OutboxId} {session entry : Session}
  {id : ConnectionId} {generation : Generation} {writer laterWriter : Writer}
  {box laterBox : Outbox} {log note : Chronicle} {first : FirstEnd}

/-! ## Steps of others -/

/-- What the outbox accepts is owed. -/
theorem Accounts.feed (accounts : server.Accounts key id generation writer box log)
    (fed : box.Fed laterBox) (confines : later.broker.hub.Confines id generation [key])
    (answers : note.answers = []) (told : note.told = []) (written : note.written = [])
    (accepted : note.accepted = laterBox.held.drop box.held.length) :
    later.Accounts key id generation writer laterBox (log ++ note) where
  answers := by simp [accounts.answers, answers]
  told := by simp [accounts.told, told]
  serves := accounts.serves.fed fed
  adds_up :=
    calc (log ++ note).written ++ (writer.pending ++ laterBox.held)
        = log.written ++ (writer.pending ++ box.held) ++ laterBox.held.drop box.held.length := by
          rw [Chronicle.written_append, written, List.append_nil, ← fed.held_append_drop]
          simp only [List.append_assoc, List.drop_left]
      _ = (log ++ note).accepted := by
          rw [accounts.adds_up, Chronicle.accepted_append, accepted]
  confines := confines

/-- What a session has told is about its own generation. -/
theorem Tells.departed {running : Bool} (tells : Tells running id generation box log first)
    {letter : Letter} (told : letter ∈ log.told) :
    letter.request.departed? = some (id, generation) := by
  cases tells with
  | nothing silent =>
      rw [silent] at told
      cases told
  | left alone _ request =>
      rw [alone, List.mem_singleton] at told
      rw [told, request]
      rfl
  | lost alone _ request =>
      rw [alone, List.mem_singleton] at told
      rw [told, request]
      rfl

/-- Others do not change what a session has told, nor what it has to account for. -/
theorem Recounts.standsBy (recounts : server.Recounts key session box log)
    (standsBy : StandsBy key session box server later laterBox) :
    later.Recounts key session laterBox
      (log ++ { accepted := laterBox.held.drop box.held.length }) := by
  cases recounts with
  | enrolling stage listening accepted entered =>
      refine .enrolling stage (standsBy.fed.isOpen.trans listening) ?_ fun generation given => ?_
      · subst accepted
        show Chronicle.mk .. = Chronicle.mk ..
        simp only [List.append_nil, standsBy.fed.held_append_drop]
      · rcases standsBy.replies _ generation stage given with before | confines
        · exact standsBy.confines _ _ _ (entered generation before)
        · exact confines
  | refused stage answers attempted told =>
      exact .refused stage (by simpa using answers) (by simpa using attempted) (by simpa using told)
  | serving stage accounts unstopped ends =>
      exact .serving stage
        (accounts.feed standsBy.fed (standsBy.confines _ _ _ accounts.confines) rfl rfl rfl rfl)
        unstopped (by simpa using ends)
  | leaving stage accounts ends =>
      exact .leaving stage
        (accounts.feed standsBy.fed (standsBy.confines _ _ _ accounts.confines) rfl rfl rfl rfl)
        (by simpa using ends)
  | finished stage answers ends closed tells confines waits =>
      have nothing : laterBox.held.drop box.held.length = [] := by
        rw [standsBy.fed.refused closed, List.drop_length]
      rw [nothing, Chronicle.append_empty]
      refine .finished stage answers ends (standsBy.fed.isOpen.trans closed) ?_
        (standsBy.confines _ _ _ confines) ?_
      · cases tells with
        | nothing told why =>
            exact .nothing told (why.imp standsBy.stopped (And.imp_right standsBy.fed.released))
        | left told closed request => exact .left told closed request
        | lost told loss request adds_up => exact .lost told loss request adds_up
      · rcases waits with ⟨letter, told, member⟩ | gone
        · rcases standsBy.letters letter member with still | served
          · exact .inl ⟨letter, told, still⟩
          · exact .inr (served _ _ _ (tells.departed told) confines)
        · exact .inr (standsBy.confines _ _ _ gone)

/-! ## Steps of the session -/

/-- The writer works. -/
theorem Accounts.work (accounts : server.Accounts key id generation writer box log)
    {settings : Settings} {now : Moment} {carried : List Payload}
    (works : writer.Works settings now box laterWriter laterBox carried)
    (confines : later.broker.hub.Confines id generation [key])
    (answers : note.answers = []) (told : note.told = []) (written : note.written = carried)
    (accepted : note.accepted = laterBox.held.drop box.held.length) :
    later.Accounts key id generation laterWriter laterBox (log ++ note) where
  answers := by simp [accounts.answers, answers]
  told := by simp [accounts.told, told]
  serves := works.serves accounts.serves
  adds_up := by
    have nothing : note.accepted = [] :=
      accepted.trans (List.drop_eq_nil_of_le works.held_isSuffix.length_le)
    rw [Chronicle.written_append, Chronicle.accepted_append, written, nothing, List.append_nil,
      List.append_assoc, works.carried_append accounts.serves, accounts.adds_up]
  confines := confines

/-- The writer is told to stop. -/
theorem Accounts.stop (accounts : server.Accounts key id generation writer box log) :
    server.Accounts key id generation writer.stop box log :=
  ⟨accounts.answers, accounts.told, accounts.serves, accounts.adds_up, accounts.confines⟩

/-- A departure that suits the side that ended first. -/
def Suits (running : Bool) (box : Outbox) (written : WriteEnd) (first : FirstEnd) :
    Option Departure → Prop
  | none => running = false ∨ first = .writer .queueClosed ∧ box.released = true
  | some .left => first = .reader .peerClosed
  | some (.lost undelivered) => first.isLoss = true ∧ undelivered = written.undelivered

theorem posted_of_stopped (stopped : server.broker.running = false) (request : Option Request) :
    server.posted request = [] := by
  simp [posted, stopped]

/-- A departure is told when somebody is there to listen. -/
theorem Suits.tells {written : WriteEnd} {departure : Option Departure}
    (suits : Suits server.broker.running box written first departure) (silent : log.told = [])
    (adds_up : log.written ++ written.undelivered = log.accepted)
    (told : note.told = server.posted (departure.map (·.request id generation)))
    (nothing : note.written = [] ∧ note.accepted = []) :
    Tells server.broker.running id generation box (log ++ note) first := by
  have toldAll : (log ++ note).told = server.posted (departure.map (·.request id generation)) := by
    rw [Chronicle.told_append, silent, told, List.nil_append]
  have adds_upAll : (log ++ note).written ++ written.undelivered = (log ++ note).accepted := by
    simpa [nothing] using adds_up
  cases running : server.broker.running with
  | false => exact .nothing (toldAll.trans (posted_of_stopped running _)) (.inl rfl)
  | true =>
      simp only [posted, running, if_true] at toldAll
      cases departure with
      | none =>
          rw [running] at suits
          exact .nothing toldAll suits
      | some departure =>
          cases departure with
          | left => exact .left toldAll suits rfl
          | lost undelivered =>
              obtain ⟨loss, rfl⟩ := suits
              exact .lost toldAll loss rfl adds_upAll

/-- Either somebody is there to listen, or nobody is attached to the transport any more. -/
theorem Suits.waits {written : WriteEnd} {departure : Option Departure}
    (suits : Suits server.broker.running box written first departure)
    (threaded : server.Threaded) (found : server.broker.hub.outboxes.get? key = some box)
    (confines : server.broker.hub.Confines id generation [key]) :
    (∃ letter, letter ∈ server.posted (departure.map (·.request id generation))) ∨
      server.broker.hub.Confines id generation [] := by
  cases running : server.broker.running with
  | false => exact .inr (.of_absent confines.given ((threaded.numbered.stopped running).2 id))
  | true =>
      cases departure with
      | some departure =>
          exact .inl ⟨⟨server.broker.nextTicket, departure.request id generation⟩,
            by simp [posted, running]⟩
      | none =>
          rcases suits with stopped | ⟨_, released⟩
          · rw [running] at stopped
            cases stopped
          · exact .inr (confines.of_released threaded.linked found released)

/-- A session changes nothing about who is attached. -/
theorem confines_progress (key : OutboxId) {request : Option Request} {carried added : List Payload}
    (moves : session.Moves server box entry laterBox request carried added)
    {keys : List OutboxId} (confines : server.broker.hub.Confines id generation keys) :
    (server.progress key entry laterBox request).broker.hub.Confines id generation keys := by
  rw [hub_progress key moves]
  exact confines.inherit (.congr rfl rfl)

/-- The writer has ended, and the session with it. -/
theorem Accounts.over
    (accounts : server.Accounts key session.admission.id generation writer box log)
    (threaded : server.Threaded) (found : server.broker.hub.outboxes.get? key = some box)
    {written : WriteEnd} (ended : writer.phase = .ended written) {departure : Option Departure}
    (suits : Suits server.broker.running box written first departure)
    {carried added : List Payload}
    (moves : session.Moves server box { session with stage := .over } box
      (departure.map (·.request session.admission.id generation)) carried added)
    (answers : note.answers = []) (ends : log.ends ++ note.ends = [first])
    (nothing : note.written = [] ∧ note.accepted = [])
    (told : note.told =
      server.posted (departure.map (·.request session.admission.id generation))) :
    (server.progress key { session with stage := .over } box
        (departure.map (·.request session.admission.id generation))).Recounts key
      { session with stage := .over } box (log ++ note) := by
  have serves := accounts.serves
  have adds_up := accounts.adds_up
  simp only [Writer.Serves, Writer.pending, ended] at serves adds_up
  obtain ⟨closed, empty, _⟩ := serves
  rw [empty, List.append_nil] at adds_up
  have tells := suits.tells accounts.told adds_up told nothing
  rw [← running_progress key moves] at tells
  refine .finished rfl (by simp [accounts.answers, answers]) ends closed tells
    (confines_progress key moves accounts.confines) ?_
  rcases suits.waits threaded found accounts.confines with ⟨letter, member⟩ | gone
  · refine .inl ⟨letter, ?_, ?_⟩
    · rw [Chronicle.told_append, told]
      exact List.mem_append_right _ member
    · rw [mailbox_progress moves]
      exact List.mem_append_right _ member
  · exact .inr (confines_progress key moves gone)

/-- Every letter about a departure is one that tells the end of a transport. -/
theorem filter_posted (departure : Option Departure) :
    (server.posted (departure.map (·.request id generation))).filter
        (fun letter => letter.request.departed?.isSome) =
      server.posted (departure.map (·.request id generation)) := by
  rw [List.filter_eq_self]
  intro letter member
  cases departure with
  | none => cases running : server.broker.running <;> simp [posted, running] at member
  | some departure =>
      cases running : server.broker.running <;> simp [posted, running] at member
      rw [member]
      simp

/-- Any other request tells no end. -/
theorem filter_posted_of_stays {request : Request} (stays : ∀ id, request.departs id = false) :
    (server.posted (some request)).filter (fun letter => letter.request.departed?.isSome) = [] := by
  have silent := request.departed?_of_stays stays
  cases running : server.broker.running <;> simp [posted, running, silent]

/-- A departure whose writer ended first. -/
theorem Accounts.suits_ofWriter (accounts : server.Accounts key id generation writer box log)
    (unstopped : writer.Unstopped) {written : WriteEnd} (ended : writer.phase = .ended written) :
    Suits server.broker.running box written (.writer written) (Departure.ofWriter written) := by
  have serves := accounts.serves
  simp only [Writer.Serves, ended] at serves
  cases written with
  | queueClosed => exact .inr ⟨rfl, serves.2.2 rfl⟩
  | stopped undelivered => exact absurd ended (unstopped.2.2 undelivered)
  | failed undelivered => exact ⟨rfl, rfl⟩

/-- A departure whose reader ended first. -/
theorem suits_ofReader {outcome : ReadEnd}
    (alive : server.broker.running = true → outcome ≠ .hubClosed) (box : Outbox)
    (written : WriteEnd) :
    Suits server.broker.running box written (.reader outcome)
      (Departure.ofReader outcome written) := by
  cases outcome with
  | hubClosed =>
      refine .inl (Bool.eq_false_iff.2 fun running => ?_)
      exact alive running rfl
  | peerClosed => rfl
  | transportError => exact ⟨rfl, rfl⟩
  | streamEnded => exact ⟨rfl, rfl⟩
  | idleTimeout => exact ⟨rfl, rfl⟩

/-- Whatever a session does while both its sides are there, its chronicle says so. -/
theorem Accounts.advance_serving {admission : Admission} {reader : Reader}
    (accounts : server.Accounts key admission.id generation writer box log)
    (threaded : server.Threaded) (found : server.broker.hub.outboxes.get? key = some box)
    (unstopped : writer.Unstopped) (ends : log.ends = []) {request : Option Request}
    {carried added : List Payload}
    (moves : Session.Moves server ⟨admission, .serving generation reader writer⟩ box entry laterBox
      request carried added) :
    (server.progress key entry laterBox request).Recounts key entry laterBox
      (log ++ server.noteOfMove ⟨admission, .serving generation reader writer⟩ entry box laterBox
        request carried) := by
  have confines := confines_progress key moves accounts.confines
  cases moves with
  | enroll waiting => cases waiting
  | refuse refusing => cases refusing
  | departLeaving leaving => cases leaving
  | @conclude _ command _ _ outcome asking =>
      have fed := Reader.fed_conclude server.settings server.now command outcome box
      exact .serving rfl (accounts.feed fed confines rfl (told_noteOfMove_none ..) rfl rfl)
        unstopped (by simp [ends, Session.firstEnd?, Session.withReader])
  | hear listening =>
      exact .serving rfl (accounts.feed (.refl box) confines rfl (told_noteOfMove_none ..) rfl rfl)
        unstopped (by simp [ends, Session.firstEnd?, Session.withReader])
  | ask listening alive plain stays =>
      exact .serving rfl
        (accounts.feed (.refl box) confines rfl (filter_posted_of_stays stays) rfl rfl)
        unstopped (by simp [ends, Session.firstEnd?, Session.withReader])
  | work writing works =>
      cases writing
      exact .serving rfl (accounts.work works confines rfl (told_noteOfMove_none ..) rfl rfl)
        (works.unstopped unstopped) (by simp [ends, Session.firstEnd?, Session.withWriter])
  | leave serving =>
      cases serving
      exact .leaving rfl
        (accounts.feed (.refl box) confines rfl (told_noteOfMove_none ..) rfl rfl).stop
        (by simp [ends, Session.firstEnd?])
  | @depart _ _ _ written serving ended =>
      cases serving
      exact accounts.over threaded found ended (accounts.suits_ofWriter unstopped ended)
        (.depart rfl ended) rfl
        (by simp [ends, Session.firstEnd?, Writer.outcome?_eq_some_iff.2 ended])
        ⟨rfl, List.drop_length⟩ (filter_posted _)

/-- Whatever a session does once its reader has ended, its chronicle says so. -/
theorem Accounts.advance_leaving {admission : Admission} {outcome : ReadEnd}
    (accounts : server.Accounts key admission.id generation writer box log)
    (threaded : server.Threaded) (found : server.broker.hub.outboxes.get? key = some box)
    (alive : server.broker.running = true → outcome ≠ .hubClosed)
    (ends : log.ends = [.reader outcome]) {request : Option Request}
    {carried added : List Payload}
    (moves : Session.Moves server ⟨admission, .leaving generation outcome writer⟩ box entry laterBox
      request carried added) :
    (server.progress key entry laterBox request).Recounts key entry laterBox
      (log ++ server.noteOfMove ⟨admission, .leaving generation outcome writer⟩ entry box laterBox
        request carried) := by
  have confines := confines_progress key moves accounts.confines
  cases moves with
  | enroll waiting => cases waiting
  | conclude asking => cases asking
  | hear listening => cases listening
  | ask listening => cases listening
  | refuse refusing => cases refusing
  | leave serving => cases serving
  | depart serving => cases serving
  | work writing works =>
      cases writing
      exact .leaving rfl (accounts.work works confines rfl (told_noteOfMove_none ..) rfl rfl)
        (by simp [ends, Session.firstEnd?])
  | @departLeaving _ _ _ written leaving ended =>
      cases leaving
      exact accounts.over threaded found ended (suits_ofReader alive box written)
        (.departLeaving rfl ended) rfl (by simp [ends, Session.firstEnd?])
        ⟨rfl, List.drop_length⟩ (filter_posted _)

/-- Whatever a registered session does, its chronicle says so. -/
theorem Recounts.advance (recounts : server.Recounts key session box log)
    (threaded : server.Threaded) {step : ServerStep} {request : Option Request}
    {carried added : List Payload} (concerns : step.session? = some key)
    (advances : server.Advances step key session box entry laterBox request carried added)
    (registered : ∀ ticket, session.stage ≠ .enrolling ticket) :
    (server.step step).Recounts key entry laterBox (log ++ server.noted key step) := by
  have moves := advances.moves
  rw [noted_of_advances concerns advances registered, advances.result]
  cases recounts with
  | enrolling stage => exact absurd stage (registered _)
  | finished stage => exact absurd stage moves.not_over
  | @refused cause stage answers attempted told =>
      rcases stage with refusing | ended
      · have idle : session.writer? = none := by simp [Session.writer?, refusing]
        obtain ⟨⟨rfl, rfl, rfl, rfl⟩, ⟨_, _, stage, _⟩ | ⟨_, rfl⟩⟩ := moves.of_idle idle
        · exact absurd stage (registered _)
        · refine @Recounts.refused _ _ _ _ _ cause (.inr rfl) (by simp [answers]) ?_
            (by simp [told])
          simp [attempted, Session.outgoing?, refusing, begun]
      · exact absurd ended moves.not_over
  | @serving generation reader writer stage accounts unstopped ends =>
      obtain ⟨admission, _⟩ := session
      cases stage
      exact accounts.advance_serving threaded advances.found unstopped ends moves
  | @leaving generation outcome writer stage accounts ends =>
      have alive (running : server.broker.running = true) : outcome ≠ .hubClosed := by
        rintro rfl
        exact threaded.alive running key session advances.present ⟨_, _, .inr stage⟩
      obtain ⟨admission, _⟩ := session
      cases stage
      exact accounts.advance_leaving threaded advances.found alive ends moves

/-- The session of an admission exists, and a chronicle tells what became of it. -/
def Chronicles (server : Server) (key : OutboxId) (admission : Admission) (log : Chronicle) :
    Prop :=
  ∃ session box, server.sessions.get? key = some session ∧
    server.broker.hub.outboxes.get? key = some box ∧ session.admission = admission ∧
    server.Recounts key session box log

/-- The answer to the registration arrives. -/
theorem Recounts.enroll (recounts : server.Recounts key session box log)
    {ticket : Ticket} (stage : session.stage = .enrolling ticket) {outcome : Outcome}
    (answered : server.broker.replies.get? ticket = some outcome) (settings : Settings)
    (now : Moment) :
    let entry : Session := { session with stage := Session.enrolled settings now outcome }
    (server.setSession key entry).Recounts key entry box
      (log ++ {
        answers := [Admission.generation? outcome]
        attempted := begun none entry.outgoing? }) := by
  intro entry
  cases recounts with
  | refused other => simp [stage] at other
  | serving other => simp [stage] at other
  | leaving other => simp [stage] at other
  | finished other => simp [stage] at other
  | @enrolling same other listening accepted entered =>
      obtain rfl := SessionStage.enrolling.inj (other.symm.trans stage)
      subst accepted
      cases given : Admission.generation? outcome with
      | error cause =>
          refine @Recounts.refused _ _ _ _ _ cause (.inl ?_) rfl ?_ rfl
          · simp [entry, Session.enrolled, given, refusal]
          · simp [entry, Session.enrolled, given, refusal, Session.outgoing?, begun]
      | ok generation =>
          have registered := Admission.eq_of_generation? given
          have serving : entry.stage =
              .serving generation (Reader.listen settings now) (Writer.start settings now) := by
            simp [entry, Session.enrolled, given]
          refine .serving serving ⟨rfl, rfl, listening, ?_, entered generation ?_⟩
            ⟨rfl, fun _ drains => (by cases drains), fun _ ended => (by cases ended)⟩ rfl
          · simp [Writer.pending, Writer.start]
          · rw [answered, registered]

/-- A session that was not there begins with a chronicle of its own. -/
theorem noted_upgrade (threaded : server.Threaded) {admission : Admission}
    (result : (server.upgrade admission).2 = later)
    (present : later.sessions.get? server.nextOutbox = some session)
    (found : later.broker.hub.outboxes.get? server.nextOutbox = some box) (empty : box.held = []) :
    server.noted server.nextOutbox (.upgrade admission) =
      { answers := server.answersBy server.nextOutbox (.upgrade admission)
        attempted := begun none session.outgoing? } := by
  have absent : server.sessions.get? server.nextOutbox = none := by
    cases there : server.sessions.get? server.nextOutbox with
    | none => rfl
    | some earlier =>
        obtain ⟨box, found⟩ := threaded.boxed _ earlier there
        exact absurd rfl (threaded.ne_nextOutbox found)
  simp [noted, Server.step, result, absent, present, outbox_of_present found, empty, writtenBy,
    toldBy, ServerStep.session?]

/-- A new session waits for its registration, or is refused at once. -/
theorem Chronicles.upgrade (threaded : server.Threaded) (admission : Admission) :
    (server.step (.upgrade admission)).Chronicles server.nextOutbox admission
      (server.noted server.nextOutbox (.upgrade admission)) := by
  rw [Server.step]
  cases running : server.broker.running with
  | true =>
      have result := upgrade_of_running running admission
      have present := Table.get?_set_self server.sessions server.nextOutbox
        ⟨admission, .enrolling server.broker.nextTicket⟩
      have found := Table.get?_set_self server.broker.hub.outboxes server.nextOutbox
        { capacity := server.broker.hub.settings.queueCapacity }
      have unanswered : server.answersBy server.nextOutbox (.upgrade admission) = [] := by
        simp [answersBy, Server.submit, Broker.submit, running, Admission.registration,
          Request.awaited]
      rw [noted_upgrade threaded result present found rfl, unanswered, result]
      refine ⟨_, _, present, found, rfl, .enrolling rfl rfl rfl fun generation given => ?_⟩
      rw [threaded.numbered.get?_nextTicket] at given
      cases given
  | false =>
      have result := upgrade_of_stopped running admission
      have present := Table.get?_set_self server.sessions server.nextOutbox
        ⟨admission, Session.enrolled server.settings server.now (.error .stopped)⟩
      have found := Outboxes.get?_release_self (server.broker.hub.outboxes.set server.nextOutbox
        { capacity := server.broker.hub.settings.queueCapacity }) server.nextOutbox
      rw [Table.get?_set_self, Option.map_some] at found
      have refused : server.answersBy server.nextOutbox (.upgrade admission) =
          [.error .hubUnavailable] := by
        simp [answersBy, Server.submit, Broker.submit, running, Admission.generation?,
          AdmissionError.ofRefusal]
      rw [noted_upgrade threaded result present found rfl, refused, result]
      exact ⟨_, _, present, found, rfl,
        @Recounts.refused _ _ _ _ _ .hubUnavailable (.inl rfl) rfl rfl rfl⟩

/-- Whatever happens, the chronicle goes on. -/
theorem Chronicles.step {admission : Admission} (chronicles : server.Chronicles key admission log)
    (threaded : server.Threaded) {step : ServerStep}
    (plain : ∀ request, step = .submit request → request.outbox? = none) :
    (server.step step).Chronicles key admission (log ++ server.noted key step) := by
  obtain ⟨session, box, present, found, own, recounts⟩ := chronicles
  by_cases concerns : step.session? = some key
  · by_cases waiting : ∃ ticket, session.stage = .enrolling ticket
    · obtain ⟨ticket, stage⟩ := waiting
      rcases noted_of_enrolling present stage concerns with
        ⟨same, nothing⟩ | ⟨outcome, answered, result, noted⟩
      · rw [same, nothing, Chronicle.append_empty]
        exact ⟨session, box, present, found, own, recounts⟩
      · rw [noted, result]
        exact ⟨_, box, Table.get?_set_self _ _ _, found, own, recounts.enroll stage answered _ _⟩
    · have registered (ticket : Ticket) : session.stage ≠ .enrolling ticket :=
        fun stage => waiting ⟨ticket, stage⟩
      rcases idles_or_advances concerns (threaded.boxed key) with
        idles | ⟨other, otherBox, entry, laterBox, request, carried, added, advances⟩
      · rw [noted_of_idle idles concerns present registered, Chronicle.append_empty, idles.result]
        exact ⟨session, box, present, found, own, recounts⟩
      · obtain rfl := Option.some.inj (present.symm.trans advances.present)
        obtain rfl := Option.some.inj (found.symm.trans advances.found)
        refine ⟨entry, laterBox, ?_, ?_, advances.moves.admission_eq.trans own,
          recounts.advance threaded concerns advances registered⟩
        · rw [advances.result]
          exact Table.get?_set_self _ _ _
        · rw [advances.result, hub_progress key advances.moves]
          exact Table.get?_set_self _ _ _
  · obtain ⟨laterBox, standsBy⟩ := standsBy_step present found threaded plain concerns
    rw [noted_of_elsewhere threaded concerns present found standsBy.present standsBy.found]
    exact ⟨session, laterBox, standsBy.present, standsBy.found, own, recounts.standsBy standsBy⟩

theorem Chronicles.run {admission : Admission} {steps : List ServerStep}
    (chronicles : server.Chronicles key admission log) (threaded : server.Threaded)
    (plain : ∀ request, .submit request ∈ steps → request.outbox? = none) :
    (server.run steps).Chronicles key admission (log ++ server.chronicle key steps) := by
  induction steps generalizing server log with
  | nil =>
      rw [chronicle, Chronicle.append_empty]
      exact chronicles
  | cons step rest induction =>
      have first (request : Request) (same : step = .submit request) : request.outbox? = none :=
        plain request (by rw [same]; exact List.mem_cons_self)
      rw [chronicle, ← Chronicle.append_assoc]
      exact induction (chronicles.step threaded first) (threaded.step first)
        fun request member => plain request (List.mem_cons_of_mem _ member)

/-! ## What an onlooker sees -/

/-- A peer that is refused is told so, and the hub is told nothing. -/
theorem Recounts.of_error (recounts : server.Recounts key session box log)
    {cause : AdmissionError} (answer : .error cause ∈ log.answers) :
    log.attempted = [.close (some (refusal cause))] ∧ log.told = [] := by
  cases recounts with
  | enrolling _ _ accepted =>
      rw [accepted] at answer
      cases answer
  | refused _ answers attempted told =>
      rw [answers, List.mem_singleton] at answer
      cases answer
      exact ⟨attempted, told⟩
  | serving _ accounts =>
      rw [accounts.answers, List.mem_singleton] at answer
      cases answer
  | leaving _ accounts =>
      rw [accounts.answers, List.mem_singleton] at answer
      cases answer
  | finished _ answers =>
      rw [answers, List.mem_singleton] at answer
      cases answer

/-- A registered session tells at most one end, and tells its own. -/
theorem Recounts.of_ok (recounts : server.Recounts key session box log)
    (answer : .ok generation ∈ log.answers) :
    log.told.length ≤ 1 ∧
      ∀ letter ∈ log.told, letter.request.departed? = some (session.admission.id, generation) := by
  have silent (nothing : log.told = []) : log.told.length ≤ 1 ∧
      ∀ letter ∈ log.told, letter.request.departed? = some (session.admission.id, generation) := by
    simp [nothing]
  cases recounts with
  | enrolling _ _ accepted =>
      rw [accepted] at answer
      cases answer
  | refused _ answers =>
      rw [answers, List.mem_singleton] at answer
      cases answer
  | serving _ accounts => exact silent accounts.told
  | leaving _ accounts => exact silent accounts.told
  | finished _ answers _ _ tells =>
      rw [answers, List.mem_singleton] at answer
      cases answer
      refine ⟨?_, fun letter member => tells.departed member⟩
      cases tells <;> simp [*]

/-- When a registered session is over, the hub was told what the side that ended first
calls for, and once it has heard it nobody is attached to the transport. -/
theorem Recounts.of_over (recounts : server.Recounts key session box log)
    (answer : .ok generation ∈ log.answers) (stage : session.stage = .over) :
    ∃ first, log.ends = [first] ∧
      Tells server.broker.running session.admission.id generation box log first ∧
      ((∀ letter ∈ log.told, letter ∉ server.broker.mailbox) →
        server.broker.hub.Confines session.admission.id generation []) := by
  cases recounts with
  | enrolling _ _ accepted =>
      rw [accepted] at answer
      cases answer
  | refused _ answers =>
      rw [answers, List.mem_singleton] at answer
      cases answer
  | serving other => simp [stage] at other
  | leaving other => simp [stage] at other
  | @finished _ first _ answers ends _ tells _ waits =>
      rw [answers, List.mem_singleton] at answer
      cases answer
      refine ⟨first, ends, tells, fun heard => ?_⟩
      rcases waits with ⟨letter, told, member⟩ | gone
      · exact absurd member (heard letter told)
      · exact gone

/-- No connection is left behind without a session.  Along every run in which nobody but a
session registers, whatever arrives, fails or falls silent, whatever the hub does
meanwhile and whichever side ends first,
(1) a peer whose registration fails is sent a close, and the hub is never told of its end,
(2) a session whose registration succeeds tells at most one end, its own, and (3) once it
is over, the hub was told what the side that ended first calls for, unless it let go of the
outbox or stopped; and as soon as the hub has heard it, no entry is attached under the
generation of the session. -/
theorem no_connection_is_orphaned (settings : Settings) (startedAt : Stamp)
    (earlier later : List ServerStep) (admission : Admission)
    (plain : ∀ request, .submit request ∈ earlier ++ later → request.outbox? = none) :
    let start := (Server.new settings startedAt).run earlier
    let key := start.nextOutbox
    let steps := .upgrade admission :: later
    let server := start.run steps
    let log := start.chronicle key steps
    (∀ cause, .error cause ∈ log.answers →
      log.attempted = [.close (some ⟨Session.tryAgainLater, cause.message⟩)] ∧ log.told = []) ∧
    ∀ generation, .ok generation ∈ log.answers →
      (log.told.length ≤ 1 ∧
        ∀ letter ∈ log.told, letter.request.departed? = some (admission.id, generation)) ∧
      ((server.sessions.get? key).map Session.stage = some .over →
        ∃ first, log.ends = [first] ∧
          Tells server.broker.running admission.id generation (server.outbox key) log first ∧
          ((∀ letter ∈ log.told, letter ∉ server.broker.mailbox) →
            ∀ connection, server.broker.hub.connections.get? admission.id = some connection →
              connection.generation = generation → connection.isLive = false)) := by
  intro start key steps server log
  have threaded : start.Threaded := (Threaded.new settings startedAt).run fun request member =>
    plain request (List.mem_append_left _ member)
  have first : (start.step (.upgrade admission)).Threaded := threaded.upgrade admission
  have chronicles : server.Chronicles key admission log :=
    (Chronicles.upgrade threaded admission).run first fun request member =>
      plain request (List.mem_append_right _ member)
  obtain ⟨session, box, present, found, rfl, recounts⟩ := chronicles
  refine ⟨fun cause => recounts.of_error, fun generation answer => ⟨recounts.of_ok answer, ?_⟩⟩
  intro ended
  rw [present, Option.map_some, Option.some_inj] at ended
  obtain ⟨side, ends, tells, gone⟩ := recounts.of_over answer ended
  rw [outbox_of_present found]
  exact ⟨side, ends, tells, fun heard => (gone heard).not_live⟩

/-- Alice's write fails.  What is broadcast before her outbox is closed goes there, what is
broadcast before the session is over waits for her without having gone to it.  The hub is
told what her outbox accepted and nobody wrote, and then nobody is attached under her
generation. -/
theorem no_connection_is_orphaned_by_a_failed_write :
    let alice : ConnectionId := ⟨"alice", by decide⟩
    let bob : ConnectionId := ⟨"bob", by decide⟩
    let earlier : List ServerStep := [.upgrade ⟨bob, .default⟩, .serve, .answer 0]
    let later : List ServerStep := [.serve, .answer 1, .submit (.broadcast "one"), .serve, .turn 1,
      .turn 1, .written 1, .submit (.broadcast "two"), .serve, .turn 1, .turn 1,
      .submit (.broadcast "three"), .serve, .unwritten 1, .submit (.broadcast "four"), .serve,
      .turn 1, .submit (.broadcast "five"), .serve, .turn 1, .turn 1, .turn 1, .joinWriter 1,
      .serve]
    let start := (Server.new {} 0).run earlier
    let key := start.nextOutbox
    let server := start.run (.upgrade ⟨alice, .default⟩ :: later)
    let log := start.chronicle key (.upgrade ⟨alice, .default⟩ :: later)
    (∀ request, .submit request ∈ earlier ++ later → request.outbox? = none) ∧
      .ok 2 ∈ log.answers ∧ (server.sessions.get? key).map Session.stage = some .over ∧
      log.accepted = ["one", "two", "three", "four"] ∧ log.written = ["one"] ∧
      log.told.map Letter.request = [.detach alice 2 ["two", "three", "four"]] ∧
      ∀ connection, server.broker.hub.connections.get? alice = some connection →
        connection.generation = 2 → connection.isLive = false := by
  intro alice bob earlier later start key server log
  have plain : ∀ request, .submit request ∈ earlier ++ later → request.outbox? = none := by
    simp [earlier, later, Request.outbox?]
  have registered : (log.answers.map Except.toOption) = [some 2] := by decide +kernel
  have answered : .ok 2 ∈ log.answers := by
    obtain ⟨answer, member, same⟩ := List.mem_map.1 (registered ▸ List.mem_singleton_self (some 2))
    cases answer with
    | ok generation => cases same; exact member
    | error cause => cases same
  have ended : (server.sessions.get? key).map Session.stage = some .over := by decide +kernel
  obtain ⟨_, _, _, gone⟩ :=
    ((no_connection_is_orphaned {} 0 earlier later ⟨alice, .default⟩ plain).2 2 answered).2 ended
  have heard : ∀ letter ∈ log.told, letter ∉ server.broker.mailbox := by decide +kernel
  refine ⟨plain, answered, ended, by decide +kernel, by decide +kernel, by decide +kernel, ?_⟩
  subst log server key start
  exact gone heard

end Server
end Parley
