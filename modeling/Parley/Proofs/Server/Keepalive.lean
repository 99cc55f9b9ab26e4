import Parley.Proofs.Server.Stocked
import Parley.Proofs.Transport.Pace

/-!
# Staying alive

The two sides of a session run side by side: its writer pings, and its reader gives the
peer up after a silence.  Along every run in which the writer keeps pace and the peer
answers each ping at once, the reader never does.
-/

namespace Parley

/-! ## Readers -/

namespace Reader

/-- A reader that has just taken something in: it listens anew, asks the hub, or has ended
for a reason other than silence. -/
inductive Roused (settings : Settings) (now : Moment) : Reader → Prop
  | listen : Roused settings now (.listen settings now)
  | asking (command : Command) (ticket : Ticket) : Roused settings now (.asking command ticket)
  | ended (outcome : ReadEnd) (heard : outcome ≠ .idleTimeout) :
      Roused settings now (.ended outcome)

variable {settings : Settings} {now : Moment}

theorem roused_conclude (command : Command) (outcome : Outcome) (box : Outbox) :
    Roused settings now (conclude settings now command outcome box).1 := by
  unfold conclude
  split
  · exact .listen
  · exact .listen
  · dsimp only
    split
    · exact .ended _ (by decide)
    · exact .listen

theorem roused_of_hear {sender : ConnectionId} {arrival : Arrival} {reader : Reader}
    (turned : hear settings now sender arrival = .turn reader) : Roused settings now reader := by
  unfold hear at turned
  split at turned
  · cases turned
    exact .listen
  · rename_i outcome ended
    cases turned
    refine .ended outcome fun silent => ?_
    unfold Arrival.heard at ended
    grind
  · split at turned <;> cases turned
    exact .listen

end Reader

/-! ## Sessions -/

namespace Session

/-- How the reader of a session has ended, if it has. -/
def readEnd? (session : Session) : Option ReadEnd :=
  match session.stage with
  | .serving _ reader _ => reader.outcome?
  | .leaving _ outcome _ => some outcome
  | _ => none

/-- Whether a session is still where it is when time has passed up to a moment.  Its writer
keeps pace, and an answer that is owed comes at once to a reader that listens. -/
def Stays (session : Session) (settings : Settings) (pace : Pace) (now : Moment) (watch : Watch)
    (box : Outbox) (moment : Moment) : Prop :=
  match session.stage with
  | .serving _ reader writer =>
      (reader.due? ≠ none → watch.owed = false) ∧
        writer.Stays settings pace now watch.rested box moment
  | _ => True

instance {session : Session} {settings : Settings} {pace : Pace} {now : Moment} {watch : Watch}
    {box : Outbox} {moment : Moment} :
    Decidable (session.Stays settings pace now watch box moment) := by
  unfold Stays
  split <;> infer_instance

/-- A session that has kept pace so far: its reader will hear of the peer before it gives
the peer up, and has not done so yet. -/
structure OnTime (settings : Settings) (pace : Pace) (now : Moment) (watch : Watch)
    (session : Session) : Prop where
  inTime : ∀ generation reader writer, session.stage = .serving generation reader writer →
    writer.InTime settings pace now watch.rested
  hopes : ∀ generation deadline writer,
    session.stage = .serving generation (.listening deadline) writer →
      Reader.Hopes settings pace now watch writer deadline
  heard : session.readEnd? ≠ some .idleTimeout

variable {settings : Settings} {pace : Pace} {now : Moment} {watch later : Watch}
  {session : Session}

/-- A session that does not serve its peer has nothing to wait for. -/
theorem OnTime.of_apart (apart : session.reader? = none)
    (heard : session.readEnd? ≠ some .idleTimeout) :
    session.OnTime settings pace now watch where
  inTime generation reader writer stage := by simp [reader?, stage] at apart
  hopes generation deadline writer stage := by simp [reader?, stage] at apart
  heard := heard

/-- The stage of a session that has just been answered. -/
theorem OnTime.enrolled (fits : pace.Fits settings) (past : watch.rested ≤ now)
    (admission : Admission) (outcome : Outcome) :
    OnTime settings pace now watch ⟨admission, Session.enrolled settings now outcome⟩ := by
  unfold Session.enrolled
  cases Admission.generation? outcome with
  | error cause => exact .of_apart rfl (by simp [readEnd?])
  | ok generation =>
      have started := Writer.InTime.start settings pace past
      refine ⟨fun _ _ _ stage => ?_, fun _ _ _ stage => ?_,
        by simp [readEnd?, Reader.listen, Reader.outcome?]⟩
      · cases stage
        exact started
      · cases stage
        exact .fresh fits started

/-- The reader takes something in. -/
theorem OnTime.withReader (onTime : session.OnTime settings pace now watch)
    (fits : pace.Fits settings) (same : later.rested = watch.rested) {reader : Reader}
    (heard : reader.Roused settings now) :
    (session.withReader reader).OnTime settings pace now later := by
  obtain ⟨admission, stage⟩ := session
  cases stage with
  | serving generation other writer =>
      have inTime : writer.InTime settings pace now later.rested := by
        rw [same]
        exact onTime.inTime generation other writer rfl
      refine ⟨fun _ _ _ stage => ?_, fun _ _ _ stage => ?_, fun silent => ?_⟩
      · cases stage
        exact inTime
      · cases stage
        cases heard
        exact .fresh fits inTime
      · cases heard with
        | listen => cases silent
        | asking command ticket => cases silent
        | ended outcome heard => exact heard (Option.some.inj silent)
  | _ => exact .of_apart rfl onTime.heard

/-- The writer changes, and an onlooker may learn something from it. -/
theorem OnTime.withWriter (onTime : session.OnTime settings pace now watch)
    {writer laterWriter : Writer} (writing : session.writer? = some writer)
    (inTime : writer.InTime settings pace now watch.rested →
      laterWriter.InTime settings pace now later.rested)
    (hopes : ∀ deadline, writer.InTime settings pace now watch.rested →
      Reader.Hopes settings pace now watch writer deadline →
      Reader.Hopes settings pace now later laterWriter deadline) :
    (session.withWriter laterWriter).OnTime settings pace now later := by
  obtain ⟨admission, stage⟩ := session
  cases stage with
  | serving generation reader other =>
      obtain rfl := Option.some.inj writing
      have before := onTime.inTime generation reader other rfl
      refine ⟨fun _ _ _ stage => ?_, fun _ _ _ stage => ?_, onTime.heard⟩
      · cases stage
        exact inTime before
      · cases stage
        exact hopes _ before (onTime.hopes _ _ _ rfl)
  | leaving generation outcome other => exact .of_apart rfl onTime.heard
  | _ => cases writing

theorem OnTime.proceed (onTime : session.OnTime settings pace now watch)
    (fits : pace.Fits settings) {writer laterWriter : Writer}
    (writing : session.writer? = some writer)
    (proceeds : writer.Proceeds settings now laterWriter) :
    (session.withWriter laterWriter).OnTime settings pace now watch :=
  onTime.withWriter writing (fun inTime => inTime.proceed proceeds)
    fun _ inTime hopes => hopes.proceed fits inTime proceeds

theorem OnTime.written (onTime : session.OnTime settings pace now watch)
    (fits : pace.Fits settings) {writer : Writer} (writing : session.writer? = some writer)
    (box : Outbox) :
    (session.withWriter (writer.written box).1).OnTime settings pace now
      (watch.written writer now) :=
  onTime.withWriter writing (fun inTime => inTime.written box)
    fun _ inTime hopes => hopes.written fits inTime box

/-- Time passes. -/
theorem OnTime.elapse (onTime : session.OnTime settings pace now watch) (fits : pace.Fits settings)
    {moment : Moment} (passes : now ≤ moment) {box : Outbox}
    (stays : session.Stays settings pace now watch box moment) :
    session.OnTime settings pace moment watch := by
  refine ⟨fun generation reader writer stage => ?_, fun generation deadline writer stage => ?_,
    onTime.heard⟩
  · simp only [Stays, stage] at stays
    exact (onTime.inTime _ _ _ stage).elapse passes stays.2
  · simp only [Stays, stage] at stays
    have inTime := (onTime.inTime _ _ _ stage).elapse passes stays.2
    refine (onTime.hopes _ _ _ stage).elapse fits inTime (stays.1 (by simp [Reader.due?])) ?_
    exact Writer.isActive_of_stays stays.2

/-- The writer may be at rest. -/
theorem OnTime.rest (onTime : session.OnTime settings pace now watch) {writer : Writer}
    (writing : session.writer? = some writer) (box : Outbox) :
    session.OnTime settings pace now (watch.rest writer now box) := by
  have unchanged := onTime.withWriter writing (fun inTime => inTime.rest box)
    fun _ _ hopes => hopes.rest box
  rwa [withWriter_self writing] at unchanged

end Session

/-! ## Servers -/

namespace Server

/-- What an onlooker remembers while a session does not serve its peer: nothing but the
time. -/
def remembered (server : Server) (key : OutboxId) (watch : Watch) : Watch :=
  if ((server.sessions.get? key).bind Session.reader?).isSome then watch
  else { rested := server.now }

/-- What an onlooker learns about a session from a step: that its ping is written, or that
its reader takes in an answer. -/
def learned (server : Server) (key : OutboxId) (watch : Watch) : ServerStep → Watch
  | .written other =>
      if other = key then
        ((server.sessions.get? key).bind Session.writer?).elim watch (watch.written · server.now)
      else watch
  | .arrive other (.message (.pong _)) =>
      if other = key ∧ (((server.sessions.get? key).bind Session.reader?).bind Reader.due?).isSome
      then { watch with owed := false }
      else watch
  | _ => watch

/-- What an onlooker remembers of a session after a step. -/
def watched (server : Server) (key : OutboxId) (watch : Watch) (step : ServerStep) : Watch :=
  let learned := server.learned key (server.remembered key watch) step
  let later := server.step step
  ((later.sessions.get? key).bind Session.writer?).elim learned
    (learned.rest · later.now (later.outbox key))

/-- A step that lets time pass only up to where a session stays what it is. -/
def KeepsPace (server : Server) (pace : Pace) (key : OutboxId) (watch : Watch) : ServerStep → Prop
  | .tick moment => server.now < moment → ∀ session ∈ server.sessions.get? key,
      session.Stays server.settings pace server.now watch (server.outbox key) moment
  | _ => True

instance {server : Server} {pace : Pace} {key : OutboxId} {watch : Watch} {step : ServerStep} :
    Decidable (server.KeepsPace pace key watch step) :=
  match step with
  | .tick moment => inferInstanceAs (Decidable (server.now < moment →
      ∀ session ∈ server.sessions.get? key,
        session.Stays server.settings pace server.now watch (server.outbox key) moment))
  | .upgrade _ | .submit _ | .serve | .answer _ | .arrive _ _ | .fallSilent _ | .turn _
  | .written _ | .unwritten _ | .giveUpWrite _ | .joinReader _ | .joinWriter _ =>
      inferInstanceAs (Decidable True)

/-- A run in which a session keeps pace and its peer answers each ping at once. -/
def KeepsPaceAlong (server : Server) (pace : Pace) (key : OutboxId) (watch : Watch) :
    List ServerStep → Prop
  | [] => True
  | step :: rest => server.KeepsPace pace key watch step ∧
      (server.step step).KeepsPaceAlong pace key (server.watched key watch step) rest

instance decidableKeepsPaceAlong (pace : Pace) (key : OutboxId) :
    ∀ (server : Server) (watch : Watch) (steps : List ServerStep),
      Decidable (server.KeepsPaceAlong pace key watch steps)
  | _, _, [] => isTrue trivial
  | server, watch, step :: rest =>
      @instDecidableAnd _ _ inferInstance
        (decidableKeepsPaceAlong pace key (server.step step) (server.watched key watch step) rest)

/-- The session of a transport, if there is one, has kept pace so far. -/
structure OnTime (server : Server) (pace : Pace) (key : OutboxId) (watch : Watch) : Prop where
  fits : pace.Fits server.settings
  onTime : ∀ session, server.sessions.get? key = some session →
    session.OnTime server.settings pace server.now watch

variable {server : Server} {pace : Pace} {key other : OutboxId} {watch later : Watch}
  {session : Session}

/-! ## Steps -/

/-- Only the sessions, the settings and the time matter. -/
theorem OnTime.congr {after : Server} (onTime : server.OnTime pace key watch)
    (sessions : after.sessions = server.sessions)
    (terms : after.broker.hub.terms = server.broker.hub.terms) : after.OnTime pace key watch := by
  obtain ⟨sameSettings, sameNow⟩ := Prod.mk.inj terms
  have settings : after.settings = server.settings := sameSettings
  have now : after.now = server.now := sameNow
  refine ⟨settings ▸ onTime.fits, fun session present => ?_⟩
  rw [sessions] at present
  rw [settings, now]
  exact onTime.onTime session present

theorem OnTime.submit (onTime : server.OnTime pace key watch) (request : Request) :
    (server.submit request).2.OnTime pace key watch :=
  onTime.congr rfl (server.broker.terms_post request)

theorem OnTime.setOutbox (onTime : server.OnTime pace key watch) (other : OutboxId)
    (box : Outbox) : (server.setOutbox other box).OnTime pace key watch :=
  onTime.congr rfl rfl

/-- A session is put in place; only the one that is watched matters. -/
theorem OnTime.setSession (onTime : server.OnTime pace key watch)
    (fit : other = key → session.OnTime server.settings pace server.now later)
    (same : other ≠ key → later = watch) :
    (server.setSession other session).OnTime pace key later := by
  refine ⟨onTime.fits, fun entry there => ?_⟩
  by_cases here : other = key
  · simp only [Server.setSession, here, Table.get?_set_self, Option.some.injEq] at there
    exact there ▸ fit here
  · simp only [Server.setSession, Table.get?_set_of_ne _ (Ne.symm here)] at there
    rw [same here]
    exact onTime.onTime entry there

/-- A session that does not serve its peer any more. -/
theorem OnTime.setApart (onTime : server.OnTime pace key watch) (apart : session.reader? = none)
    (heard : session.readEnd? ≠ some .idleTimeout) :
    (server.setSession other session).OnTime pace key watch :=
  onTime.setSession (fun _ => .of_apart apart heard) fun _ => rfl

/-- The reader of a session takes something in. -/
theorem OnTime.setReader (onTime : server.OnTime pace key watch)
    (present : server.sessions.get? other = some session) {reader : Reader}
    (heard : reader.Roused server.settings server.now) (rested : later.rested = watch.rested)
    (same : other ≠ key → later = watch) :
    (server.setSession other (session.withReader reader)).OnTime pace key later := by
  refine onTime.setSession (fun here => ?_) same
  subst here
  exact (onTime.onTime session present).withReader onTime.fits rested heard

theorem OnTime.concludeCommand (onTime : server.OnTime pace key watch)
    (present : server.sessions.get? other = some session) (command : Command) (outcome : Outcome)
    (rested : later.rested = watch.rested) (same : other ≠ key → later = watch) :
    (server.concludeCommand other session command outcome).OnTime pace key later :=
  (onTime.setOutbox other _).setReader present (Reader.roused_conclude _ _ _) rested same

theorem OnTime.answer (onTime : server.OnTime pace key watch) (past : watch.rested ≤ server.now)
    (other : OutboxId) : (server.answer other).OnTime pace key watch := by
  unfold Server.answer
  cases present : server.sessions.get? other with
  | none => exact onTime
  | some session =>
      dsimp only
      split
      · split
        · exact onTime.setSession (fun _ => .enrolled onTime.fits past _ _) fun _ => rfl
        · exact onTime
      · split
        · exact onTime.concludeCommand present _ _ rfl fun _ => rfl
        · exact onTime
      · exact onTime

/-- Nothing that arrives tells about a rest. -/
theorem rested_learned_arrive (server : Server) (key other : OutboxId) (watch : Watch)
    (arrival : Arrival) :
    (server.learned key watch (.arrive other arrival)).rested = watch.rested := by
  unfold learned
  split
  · rename_i impossible
    cases impossible
  · split <;> rfl
  · rfl

/-- Only a reader that listens takes in an answer. -/
theorem learned_arrive_of_quiet {arrival : Arrival}
    (quiet : other = key →
      ((server.sessions.get? key).bind Session.reader?).bind Reader.due? = none) :
    server.learned key watch (.arrive other arrival) = watch := by
  unfold learned
  split
  · rename_i impossible
    cases impossible
  · rename_i same
    cases same
    refine if_neg fun heard => ?_
    rw [quiet heard.1] at heard
    cases heard.2
  · rfl

theorem OnTime.arrive (onTime : server.OnTime pace key watch) (other : OutboxId)
    (arrival : Arrival) :
    (server.arrive other arrival).OnTime pace key
      (server.learned key watch (.arrive other arrival)) := by
  have rested := server.rested_learned_arrive key other watch arrival
  have apart (elsewhere : other ≠ key) :
      server.learned key watch (.arrive other arrival) = watch :=
    learned_arrive_of_quiet fun here => absurd here elsewhere
  rcases server.arrive_cases other arrival with ⟨result, quiet⟩ | ⟨session, _, present, _,
    ⟨reader, heard, result⟩ | ⟨command, request, _, becomes⟩⟩
  · rw [result, learned_arrive_of_quiet fun here => here ▸ quiet]
    exact onTime
  · rw [result]
    exact onTime.setReader present (Reader.roused_of_hear heard) rested apart
  · have posted := onTime.submit request
    rcases becomes with ⟨_, result⟩ | ⟨_, _, result⟩ | ⟨_, _, result⟩ <;> rw [result]
    · exact posted.concludeCommand present _ _ rested apart
    · exact posted.setReader present (.asking _ _) rested apart
    · exact posted.concludeCommand present _ _ rested apart

theorem OnTime.fallSilent (onTime : server.OnTime pace key watch) (other : OutboxId) :
    (server.fallSilent other).OnTime pace key watch := by
  unfold Server.fallSilent
  cases present : server.sessions.get? other with
  | none => exact onTime
  | some session =>
      dsimp only
      split
      · rename_i deadline reading
        split
        · rename_i late
          refine onTime.setSession (fun here => ?_) fun _ => rfl
          -- the deadline of a reader that is on time is still to come
          subst here
          obtain ⟨generation, writer, stage⟩ := Session.exists_of_reader? reading
          have alive := ((onTime.onTime session present).hopes _ _ _ stage).alive
          have before := Moment.le_roundUp deadline
          lia
        · exact onTime
      · exact onTime

/-- The writer of a session and its outbox change. -/
theorem OnTime.changeWriter (onTime : server.OnTime pace key watch) (other : OutboxId)
    {change : Writer → Outbox → Writer × Outbox}
    (fit : ∀ session writer, other = key → server.sessions.get? key = some session →
      session.writer? = some writer →
      (session.withWriter (change writer (server.outbox key)).1).OnTime server.settings pace
        server.now later)
    (same : (other = key → (server.sessions.get? key).bind Session.writer? = none) →
      later = watch) :
    (server.changeWriter other change).OnTime pace key later := by
  unfold Server.changeWriter
  cases present : server.sessions.get? other with
  | none =>
      rw [same fun here => by simp [← here, present]]
      exact onTime
  | some session =>
      cases writing : session.writer? with
      | none =>
          rw [same fun here => by simp [← here, present, writing]]
          simpa [writing] using onTime
      | some writer =>
          simp only [writing]
          refine (onTime.setOutbox other _).setSession (fun here => ?_) fun elsewhere =>
            same fun here => absurd here elsewhere
          subst here
          exact fit session writer rfl present writing

/-- The writer of a session proceeds. -/
theorem OnTime.proceed (onTime : server.OnTime pace key watch) (other : OutboxId)
    {change : Writer → Outbox → Writer × Outbox}
    (proceeds : ∀ (writer : Writer) (box : Outbox),
      writer.Proceeds server.settings server.now (change writer box).1) :
    (server.changeWriter other change).OnTime pace key watch :=
  onTime.changeWriter other (fun session _ _ present writing =>
    (onTime.onTime session present).proceed onTime.fits writing (proceeds _ _)) fun _ => rfl

theorem OnTime.endRefusal (onTime : server.OnTime pace key watch) (other : OutboxId) :
    (server.endRefusal other).OnTime pace key watch := by
  unfold Server.endRefusal
  split
  · split
    · exact onTime.setApart rfl (by simp [Session.readEnd?])
    · exact onTime
  · exact onTime

theorem OnTime.written (onTime : server.OnTime pace key watch) (other : OutboxId) :
    (server.written other).OnTime pace key (server.learned key watch (.written other)) := by
  refine (onTime.changeWriter other (fun session writer here present writing => ?_)
    fun apart => ?_).endRefusal other
  · simp only [learned, here, if_true, present, Option.bind_some, writing, Option.elim_some]
    exact (onTime.onTime session present).written onTime.fits writing _
  · simp only [learned]
    split
    · rename_i here
      rw [apart here]
      rfl
    · rfl

theorem OnTime.joinReader (onTime : server.OnTime pace key watch) (other : OutboxId) :
    (server.joinReader other).OnTime pace key watch := by
  unfold Server.joinReader
  cases present : server.sessions.get? other with
  | none => exact onTime
  | some session =>
      dsimp only
      split
      · rename_i generation outcome writer stage
        refine onTime.setSession (fun here => ?_) fun _ => rfl
        subst here
        have heard := (onTime.onTime session present).heard
        exact .of_apart rfl (by simpa [Session.readEnd?, stage, Reader.outcome?] using heard)
      · exact onTime

theorem OnTime.depart (onTime : server.OnTime pace key watch) (other : OutboxId)
    (session : Session) (generation : Generation) (departure : Option Departure) :
    (server.depart other session generation departure).OnTime pace key watch := by
  have ended : (server.setSession other { session with stage := .over }).OnTime pace key watch :=
    onTime.setApart rfl (by simp [Session.readEnd?])
  unfold Server.depart
  cases departure with
  | none => exact ended
  | some departure => exact ended.submit _

theorem OnTime.joinWriter (onTime : server.OnTime pace key watch) (other : OutboxId) :
    (server.joinWriter other).OnTime pace key watch := by
  unfold Server.joinWriter
  cases server.sessions.get? other with
  | none => exact onTime
  | some session =>
      dsimp only
      split
      · exact onTime.depart _ _ _ _
      · exact onTime.depart _ _ _ _
      · exact onTime

theorem OnTime.upgrade (onTime : server.OnTime pace key watch) (past : watch.rested ≤ server.now)
    (admission : Admission) : (server.upgrade admission).2.OnTime pace key watch := by
  cases running : server.broker.running with
  | true =>
      have entered : (server.setSession server.nextOutbox
          ⟨admission, .enrolling server.broker.nextTicket⟩).OnTime pace key watch :=
        onTime.setApart rfl (by simp [Session.readEnd?])
      rw [upgrade_of_running running]
      exact entered.congr rfl rfl
  | false =>
      have entered : (server.setSession server.nextOutbox
          ⟨admission, Session.enrolled server.settings server.now (.error .stopped)⟩).OnTime pace
          key watch :=
        onTime.setSession (fun _ => .enrolled onTime.fits past _ _) fun _ => rfl
      rw [upgrade_of_stopped running]
      exact entered.congr rfl rfl

/-- Time passes no further than a session stays where it is. -/
theorem OnTime.tick (onTime : server.OnTime pace key watch) {moment : Moment}
    (keeps : server.KeepsPace pace key watch (.tick moment)) :
    (server.tick moment).OnTime pace key watch := by
  have terms := server.broker.terms_tick moment
  by_cases passes : server.now < moment
  · obtain ⟨sameSettings, sameNow⟩ := Prod.mk.inj terms
    have settings : (server.tick moment).settings = server.settings := sameSettings
    have now : (server.tick moment).now = moment :=
      sameNow.trans (Nat.max_eq_right (Nat.le_of_lt passes))
    refine ⟨settings ▸ onTime.fits, fun session present => ?_⟩
    rw [settings, now]
    exact (onTime.onTime session present).elapse onTime.fits (Nat.le_of_lt passes)
      (keeps passes session present)
  · refine onTime.congr rfl (terms.trans ?_)
    have still : max server.broker.hub.now moment = server.broker.hub.now :=
      Nat.max_eq_left (Nat.le_of_not_lt passes)
    rw [still]
    rfl

/-- Every step keeps a session on time that keeps pace. -/
theorem OnTime.step (onTime : server.OnTime pace key watch) (past : watch.rested ≤ server.now)
    {step : ServerStep} (keeps : server.KeepsPace pace key watch step) :
    (server.step step).OnTime pace key (server.learned key watch step) := by
  cases step with
  | upgrade admission => exact onTime.upgrade past admission
  | submit request => exact onTime.submit request
  | serve => exact onTime.congr rfl server.broker.terms_serveNext
  | answer other => exact onTime.answer past other
  | arrive other arrival => exact onTime.arrive other arrival
  | fallSilent other => exact onTime.fallSilent other
  | turn other => exact onTime.proceed other fun writer box => writer.proceeds_turn _ _ box
  | written other => exact onTime.written other
  | unwritten other =>
      exact (onTime.proceed other fun writer box => writer.proceeds_failed box).endRefusal other
  | giveUpWrite other =>
      obtain ⟨change, result, either⟩ := server.giveUpWrite_eq other
      rw [Server.step, result]
      refine onTime.proceed other fun writer box => ?_
      rcases either writer box with failed | kept
      · rw [failed]
        exact writer.proceeds_failed box
      · rw [kept]
        exact .idle
  | joinReader other => exact onTime.joinReader other
  | joinWriter other => exact onTime.joinWriter other
  | tick moment => exact onTime.tick keeps

/-! ## Runs -/

/-- A session that does not serve its peer is on time whatever an onlooker remembers. -/
theorem OnTime.remember (onTime : server.OnTime pace key watch) :
    server.OnTime pace key (server.remembered key watch) ∧
      (server.remembered key watch).rested ≤ server.now := by
  unfold remembered
  cases present : server.sessions.get? key with
  | none => exact ⟨⟨onTime.fits, by simp [present]⟩, Nat.le_refl _⟩
  | some session =>
      have before := onTime.onTime session present
      cases reading : session.reader? with
      | none =>
          refine ⟨⟨onTime.fits, fun entry there => ?_⟩, by simp [reading]⟩
          obtain rfl := Option.some.inj (present.symm.trans there)
          exact .of_apart reading before.heard
      | some reader =>
          obtain ⟨generation, writer, stage⟩ := Session.exists_of_reader? reading
          exact ⟨by simpa [reading] using onTime,
            by simpa [reading] using (before.inTime _ _ _ stage).past⟩

theorem KeepsPace.remember {step : ServerStep} (keeps : server.KeepsPace pace key watch step) :
    server.KeepsPace pace key (server.remembered key watch) step := by
  cases step with
  | tick moment =>
      intro passes session present
      have stays := keeps passes session present
      rw [Option.mem_def] at present
      unfold remembered
      cases reading : session.reader? with
      | some reader => simpa [present, reading] using stays
      | none =>
          unfold Session.Stays
          split
          · rename_i stage
            simp [Session.reader?, stage] at reading
          · trivial
  | _ => trivial

theorem OnTime.watched (onTime : server.OnTime pace key watch) {step : ServerStep}
    (keeps : server.KeepsPace pace key watch step) :
    (server.step step).OnTime pace key (server.watched key watch step) := by
  obtain ⟨remembers, past⟩ := onTime.remember
  have stepped := remembers.step past keeps.remember
  unfold Server.watched
  dsimp only
  cases writing : ((server.step step).sessions.get? key).bind Session.writer? with
  | none => exact stepped
  | some writer =>
      refine ⟨stepped.fits, fun session present => ?_⟩
      rw [present, Option.bind_some] at writing
      exact (stepped.onTime session present).rest writing _

theorem OnTime.run (onTime : server.OnTime pace key watch) {steps : List ServerStep}
    (keeps : server.KeepsPaceAlong pace key watch steps) :
    ∃ later, (server.run steps).OnTime pace key later := by
  induction steps generalizing server watch with
  | nil => exact ⟨watch, onTime⟩
  | cons first rest induction => exact induction (onTime.watched keeps.1) keeps.2

theorem KeepsPaceAlong.of_append {before after : List ServerStep}
    (keeps : server.KeepsPaceAlong pace key watch (before ++ after)) :
    server.KeepsPaceAlong pace key watch before := by
  induction before generalizing server watch with
  | nil => trivial
  | cons first rest induction => exact ⟨keeps.1, induction keeps.2⟩

/-- When the interval of the pings, the longest stretch of other writes, the longest write
of a ping and a millisecond fit into the longest silence, a session that keeps pace, and
whose peer answers each ping at once, never gives its peer up as silent: whatever payloads
come, whatever the peer and the others do, and however long the hub takes. -/
theorem no_session_falls_silent (settings : Settings) (startedAt : Stamp) (pace : Pace)
    (fits : settings.pingInterval.nanoseconds + pace.stretch.nanoseconds +
      pace.ping.nanoseconds + Span.millisecond ≤ settings.idleTimeout.nanoseconds)
    (key : OutboxId) (steps : List ServerStep)
    (keeps : (Server.new settings startedAt).KeepsPaceAlong pace key { rested := 0 } steps) :
    ∀ before after, steps = before ++ after → ∀ session,
      ((Server.new settings startedAt).run before).sessions.get? key = some session →
        session.readEnd? ≠ some .idleTimeout := by
  rintro before after rfl session present
  have start : (Server.new settings startedAt).OnTime pace key { rested := 0 } :=
    ⟨fits, fun _ present => by cases present⟩
  obtain ⟨watch, onTime⟩ := start.run keeps.of_append
  exact (onTime.onTime session present).heard

/-- Alice's first ping waits for another write and then takes a second itself, and her answer
still comes in time; so does the next. -/
theorem no_session_falls_silent_after_a_late_ping :
    let alice : ConnectionId := ⟨"alice", by decide⟩
    let pace : Pace := { ping := .ofSeconds 1, stretch := .ofSeconds 4 }
    let seconds (n : Nat) : ServerStep := .tick (Span.ofSeconds n).nanoseconds
    let steps : List ServerStep := [.upgrade ⟨alice, .default⟩, .serve, .answer 0, seconds 53,
      .submit (.broadcast "hello"), .serve, .turn 0, .turn 0, seconds 57, .written 0, .turn 0,
      seconds 58, .written 0, .arrive 0 (.message (.pong [])), seconds 111, .turn 0, seconds 112,
      .written 0, .arrive 0 (.message (.pong [])), seconds 165, .fallSilent 0]
    let start := Server.new {} 0
    pace.Fits {} ∧ start.KeepsPaceAlong pace 0 { rested := 0 } steps ∧
      ∃ session, (start.run steps).sessions.get? 0 = some session ∧
        session.readEnd? ≠ some .idleTimeout := by
  intro alice pace seconds steps start
  have fits : pace.Fits {} := by decide +kernel
  have keeps : start.KeepsPaceAlong pace 0 { rested := 0 } steps := by decide +kernel
  have served : ((start.run steps).sessions.get? 0).isSome := by decide +kernel
  obtain ⟨session, present⟩ := Option.isSome_iff_exists.1 served
  exact ⟨fits, keeps, session, present,
    no_session_falls_silent {} 0 pace fits 0 steps keeps steps [] (by simp) session present⟩

/-- The default settings are fit, but they leave no room for a write that takes longer than
the rest of the silence.  A write of seven seconds, three less than its limit, begins a
second before the ping is due; Alice has answered all that she has heard, and the reader
gives her up. -/
theorem session_falls_silent_behind_a_slow_write :
    let alice : ConnectionId := ⟨"alice", by decide⟩
    let pace : Pace := { ping := .ofSeconds 0, stretch := .ofSeconds 7 }
    let seconds (n : Nat) : ServerStep := .tick (Span.ofSeconds n).nanoseconds
    let steps : List ServerStep := [.upgrade ⟨alice, .default⟩, .serve, .answer 0, seconds 53,
      .submit (.broadcast "hello"), .serve, .turn 0, .turn 0, seconds 60, .fallSilent 0]
    let start := Server.new {} 0
    ({} : Settings).fault = none ∧ start.KeepsPaceAlong pace 0 { rested := 0 } steps ∧
      ((start.run steps).sessions.get? 0).bind Session.readEnd? = some .idleTimeout ∧
      ¬∀ (settings : Settings) (startedAt : Stamp) (pace : Pace) (key : OutboxId)
          (steps : List ServerStep), settings.fault = none →
        pace.ping.nanoseconds < settings.writeTimeout.nanoseconds →
        pace.stretch.nanoseconds < settings.writeTimeout.nanoseconds →
        (Server.new settings startedAt).KeepsPaceAlong pace key { rested := 0 } steps →
          (((Server.new settings startedAt).run steps).sessions.get? key).bind Session.readEnd? ≠
            some .idleTimeout := by
  intro alice pace seconds steps start
  have fit : ({} : Settings).fault = none := by decide +kernel
  have keeps : start.KeepsPaceAlong pace 0 { rested := 0 } steps := by decide +kernel
  have silent : ((start.run steps).sessions.get? 0).bind Session.readEnd? = some .idleTimeout := by
    decide +kernel
  refine ⟨fit, keeps, silent, fun claimed => ?_⟩
  exact claimed {} 0 pace 0 steps fit (by decide +kernel) (by decide +kernel) keeps silent

end Server
end Parley
