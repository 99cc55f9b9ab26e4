import Parley.Proofs.Hub.Linked
import Parley.Proofs.Server.Advances

/-!
# Threaded servers

Every session has an outbox of its own.  While its registration waits in the mailbox
the outbox is fresh and nobody else has it, so registrations bring what the hub
relies on.  Every step keeps this, as long as nobody but a session registers.
-/

namespace Parley

/-- Every session has an outbox of its own, which is fresh and nobody else's while its
registration waits, and all waiting registrations are those of sessions. -/
structure Server.Threaded (server : Server) : Prop where
  numbered : server.broker.Numbered
  linked : server.broker.hub.Linked
  boxed : ∀ key session, server.sessions.get? key = some session →
    ∃ box, server.broker.hub.outboxes.get? key = some box
  below : ∀ key box, server.broker.hub.outboxes.get? key = some box → key < server.nextOutbox
  enrolling : ∀ key session ticket, server.sessions.get? key = some session →
    session.stage = .enrolling ticket →
    (⟨ticket, session.admission.registration key⟩ ∈ server.broker.mailbox ∧
        server.broker.hub.Unused key) ∨
      server.broker.replies.get? ticket ≠ none
  registered : ∀ letter ∈ server.broker.mailbox, ∀ key, letter.request.outbox? = some key →
    ∃ session, server.sessions.get? key = some session ∧
      session.stage = .enrolling letter.ticket ∧
      letter.request = session.admission.registration key
  alive : server.broker.running = true → ∀ key session, server.sessions.get? key = some session →
    ¬session.FoundHubGone

namespace Server

variable {server : Server}

theorem Threaded.new (settings : Settings) (startedAt : Stamp) :
    (Server.new settings startedAt).Threaded where
  numbered := by
    refine ⟨List.Pairwise.nil, ?_, fun ticket given => absurd rfl given, ?_, rfl, ?_, ?_⟩ <;>
      simp [Server.new, Broker.new]
  linked := .new settings startedAt
  boxed key session present := by cases present
  below key box found := by cases found
  enrolling key session ticket present := by cases present
  registered letter member := by cases member
  alive _ key session present := by cases present

theorem submit_of_running (running : server.broker.running = true) (request : Request) :
    (server.submit request).2 =
      { server with
        broker := { server.broker with
          mailbox := server.broker.mailbox ++ [⟨server.broker.nextTicket, request⟩]
          nextTicket := server.broker.nextTicket + 1 } } := by
  simp [submit, Broker.submit, Broker.post_of_running running]

theorem submit_of_stopped (stopped : server.broker.running = false) {request : Request}
    (plain : request.outbox? = none) :
    (server.submit request).2 =
      { server with
        broker := { server.broker with
          replies := server.broker.replied ⟨server.broker.nextTicket, request⟩ (.error .stopped)
          nextTicket := server.broker.nextTicket + 1 } } := by
  simp [submit, Broker.submit, Broker.post_of_stopped stopped, plain]

theorem running_submit (server : Server) {request : Request} (plain : request.outbox? = none) :
    (server.submit request).2.broker.running = server.broker.running := by
  cases running : server.broker.running with
  | true => rw [submit_of_running running, running]
  | false => rw [submit_of_stopped running plain, running]

/-- Whatever waits after a request was sent waited before, or is that request. -/
theorem mem_mailbox_submit {request : Request} (plain : request.outbox? = none) {letter : Letter}
    (member : letter ∈ (server.submit request).2.broker.mailbox) :
    letter ∈ server.broker.mailbox ∨
      server.broker.running = true ∧ letter = ⟨server.broker.nextTicket, request⟩ := by
  cases running : server.broker.running with
  | true =>
      rw [submit_of_running running] at member
      exact (List.mem_append.1 member).imp_right fun last => ⟨rfl, List.mem_singleton.1 last⟩
  | false =>
      rw [submit_of_stopped running plain] at member
      exact .inl member

/-- Anybody may send a request that brings no outbox. -/
theorem Threaded.submit (threaded : server.Threaded) {request : Request}
    (plain : request.outbox? = none) :
    (server.submit request).2.Threaded := by
  have numbered := threaded.numbered.post request
  cases running : server.broker.running with
  | true =>
      rw [submit_of_running running]
      rw [Broker.post_of_running running] at numbered
      refine ⟨numbered, threaded.linked, threaded.boxed, threaded.below, ?_, ?_, threaded.alive⟩
      · intro key session ticket present stage
        exact (threaded.enrolling key session ticket present stage).imp
          (And.imp_left (List.mem_append_left _)) id
      · intro letter member key brings
        rcases List.mem_append.1 member with earlier | last
        · exact threaded.registered letter earlier key brings
        · rw [List.mem_singleton.1 last, plain] at brings
          cases brings
  | false =>
      obtain ⟨noLetters, _⟩ := threaded.numbered.stopped running
      rw [submit_of_stopped running plain]
      simp only [Broker.post_of_stopped running, plain] at numbered
      refine ⟨numbered, threaded.linked, threaded.boxed, threaded.below, ?_, ?_, threaded.alive⟩
      · intro key session ticket present stage
        refine (threaded.enrolling key session ticket present stage).imp_right fun answered => ?_
        rcases server.broker.get?_replied_cases ⟨server.broker.nextTicket, request⟩
          (.error .stopped) ticket with ⟨_, given⟩ | same
        · simp [given]
        · rwa [same]
      · intro letter member
        rw [noLetters] at member
        cases member

/-- Time passes. -/
theorem Threaded.elapse (threaded : server.Threaded) (expiries : List Expiry) (now : Moment) :
    ({ server with broker := { server.broker with
        hub := { server.broker.hub with expiries, now } } } : Server).Threaded where
  numbered := threaded.numbered.congr rfl rfl rfl rfl rfl rfl
  linked := threaded.linked.congr rfl rfl
  boxed := threaded.boxed
  below := threaded.below
  enrolling := threaded.enrolling
  registered := threaded.registered
  alive := threaded.alive

/-- A tick lets time pass and sends what expires. -/
theorem tick_keeps {Kept : Server → Prop} (server : Server) (moment : Moment)
    (elapse : ∀ expiries now, Kept { server with broker := { server.broker with
      hub := { server.broker.hub with expiries, now } } })
    (submit : ∀ server id generation, Kept server →
      Kept (Server.submit server (.expire id generation)).2) :
    Kept (server.tick moment) := by
  have ring (expiries : List Expiry) (broker : Broker)
      (start : Kept { server with broker }) :
      Kept { server with broker := expiries.foldl Broker.ring broker } := by
    induction expiries generalizing broker with
    | nil => exact start
    | cons expiry rest induction =>
        refine induction (broker.ring expiry) ?_
        unfold Broker.ring
        split
        · exact submit { server with broker } expiry.id expiry.generation start
        · exact start
  exact ring _ _ (elapse _ _)

theorem Threaded.tick (threaded : server.Threaded) (moment : Moment) :
    (server.tick moment).Threaded :=
  tick_keeps server moment threaded.elapse fun _ _ _ threaded => threaded.submit rfl

/-- A session changes the hub in no other way than through its outbox. -/
theorem hub_progress (key : OutboxId) {session later : Session} {box laterBox : Outbox}
    {request : Option Request} {carried added : List Payload}
    (moves : session.Moves server box later laterBox request carried added) :
    (server.progress key later laterBox request).broker.hub =
      { server.broker.hub with outboxes := server.broker.hub.outboxes.set key laterBox } := by
  cases request with
  | none => rfl
  | some sent =>
      unfold progress
      simp only [Option.elim_some, setSession, setOutbox, hub_submit server (moves.plain rfl)]

theorem running_progress (key : OutboxId) {session later : Session} {box laterBox : Outbox}
    {request : Option Request} {carried added : List Payload}
    (moves : session.Moves server box later laterBox request carried added) :
    (server.progress key later laterBox request).broker.running = server.broker.running := by
  cases request with
  | none => rfl
  | some sent => exact running_submit server (moves.plain rfl)

/-- A session moves on, and its outbox with it. -/
theorem Threaded.put (threaded : server.Threaded) {key : OutboxId} {session later : Session}
    {box laterBox : Outbox} (present : server.sessions.get? key = some session)
    (found : server.broker.hub.outboxes.get? key = some box)
    (released : laterBox.released = box.released)
    (enrolls : ∀ ticket, session.stage = .enrolling ticket →
      server.broker.replies.get? ticket ≠ none)
    (enrolled : ∀ ticket, later.stage ≠ .enrolling ticket)
    (alive : server.broker.running = true → ¬later.FoundHubGone) :
    ((server.setOutbox key laterBox).setSession key later).Threaded where
  numbered := threaded.numbered.congr rfl rfl rfl rfl rfl rfl
  linked := by
    refine threaded.linked.setOutbox (fun before same => ?_) rfl rfl
    obtain rfl := Option.some.inj (found.symm.trans same)
    exact released
  boxed other entry there := by
    simp only [setSession, setOutbox, Table.get?_set] at there ⊢
    split
    · exact ⟨laterBox, rfl⟩
    · rename_i different
      rw [if_neg different] at there
      exact threaded.boxed other entry there
  below other entry there := by
    simp only [setSession, setOutbox, Table.get?_set] at there
    split at there
    · rename_i same
      exact same ▸ threaded.below key box found
    · exact threaded.below other entry there
  enrolling other entry ticket there stage := by
    simp only [setSession, setOutbox, Table.get?_set] at there
    split at there
    · obtain rfl := Option.some.inj there
      exact absurd stage (enrolled ticket)
    · rename_i different
      refine (threaded.enrolling other entry ticket there stage).imp_left
        (And.imp_right (And.imp_left fun fresh => ?_))
      simp only [setSession, setOutbox]
      exact (Table.get?_set_of_ne _ different _).trans fresh
  registered letter member other brings := by
    obtain ⟨entry, there, stage, request⟩ := threaded.registered letter member other brings
    have different : other ≠ key := by
      rintro rfl
      obtain rfl := Option.some.inj (present.symm.trans there)
      exact enrolls letter.ticket stage (threaded.numbered.unanswered letter member)
    refine ⟨entry, ?_, stage, request⟩
    simp only [setSession, setOutbox]
    exact (Table.get?_set_of_ne _ different _).trans there
  alive running other entry there := by
    simp only [setSession, setOutbox, Table.get?_set] at there
    split at there
    · obtain rfl := Option.some.inj there
      exact alive running
    · exact threaded.alive running other entry there

/-- Whatever a session does, a server stays threaded. -/
theorem Threaded.progress (threaded : server.Threaded) {key : OutboxId} {session later : Session}
    {box laterBox : Outbox} {request : Option Request} {carried added : List Payload}
    (present : server.sessions.get? key = some session)
    (found : server.broker.hub.outboxes.get? key = some box)
    (moves : session.Moves server box later laterBox request carried added) :
    (server.progress key later laterBox request).Threaded := by
  have answered (ticket : Ticket) (stage : session.stage = .enrolling ticket) :
      server.broker.replies.get? ticket ≠ none := by
    obtain ⟨outcome, given, _⟩ := moves.answered stage
    simp [given]
  have alive (running : server.broker.running = true) : ¬later.FoundHubGone :=
    moves.alive running (threaded.numbered.unstopped running)
      (threaded.alive running key session present)
  cases request with
  | none => exact threaded.put present found moves.released_eq answered moves.not_enrolling alive
  | some sent =>
      have plain := moves.plain rfl
      have foundLater :
          (server.submit sent).2.broker.hub.outboxes.get? key = some box := by
        rw [hub_submit server plain]
        exact found
      have enrollsNot (ticket : Ticket) : session.stage ≠ .enrolling ticket := by
        intro stage
        obtain ⟨_, _, _, _, nothing, _⟩ := moves.answered stage
        cases nothing
      refine (threaded.submit plain).put present foundLater moves.released_eq
        (fun ticket stage => absurd stage (enrollsNot ticket)) moves.not_enrolling ?_
      rw [running_submit server plain]
      exact alive

/-! ## New sessions -/

theorem Threaded.no_outbox (threaded : server.Threaded) :
    server.broker.hub.outboxes.get? server.nextOutbox = none := by
  cases found : server.broker.hub.outboxes.get? server.nextOutbox with
  | none => rfl
  | some box => exact absurd (threaded.below _ box found) (Nat.lt_irrefl _)

/-- Every outbox of a transport has been made. -/
theorem Threaded.lt_of_attached (threaded : server.Threaded) {key : OutboxId}
    (attached : key ∈ server.broker.hub.attached) : key < server.nextOutbox := by
  obtain ⟨id, connection, present, link⟩ := Hub.mem_attached_iff.1 attached
  obtain ⟨box, found, _⟩ := threaded.linked.attached id connection key present link
  exact threaded.below key box found

/-- What an upgrade adds: a session, its outbox and its registration. -/
theorem upgrade_of_running (running : server.broker.running = true) (admission : Admission) :
    (server.upgrade admission).2 =
      { broker := { server.broker with
          hub := { server.broker.hub with
            outboxes := server.broker.hub.outboxes.set server.nextOutbox
              { capacity := server.broker.hub.settings.queueCapacity } }
          mailbox := server.broker.mailbox ++
            [⟨server.broker.nextTicket, admission.registration server.nextOutbox⟩]
          nextTicket := server.broker.nextTicket + 1 }
        sessions := server.sessions.set server.nextOutbox
          ⟨admission, .enrolling server.broker.nextTicket⟩
        nextOutbox := server.nextOutbox + 1 } := by
  simp [upgrade, openOutbox, submit, Broker.submit, setOutbox, setSession, Broker.post, running,
    Admission.registration, Request.awaited, Server.settings]

/-- A server that has stopped turns a new session away. -/
theorem upgrade_of_stopped (stopped : server.broker.running = false) (admission : Admission) :
    (server.upgrade admission).2 =
      { broker := { server.broker with
          hub := { server.broker.hub with
            outboxes := Outboxes.release (server.broker.hub.outboxes.set server.nextOutbox
              { capacity := server.broker.hub.settings.queueCapacity }) server.nextOutbox }
          replies := server.broker.replied
            ⟨server.broker.nextTicket, admission.registration server.nextOutbox⟩ (.error .stopped)
          nextTicket := server.broker.nextTicket + 1 }
        sessions := server.sessions.set server.nextOutbox
          ⟨admission, Session.enrolled server.settings server.now (.error .stopped)⟩
        nextOutbox := server.nextOutbox + 1 } := by
  simp [upgrade, openOutbox, submit, Broker.submit, setOutbox, setSession, Broker.post, stopped,
    Broker.turnAway_eq, Admission.registration, Request.outbox?, Request.awaited, Hub.release,
    Server.settings, Server.now, Broker.replied]

/-- An upgrade leaves the other sessions where they are. -/
theorem get?_sessions_upgrade_of_ne (server : Server) (admission : Admission) {key : OutboxId}
    (different : key ≠ server.nextOutbox) :
    (server.upgrade admission).2.sessions.get? key = server.sessions.get? key := by
  cases running : server.broker.running with
  | true =>
      rw [upgrade_of_running running]
      exact Table.get?_set_of_ne _ different _
  | false =>
      rw [upgrade_of_stopped running]
      exact Table.get?_set_of_ne _ different _

/-- An upgrade leaves the outboxes of the other sessions as they are. -/
theorem get?_outboxes_upgrade_of_ne (server : Server) (admission : Admission) {key : OutboxId}
    (different : key ≠ server.nextOutbox) :
    (server.upgrade admission).2.broker.hub.outboxes.get? key =
      server.broker.hub.outboxes.get? key := by
  cases running : server.broker.running with
  | true =>
      rw [upgrade_of_running running]
      exact Table.get?_set_of_ne _ different _
  | false =>
      rw [upgrade_of_stopped running]
      exact (Outboxes.get?_release_of_ne _ different).trans (Table.get?_set_of_ne _ different _)

theorem connections_upgrade (server : Server) (admission : Admission) :
    (server.upgrade admission).2.broker.hub.connections = server.broker.hub.connections := by
  cases running : server.broker.running with
  | true => rw [upgrade_of_running running]
  | false => rw [upgrade_of_stopped running]

/-- The only letter that an upgrade sends is the registration. -/
theorem mem_mailbox_upgrade {admission : Admission} {letter : Letter}
    (member : letter ∈ (server.upgrade admission).2.broker.mailbox) :
    letter ∈ server.broker.mailbox ∨
      letter.request = admission.registration server.nextOutbox := by
  cases running : server.broker.running with
  | true =>
      rw [upgrade_of_running running] at member
      exact (List.mem_append.1 member).imp_right fun last => by rw [List.mem_singleton.1 last]
  | false =>
      rw [upgrade_of_stopped running] at member
      exact .inl member

/-- The outbox of a new session is nobody's. -/
theorem Threaded.ne_nextOutbox (threaded : server.Threaded) {key : OutboxId} {box : Outbox}
    (found : server.broker.hub.outboxes.get? key = some box) : key ≠ server.nextOutbox :=
  Nat.ne_of_lt (threaded.below key box found)

theorem Threaded.no_session (threaded : server.Threaded) :
    server.sessions.get? server.nextOutbox = none := by
  cases present : server.sessions.get? server.nextOutbox with
  | none => rfl
  | some session =>
      obtain ⟨box, found⟩ := threaded.boxed _ session present
      exact absurd rfl (threaded.ne_nextOutbox found)

theorem Threaded.opened (threaded : server.Threaded) : ({ server.broker.hub with
    outboxes := server.broker.hub.outboxes.set server.nextOutbox
      { capacity := server.broker.hub.settings.queueCapacity } } : Hub).Linked :=
  threaded.linked.setOutbox
    (fun before found => absurd (threaded.no_outbox.symm.trans found) (by simp)) rfl rfl

/-- A new session and its outbox may come in, whatever becomes of its registration. -/
theorem Threaded.enter (threaded : server.Threaded) {later : Server} {session : Session}
    {box : Outbox} (numbered : later.broker.Numbered) (linked : later.broker.hub.Linked)
    (sessions : later.sessions = server.sessions.set server.nextOutbox session)
    (outbox : later.broker.hub.outboxes.get? server.nextOutbox = some box)
    (others : ∀ key, key ≠ server.nextOutbox →
      later.broker.hub.outboxes.get? key = server.broker.hub.outboxes.get? key)
    (next : later.nextOutbox = server.nextOutbox + 1)
    (enrolling : ∀ key session ticket, later.sessions.get? key = some session →
      session.stage = .enrolling ticket →
      (⟨ticket, session.admission.registration key⟩ ∈ later.broker.mailbox ∧
          later.broker.hub.Unused key) ∨
        later.broker.replies.get? ticket ≠ none)
    (registered : ∀ letter ∈ later.broker.mailbox, ∀ key, letter.request.outbox? = some key →
      ∃ session, later.sessions.get? key = some session ∧
        session.stage = .enrolling letter.ticket ∧
        letter.request = session.admission.registration key)
    (alive : later.broker.running = true → server.broker.running = true ∧ ¬session.FoundHubGone) :
    later.Threaded where
  numbered := numbered
  linked := linked
  boxed key entry present := by
    rw [sessions, Table.get?_set] at present
    split at present
    · rename_i same
      exact ⟨box, same ▸ outbox⟩
    · rename_i different
      rw [others key different]
      exact threaded.boxed key entry present
  below key other found := by
    rw [next]
    by_cases same : key = server.nextOutbox
    · exact same ▸ Nat.lt_succ_self _
    · rw [others key same] at found
      exact Nat.lt_succ_of_lt (threaded.below key other found)
  enrolling := enrolling
  registered := registered
  alive running key entry present := by
    obtain ⟨before, fresh⟩ := alive running
    rw [sessions, Table.get?_set] at present
    split at present
    · obtain rfl := Option.some.inj present
      exact fresh
    · exact threaded.alive before key entry present

theorem Threaded.upgrade_running (threaded : server.Threaded)
    (running : server.broker.running = true) (admission : Admission) :
    (server.upgrade admission).2.Threaded := by
  have numbered := threaded.numbered.post (admission.registration server.nextOutbox)
  rw [upgrade_of_running running]
  rw [Broker.post_of_running running] at numbered
  refine threaded.enter (numbered.congr rfl rfl rfl rfl rfl rfl) threaded.opened rfl
    (Table.get?_set_self _ _ _) (fun key different => Table.get?_set_of_ne _ different _) rfl
    ?_ ?_ ?_
  · intro key session ticket present stage
    rw [Table.get?_set] at present
    split at present
    · rename_i same
      subst same
      cases present
      cases stage
      refine .inl ⟨List.mem_append_right _ (List.mem_singleton_self _),
        Table.get?_set_self _ _ _, fun attached => ?_⟩
      exact Nat.lt_irrefl _ (threaded.lt_of_attached attached)
    · refine (threaded.enrolling key session ticket present stage).imp_left
        (And.imp (List.mem_append_left _) (And.imp_left fun fresh => ?_))
      exact (Table.get?_set_of_ne _ (threaded.ne_nextOutbox fresh) _).trans fresh
  · intro letter member key brings
    rcases List.mem_append.1 member with earlier | last
    · obtain ⟨session, present, stage, request⟩ := threaded.registered letter earlier key brings
      obtain ⟨box, found⟩ := threaded.boxed key session present
      have different := threaded.ne_nextOutbox found
      exact ⟨session, (Table.get?_set_of_ne _ different _).trans present, stage, request⟩
    · obtain rfl := List.mem_singleton.1 last
      cases brings
      exact ⟨_, Table.get?_set_self _ _ _, rfl, rfl⟩
  · refine fun _ => ⟨running, ?_⟩
    rintro ⟨_, _, gone | gone⟩ <;> cases gone

theorem Threaded.upgrade_stopped (threaded : server.Threaded)
    (stopped : server.broker.running = false) (admission : Admission) :
    (server.upgrade admission).2.Threaded := by
  have numbered := threaded.numbered.post (admission.registration server.nextOutbox)
  have outbox := Outboxes.get?_release_self (server.broker.hub.outboxes.set server.nextOutbox
    { capacity := server.broker.hub.settings.queueCapacity }) server.nextOutbox
  rw [Table.get?_set_self, Option.map_some] at outbox
  obtain ⟨noLetters, _⟩ := threaded.numbered.stopped stopped
  rw [upgrade_of_stopped stopped]
  simp only [Broker.post_of_stopped stopped] at numbered
  refine threaded.enter (numbered.congr rfl rfl rfl rfl rfl rfl) ?_ rfl outbox ?_ rfl ?_ ?_ ?_
  · refine threaded.opened.subset (fun _ _ present => present) ?_
    intro id connection key present link
    have made := threaded.lt_of_attached (Hub.mem_attached_iff.2 ⟨id, connection, present, link⟩)
    exact Outboxes.get?_release_of_ne _ (Nat.ne_of_lt made)
  · intro key different
    exact (Outboxes.get?_release_of_ne _ different).trans (Table.get?_set_of_ne _ different _)
  · intro key session ticket present stage
    rw [Table.get?_set] at present
    split at present
    · cases present
      cases stage
    · refine .inr ?_
      rcases threaded.enrolling key session ticket present stage with ⟨member, _⟩ | answered
      · rw [noLetters] at member
        cases member
      · rcases server.broker.get?_replied_cases ⟨server.broker.nextTicket,
          admission.registration server.nextOutbox⟩ (.error .stopped) ticket with
          ⟨_, given⟩ | same
        · simp [given]
        · rwa [same]
  · intro letter member
    rw [noLetters] at member
    cases member
  · intro alive
    rw [stopped] at alive
    cases alive

/-- A new session brings a fresh outbox. -/
theorem Threaded.upgrade (threaded : server.Threaded) (admission : Admission) :
    (server.upgrade admission).2.Threaded := by
  cases running : server.broker.running with
  | true => exact threaded.upgrade_running running admission
  | false => exact threaded.upgrade_stopped running admission

/-! ## Serving -/

/-- The server after its oldest letter was served. -/
def served (server : Server) (letter : Letter) (rest : List Letter) : Server :=
  { server with broker := { server.broker with
      hub := (server.broker.hub.serve letter.request).2
      mailbox := rest
      replies := server.broker.replied letter (server.broker.hub.serve letter.request).1 } }

/-- The server after its broker has stopped. -/
def halted (server : Server) : Server := { server with broker := server.broker.stop }

theorem serveNext_cases (numbered : server.broker.Numbered) :
    (server.broker.mailbox = [] ∧ server.serveNext = server) ∨
      ∃ letter rest, server.broker.running = true ∧
        server.broker.mailbox = letter :: rest ∧
        server.serveNext = if letter.request = .shutdown then (server.served letter rest).halted
          else server.served letter rest := by
  unfold serveNext
  rcases Broker.serveNext_cases numbered with
    ⟨nothing, same⟩ | ⟨letter, rest, running, letters, result⟩
  · exact .inl ⟨nothing, by rw [same]⟩
  · refine .inr ⟨letter, rest, running, letters, ?_⟩
    rw [result]
    split <;> rfl

/-- A registration at the head of the mailbox brings a fresh outbox. -/
theorem Threaded.admits (threaded : server.Threaded) {letter : Letter}
    (member : letter ∈ server.broker.mailbox) :
    server.broker.hub.Admits (.serve letter.request) := by
  unfold Hub.Admits
  split
  · rename_i id name key same
    simp only [HubEvent.serve.injEq] at same
    obtain ⟨session, present, stage, _⟩ :=
      threaded.registered letter member key (by rw [same]; rfl)
    rcases threaded.enrolling key session _ present stage with ⟨_, unused⟩ | answered
    · exact unused
    · exact absurd (threaded.numbered.unanswered letter member) answered
  · trivial

/-- The letter of a session that waits for its registration is its own. -/
theorem Threaded.letter_eq (threaded : server.Threaded) {letter : Letter} {key : OutboxId}
    {session : Session} (member : letter ∈ server.broker.mailbox)
    (present : server.sessions.get? key = some session)
    (stage : session.stage = .enrolling letter.ticket) :
    letter.request = session.admission.registration key ∧ server.broker.hub.Unused key := by
  rcases threaded.enrolling key session _ present stage with ⟨own, unused⟩ | answered
  · refine ⟨?_, unused⟩
    have same : letter = ⟨letter.ticket, session.admission.registration key⟩ :=
      threaded.numbered.eq_of_ticket_eq member own rfl
    rw [same]
  · exact absurd (threaded.numbered.unanswered letter member) answered

theorem Threaded.ticket_lt (threaded : server.Threaded) {key : OutboxId} {session : Session}
    {ticket : Ticket} (present : server.sessions.get? key = some session)
    (stage : session.stage = .enrolling ticket) : ticket < server.broker.nextTicket := by
  rcases threaded.enrolling key session ticket present stage with ⟨waits, _⟩ | answered
  · exact threaded.numbered.below _ waits
  · exact threaded.numbered.answered ticket answered

/-- A ticket that was given out is not answered by turning away a new request. -/
theorem Threaded.get?_replied_of_given (threaded : server.Threaded) {key : OutboxId}
    {session : Session} {ticket : Ticket} (present : server.sessions.get? key = some session)
    (stage : session.stage = .enrolling ticket) (request : Request) (outcome : Outcome) :
    (server.broker.replied ⟨server.broker.nextTicket, request⟩ outcome).get? ticket =
      server.broker.replies.get? ticket :=
  server.broker.get?_replied_of_ne (Nat.ne_of_lt (threaded.ticket_lt present stage)) outcome

theorem Threaded.served (threaded : server.Threaded) {letter : Letter} {rest : List Letter}
    (running : server.broker.running = true) (letters : server.broker.mailbox = letter :: rest) :
    (server.served letter rest).Threaded := by
  have member : letter ∈ server.broker.mailbox := by rw [letters]; exact List.mem_cons_self
  have linked := threaded.linked.serve (threaded.admits member)
  have growth := server.broker.hub.extends_serve letter.request
  have settings := server.broker.hub.settings_serve letter.request
  have ascending := threaded.numbered.ascending
  rw [letters, List.map_cons, List.pairwise_cons] at ascending
  refine ⟨threaded.numbered.served running letters, linked, ?_, ?_, ?_, ?_, threaded.alive⟩
  · intro key session present
    obtain ⟨box, found⟩ := threaded.boxed key session present
    obtain ⟨later, there, _⟩ := growth.exists found
    exact ⟨later, there⟩
  · intro key box found
    cases before : server.broker.hub.outboxes.get? key with
    | none =>
        rw [Server.served, growth.none before] at found
        cases found
    | some earlier => exact threaded.below key earlier before
  · intro key session ticket present stage
    rcases threaded.enrolling key session ticket present stage with ⟨waits, fresh, spare⟩ | answered
    · rw [letters, List.mem_cons] at waits
      rcases waits with rfl | waits
      · have given := @Broker.get?_replied_of_awaited server.broker
          ⟨ticket, session.admission.registration key⟩ rfl
        refine .inr ?_
        simp only [Server.served]
        rw [given]
        simp
      · refine .inl ⟨waits, ?_⟩
        have other : letter.request.outbox? ≠ some key := by
          intro brings
          obtain ⟨owner, there, ownStage, _⟩ := threaded.registered letter member key brings
          obtain rfl := Option.some.inj (present.symm.trans there)
          rw [stage] at ownStage
          cases ownStage
          exact Nat.lt_irrefl _ (ascending.1 _ (List.mem_map.2 ⟨_, waits, rfl⟩))
        have alone := Hub.leavesAlone_serve spare other
        refine ⟨?_, alone.2⟩
        simp only [Server.served, settings]
        exact alone.1.trans fresh
    · refine .inr ?_
      rcases server.broker.get?_replied_cases letter (server.broker.hub.serve letter.request).1
        ticket with ⟨_, given⟩ | same
      · simp [Server.served, given]
      · rwa [Server.served, same]
  · intro other waits key brings
    exact threaded.registered other (by rw [letters]; exact List.mem_cons_of_mem _ waits) key brings

theorem Threaded.halted (threaded : server.Threaded) : server.halted.Threaded := by
  have turned := server.broker.turnsAway_stop
  have growth := server.broker.hub.extends_closeAll.trans turned.outboxes.extends
  have nobody (id : ConnectionId) (connection : Connection)
      (present : server.broker.stop.hub.connections.get? id = some connection) : False := by
    rw [turned.connections, Hub.get?_closeAll] at present
    cases present
  refine ⟨threaded.numbered.stop, ?_, ?_, ?_, ?_, ?_, ?_⟩
  · exact threaded.linked.subset (fun id connection present => (nobody id connection present).elim)
      fun id connection _ present => (nobody id connection present).elim
  · intro key session present
    obtain ⟨box, found⟩ := threaded.boxed key session present
    obtain ⟨later, there, _⟩ := growth.exists found
    exact ⟨later, there⟩
  · intro key box found
    cases before : server.broker.hub.outboxes.get? key with
    | none =>
        rw [Server.halted, growth.none before] at found
        cases found
    | some earlier => exact threaded.below key earlier before
  · intro key session ticket present stage
    refine .inr ?_
    rcases threaded.enrolling key session ticket present stage with ⟨waits, _⟩ | answered
    · simp [Server.halted, turned.answers _ waits rfl]
    · rcases turned.replies ticket with same | ⟨given, _⟩
      · rwa [Server.halted, same]
      · simp [Server.halted, given]
  · intro letter member
    rw [Server.halted, turned.mailbox] at member
    cases member
  · intro running
    rw [Server.halted, turned.running] at running
    cases running

/-- A step does nothing, is a move of a session, lets a peer, somebody else or the clock
reach the broker, or serves a letter, which may stop the broker. -/
theorem step_keeps (Kept : Server → Prop) (threaded : server.Threaded) (step : ServerStep)
    (idle : server.Idles step → Kept server)
    (progress : ∀ key session box later laterBox request carried added,
      step.session? = some key →
      server.Advances step key session box later laterBox request carried added →
      Kept (server.progress key later laterBox request))
    (upgrade : ∀ admission, step = .upgrade admission → Kept (server.upgrade admission).2)
    (submit : ∀ request, step = .submit request → Kept (server.submit request).2)
    (tick : ∀ moment, step = .tick moment → Kept (server.tick moment))
    (served : ∀ letter rest, step = .serve → server.broker.running = true →
      server.broker.mailbox = letter :: rest → Kept (server.served letter rest))
    (halted : ∀ letter rest, step = .serve → server.broker.running = true →
      server.broker.mailbox = letter :: rest → letter.request = .shutdown →
      Kept (server.served letter rest) →
      Kept (server.served letter rest).halted) :
    Kept (server.step step) := by
  cases concerns : step.session? with
  | some key =>
      rcases idles_or_advances concerns (threaded.boxed key) with
        idles | ⟨session, box, later, laterBox, request, carried, added, advances⟩
      · rw [idles.result]
        exact idle idles
      · rw [advances.result]
        exact progress _ _ _ _ _ _ _ _ concerns advances
  | none =>
      cases step with
      | upgrade admission => exact upgrade admission rfl
      | submit request => exact submit request rfl
      | tick moment => exact tick moment rfl
      | serve =>
          simp only [Server.step]
          rcases serveNext_cases threaded.numbered with
            ⟨_, same⟩ | ⟨letter, rest, running, letters, result⟩
          · rw [same]
            exact idle (idles_of_result same (by simp) (by simp))
          · have kept := served letter rest rfl running letters
            rw [result]
            split
            · rename_i shutdown
              exact halted letter rest rfl running letters shutdown kept
            · exact kept
      | _ => cases concerns

/-- Every step keeps a server threaded, when nobody but a session registers. -/
theorem Threaded.step (threaded : server.Threaded) {step : ServerStep}
    (plain : ∀ request, step = .submit request → request.outbox? = none) :
    (server.step step).Threaded := by
  apply step_keeps Threaded threaded step
  case idle => exact fun _ => threaded
  case progress =>
    intro key session box later laterBox request carried added _ advances
    exact threaded.progress advances.present advances.found advances.moves
  case upgrade => exact fun admission _ => threaded.upgrade admission
  case submit => exact fun request same => threaded.submit (plain request same)
  case tick => exact fun moment _ => threaded.tick moment
  case served => exact fun letter rest _ running letters => threaded.served running letters
  case halted => exact fun letter rest _ _ _ _ served => served.halted

theorem Threaded.run (threaded : server.Threaded) {steps : List ServerStep}
    (plain : ∀ request, .submit request ∈ steps → request.outbox? = none) :
    (server.run steps).Threaded :=
  run_keeps (fun _ _ member threaded => threaded.step fun request same =>
    plain request (same ▸ member)) server threaded

end Server
end Parley
