import Parley.Proofs.Hub.Stocked
import Parley.Proofs.Server.Threading

/-!
# Where payloads come from

Every payload that waits in a server, for the hub, for a transport or for a write, was
said by a peer in a frame, sent by somebody else, or is a confirmation of the
connection that it waits for.  So whatever suits all of these suits all that is ever on
its way to a peer.
-/

namespace Parley

/-- What a command says to others. -/
def Command.body? : Command → Option String
  | .roomMessage _ body => some body
  | .privateMessage _ body => some body
  | .broadcast body => some body
  | .joinRoom _ | .leaveRoom _ => none

/-- The command that an arrival is read as. -/
def Arrival.command? (arrival : Arrival) : Option Command :=
  match arrival.heard with
  | .frame text => (Command.parse text).toOption
  | .passed | .over _ => none

/-- The request of a command brings nothing but what the command says. -/
theorem Dispatch.body?_of_brings {sender id : ConnectionId} {command : Command}
    {request : Request} (accepted : requestOf sender command = .ok request) {payload : Payload}
    (brings : payload ∈ request.brings id) : command.body? = some payload := by
  cases command with
  | joinRoom room =>
      obtain ⟨name, -, rfl⟩ := map_eq_ok_iff.1 accepted
      cases brings
  | leaveRoom room =>
      obtain ⟨name, -, rfl⟩ := map_eq_ok_iff.1 accepted
      cases brings
  | roomMessage room body =>
      obtain ⟨name, -, rfl⟩ := map_eq_ok_iff.1 accepted
      rw [List.mem_singleton.1 brings, Command.body?]
  | privateMessage recipient body =>
      obtain ⟨name, -, rfl⟩ := map_eq_ok_iff.1 accepted
      rw [List.mem_singleton.1 brings, Command.body?]
  | broadcast body =>
      cases accepted
      rw [List.mem_singleton.1 brings, Command.body?]

/-! ## Readers -/

/-- What a reader asks for is the request of the command that arrived. -/
theorem Reader.command?_of_hear {settings : Settings} {now : Moment} {sender : ConnectionId}
    {arrival : Arrival} {command : Command} {request : Request}
    (heard : hear settings now sender arrival = .ask command request) :
    arrival.command? = some command ∧ Dispatch.requestOf sender command = .ok request := by
  unfold hear at heard
  split at heard
  · cases heard
  · cases heard
  · rename_i text frame
    have read : Command.parse text = .ok command ∧
        Dispatch.requestOf sender command = .ok request := by
      unfold Dispatch.request at heard
      grind
    exact ⟨by simp [Arrival.command?, frame, read.1, Except.toOption], read.2⟩

/-- Only a request makes a reader wait for an answer. -/
theorem Reader.ne_asking_of_hear {settings : Settings} {now : Moment} {sender : ConnectionId}
    {arrival : Arrival} {reader : Reader} (turned : hear settings now sender arrival = .turn reader)
    (command : Command) (ticket : Ticket) : reader ≠ .asking command ticket := by
  unfold hear at turned
  rintro rfl
  grind [Reader.listen]

/-- A reader waits for nothing any more once it has its answer. -/
theorem Reader.conclude_ne_asking (settings : Settings) (now : Moment) (command : Command)
    (outcome : Outcome) (box : Outbox) (other : Command) (ticket : Ticket) :
    (conclude settings now command outcome box).1 ≠ .asking other ticket := by
  unfold conclude
  split
  · simp [listen]
  · simp [listen]
  · split <;> simp [listen]

theorem Session.eq_of_reader?_withReader {session : Session} {reader other : Reader}
    (reading : (session.withReader reader).reader? = some other) : reader = other := by
  unfold withReader reader? at reading
  grind

@[simp]
theorem Session.reader?_withWriter (session : Session) (writer : Writer) :
    (session.withWriter writer).reader? = session.reader? := by
  obtain ⟨admission, stage⟩ := session
  cases stage <;> rfl

/-! ## Writers -/

namespace Writer

/-- A change of a writer and its outbox that takes no payload in. -/
def TakesNothing (change : Writer → Outbox → Writer × Outbox) : Prop :=
  ∀ writer box payload,
    payload ∈ (change writer box).1.pending ++ (change writer box).2.held →
      payload ∈ writer.pending ++ box.held

theorem takesNothing_turn (settings : Settings) (now : Moment) :
    TakesNothing fun writer box => writer.turn settings now box := by
  intro writer box payload member
  exact (writer.turns_turn settings now box).pending_append ▸ member

theorem takesNothing_written : TakesNothing written := by
  intro writer box payload member
  unfold written at member
  split at member
  · simp [pending, finish, WriteEnd.undelivered, Outbox.abandon] at member
  · exact List.mem_append_right _ (by simpa [pending] using member)
  · exact member

theorem takesNothing_failed : TakesNothing failed := by
  intro writer box payload member
  unfold failed at member
  split at member
  · simp [pending, finish, WriteEnd.undelivered, Outbox.abandon] at member
  · rename_i cargo deadline _ phase
    simpa [pending, phase, giveUp] using member
  · exact member

end Writer

/-! ## Servers -/

namespace Server

/-- The connection that an outbox belongs to. -/
def owner (server : Server) (key : OutboxId) : Option ConnectionId :=
  (server.sessions.get? key).map fun session => session.admission.id

/-- An outbox belongs to a connection, and no other does. -/
def OnlyOutbox (server : Server) (id : ConnectionId) (key : OutboxId) : Prop :=
  ∀ other peer, server.owner other = some peer → (peer = id ↔ other = key)

/-- All that waits in a server suits the connection that it waits for, and the commands
that are being carried out may be asked by their peers. -/
structure Stocked (suits : ConnectionId → Payload → Prop) (may : ConnectionId → Command → Prop)
    (server : Server) : Prop where
  hub : server.broker.hub.Stocked server.owner suits
  letters : ∀ letter ∈ server.broker.mailbox, ∀ id, ∀ payload ∈ letter.request.brings id,
    suits id payload
  writers : ∀ key session writer, server.sessions.get? key = some session →
    session.writer? = some writer → ∀ payload ∈ writer.pending, suits session.admission.id payload
  readers : ∀ key session command ticket, server.sessions.get? key = some session →
    session.reader? = some (.asking command ticket) → may session.admission.id command

/-- All that a step takes into a server suits whom it is meant for: what somebody sends
without a transport, what a command says that arrives, and the confirmations of commands
that may be asked. -/
structure TakesIn (suits : ConnectionId → Payload → Prop) (may : ConnectionId → Command → Prop)
    (server : Server) (step : ServerStep) : Prop where
  sent : ∀ request, step = .submit request → request.outbox? = none ∧
    ∀ id, ∀ payload ∈ request.brings id, suits id payload
  asked : ∀ key arrival, step = .arrive key arrival → ∀ id, server.owner key = some id →
    ∀ command ∈ arrival.command?, may id command
  said : ∀ key arrival, step = .arrive key arrival → ∀ command ∈ arrival.command?,
    ∀ payload ∈ command.body?, ∀ id, suits id payload
  confirmed : ∀ id command outcome box, may id command →
    ∀ payload ∈ Reader.confirmed command outcome box, payload ∈ server.confirmedBy id step →
      suits id payload

/-- Only peers say something in a run: the requests of others bring neither a transport
nor a payload. -/
def OnlyPeersSpeak (steps : List ServerStep) : Prop :=
  ∀ request, .submit request ∈ steps →
    request.outbox? = none ∧ ∀ id, request.brings id = []

/-- A payload is on its way to a connection. -/
inductive OnItsWay (server : Server) (id : ConnectionId) (payload : Payload) : Prop
  /-- It waits in the outbox of a transport. -/
  | queued (key : OutboxId) (own : server.owner key = some id)
      (waits : payload ∈ (server.outbox key).held)
  /-- It waits in the backlog. -/
  | kept (connection : Connection)
      (present : server.broker.hub.connections.get? id = some connection)
      (waits : payload ∈ connection.backlog.held)
  /-- It waits for the hub. -/
  | posted (letter : Letter) (waits : letter ∈ server.broker.mailbox)
      (brings : payload ∈ letter.request.brings id)
  /-- A writer has taken it, and writes it or hands it back. -/
  | taken (key : OutboxId) (session : Session) (writer : Writer)
      (present : server.sessions.get? key = some session) (own : session.admission.id = id)
      (writing : session.writer? = some writer) (pending : payload ∈ writer.pending)

variable {suits : ConnectionId → Payload → Prop} {may : ConnectionId → Command → Prop}
  {server : Server} {key : OutboxId} {session later : Session}

theorem Stocked.new (settings : Settings) (startedAt : Stamp) :
    (Server.new settings startedAt).Stocked suits may where
  hub := .new settings startedAt
  letters letter member := by cases member
  writers key session writer present := by cases present
  readers key session command ticket present := by cases present

theorem owner_of_present (present : server.sessions.get? key = some session) :
    server.owner key = some session.admission.id := by
  simp [owner, present]

theorem owner_setSession (present : server.sessions.get? key = some session)
    (same : later.admission = session.admission) :
    (server.setSession key later).owner = server.owner := by
  funext other
  simp only [owner, setSession, Table.get?_set]
  split
  · rename_i here
    rw [here, present, Option.map_some, Option.map_some, same]
  · rfl

/-- What the outbox of a session holds suits its connection. -/
theorem Stocked.held (stocked : server.Stocked suits may)
    (present : server.sessions.get? key = some session) :
    ∀ payload ∈ (server.outbox key).held, suits session.admission.id payload := by
  cases found : server.broker.hub.outboxes.get? key with
  | none =>
      intro payload member
      simp [outbox, found] at member
  | some box =>
      rw [outbox_of_present found]
      exact stocked.hub.outboxes.held (owner_of_present present) found

/-- What is on its way to a connection suits it. -/
theorem Stocked.of_onItsWay (stocked : server.Stocked suits may) {id : ConnectionId}
    {payload : Payload} (onItsWay : server.OnItsWay id payload) : suits id payload := by
  cases onItsWay with
  | queued key own waits =>
      obtain ⟨session, present, rfl⟩ := Option.map_eq_some_iff.1 own
      exact stocked.held present payload waits
  | kept connection present waits =>
      exact (stocked.hub.entries id connection present).backlog payload waits
  | posted letter waits brings => exact stocked.letters letter waits id payload brings
  | taken key session writer present own writing pending =>
      exact own ▸ stocked.writers key session writer present writing payload pending

/-- Only the hub, the letters and the sessions matter. -/
theorem Stocked.congr {after : Server} (stocked : server.Stocked suits may)
    (hub : after.broker.hub = server.broker.hub)
    (letters : ∀ letter ∈ after.broker.mailbox, letter ∈ server.broker.mailbox ∨
      ∀ id, ∀ payload ∈ letter.request.brings id, suits id payload)
    (sessions : after.sessions = server.sessions) : after.Stocked suits may where
  hub := by
    have sameOwner : after.owner = server.owner := by
      funext other
      simp only [owner, sessions]
    rw [hub, sameOwner]
    exact stocked.hub
  letters letter member := by
    rcases letters letter member with before | fit
    · exact stocked.letters letter before
    · exact fit
  writers := by
    rw [sessions]
    exact stocked.writers
  readers := by
    rw [sessions]
    exact stocked.readers

theorem Stocked.setOutbox (stocked : server.Stocked suits may)
    (present : server.sessions.get? key = some session) {box : Outbox}
    (held : ∀ payload ∈ box.held, suits session.admission.id payload) :
    (server.setOutbox key box).Stocked suits may where
  hub := ⟨stocked.hub.entries, stocked.hub.outboxes.set (owner_of_present present) held⟩
  letters := stocked.letters
  writers := stocked.writers
  readers := stocked.readers

theorem Stocked.setSession (stocked : server.Stocked suits may)
    (present : server.sessions.get? key = some session)
    (same : later.admission = session.admission)
    (pending : ∀ writer, later.writer? = some writer →
      ∀ payload ∈ writer.pending, suits session.admission.id payload)
    (asking : ∀ command ticket, later.reader? = some (.asking command ticket) →
      may session.admission.id command) :
    (server.setSession key later).Stocked suits may where
  hub := by
    rw [owner_setSession present same]
    exact stocked.hub
  letters := stocked.letters
  writers other entry writer there writing := by
    simp only [Server.setSession, Table.get?_set] at there
    split at there
    · obtain rfl := Option.some.inj there
      rw [same]
      exact pending writer writing
    · exact stocked.writers other entry writer there writing
  readers other entry command ticket there reading := by
    simp only [Server.setSession, Table.get?_set] at there
    split at there
    · obtain rfl := Option.some.inj there
      rw [same]
      exact asking command ticket reading
    · exact stocked.readers other entry command ticket there reading

/-- A session whose writer stays as it is. -/
theorem Stocked.setReader (stocked : server.Stocked suits may)
    (present : server.sessions.get? key = some session) {reader : Reader}
    (asking : ∀ command ticket, reader = .asking command ticket →
      may session.admission.id command) :
    (server.setSession key (session.withReader reader)).Stocked suits may := by
  refine stocked.setSession present (by simp) (fun writer writing => ?_)
    fun command ticket reading => ?_
  · rw [Session.writer?_withReader] at writing
    exact stocked.writers key session writer present writing
  · exact asking command ticket (Session.eq_of_reader?_withReader reading)

theorem Stocked.submit (stocked : server.Stocked suits may) {request : Request}
    (plain : request.outbox? = none)
    (brings : ∀ id, ∀ payload ∈ request.brings id, suits id payload) :
    (server.submit request).2.Stocked suits may := by
  refine stocked.congr (hub_submit server plain) (fun letter member => ?_) rfl
  cases running : server.broker.running with
  | true =>
      rw [submit_of_running running] at member
      rcases List.mem_append.1 member with before | last
      · exact .inl before
      · exact .inr (List.mem_singleton.1 last ▸ brings)
  | false =>
      rw [submit_of_stopped running plain] at member
      exact .inl member

/-! ## Steps of sessions -/

theorem Stocked.concludeCommand (stocked : server.Stocked suits may)
    (present : server.sessions.get? key = some session) (command : Command) {outcome : Outcome}
    (confirmed : ∀ payload ∈ Reader.confirmed command outcome (server.outbox key),
      suits session.admission.id payload) :
    (server.concludeCommand key session command outcome).Stocked suits may := by
  let result := Reader.conclude server.settings server.now command outcome (server.outbox key)
  have boxed : (server.setOutbox key result.2).Stocked suits may := by
    refine stocked.setOutbox present fun payload member => ?_
    rw [Reader.snd_conclude_eq] at member
    rcases List.mem_append.1 member with earlier | last
    · exact stocked.held present payload earlier
    · exact confirmed payload last
  refine boxed.setReader present fun other ticket same => ?_
  exact absurd same (Reader.conclude_ne_asking _ _ _ _ _ _ _)

theorem Stocked.changeWriter (stocked : server.Stocked suits may) (key : OutboxId)
    {change : Writer → Outbox → Writer × Outbox} (nothing : Writer.TakesNothing change) :
    (server.changeWriter key change).Stocked suits may := by
  unfold Server.changeWriter
  cases present : server.sessions.get? key with
  | none => exact stocked
  | some session =>
      cases writing : session.writer? with
      | none => simpa [writing] using stocked
      | some writer =>
          have fit : ∀ payload ∈ (change writer (server.outbox key)).1.pending ++
              (change writer (server.outbox key)).2.held, suits session.admission.id payload := by
            intro payload member
            rcases List.mem_append.1 (nothing writer _ payload member) with taken | waits
            · exact stocked.writers key session writer present writing payload taken
            · exact stocked.held present payload waits
          simp only [writing]
          refine (stocked.setOutbox present fun payload member =>
            fit payload (List.mem_append_right _ member)).setSession present (by simp) ?_ ?_
          · intro later same payload member
            rw [Session.writer?_withWriter writing] at same
            cases same
            exact fit payload (List.mem_append_left _ member)
          · intro command ticket reading
            rw [Session.reader?_withWriter] at reading
            exact stocked.readers key session command ticket present reading

theorem Stocked.endRefusal (stocked : server.Stocked suits may) (key : OutboxId) :
    (server.endRefusal key).Stocked suits may := by
  unfold Server.endRefusal
  split
  · rename_i session present
    split
    · exact stocked.setSession present rfl (fun _ writing => by cases writing)
        fun _ _ reading => by cases reading
    · exact stocked
  · exact stocked

theorem Stocked.answer (stocked : server.Stocked suits may)
    (takesIn : server.TakesIn suits may (.answer key)) :
    (server.answer key).Stocked suits may := by
  unfold Server.answer
  cases present : server.sessions.get? key with
  | none => exact stocked
  | some session =>
      dsimp only
      split
      · split
        · refine stocked.setSession present rfl (fun writer writing => ?_)
            fun command ticket reading => ?_
          · have fresh : writer.pending = [] := by
              unfold Session.enrolled at writing
              split at writing <;> cases writing
              rfl
            rw [fresh]
            simp
          · unfold Session.enrolled at reading
            split at reading <;> cases reading
        · exact stocked
      · rename_i generation command ticket writer stage
        have asked : may session.admission.id command :=
          stocked.readers key session command ticket present (by simp [Session.reader?, stage])
        split
        · rename_i outcome answered
          refine stocked.concludeCommand present command fun payload member => ?_
          refine takesIn.confirmed _ command outcome _ asked payload member ?_
          simpa [confirmedBy, ownBy, present, answered?, stage, answered] using member
        · exact stocked
      · exact stocked

theorem Stocked.arrive (stocked : server.Stocked suits may) {arrival : Arrival}
    (takesIn : server.TakesIn suits may (.arrive key arrival)) :
    (server.arrive key arrival).Stocked suits may := by
  rcases server.arrive_cases key arrival with ⟨result, _⟩ | ⟨session, _, present, _,
    ⟨reader, heard, result⟩ | ⟨command, request, heard, becomes⟩⟩
  · rw [result]
    exact stocked
  · rw [result]
    refine stocked.setReader present fun command ticket same => ?_
    exact absurd same (Reader.ne_asking_of_hear heard command ticket)
  · obtain ⟨arrived, accepted⟩ := Reader.command?_of_hear heard
    obtain ⟨plain, _, silent⟩ := Dispatch.requestOf_spec accepted
    have asked : may session.admission.id command :=
      takesIn.asked key arrival rfl _ (owner_of_present present) command arrived
    have posted : (server.submit request).2.Stocked suits may := by
      refine stocked.submit plain fun id payload brings => ?_
      exact takesIn.said key arrival rfl command arrived payload
        (Dispatch.body?_of_brings accepted brings) id
    -- a command whose outcome comes at once has nothing to confirm
    rcases becomes with ⟨_, result⟩ | ⟨_, _, result⟩ | ⟨_, unawaited, result⟩ <;> rw [result]
    · refine posted.concludeCommand present command fun payload member => ?_
      cases command <;> cases member
    · refine posted.setReader present fun other waits same => ?_
      cases same
      exact asked
    · refine posted.concludeCommand present command fun payload member => ?_
      simp [Reader.confirmed, silent unawaited] at member

theorem Stocked.fallSilent (stocked : server.Stocked suits may) (key : OutboxId) :
    (server.fallSilent key).Stocked suits may := by
  unfold Server.fallSilent
  cases present : server.sessions.get? key with
  | none => exact stocked
  | some session =>
      dsimp only
      split
      · split
        · exact stocked.setReader present fun _ _ same => by cases same
        · exact stocked
      · exact stocked

theorem Stocked.joinReader (stocked : server.Stocked suits may) (key : OutboxId) :
    (server.joinReader key).Stocked suits may := by
  unfold Server.joinReader
  cases present : server.sessions.get? key with
  | none => exact stocked
  | some session =>
      dsimp only
      split
      · rename_i generation outcome writer stage
        refine stocked.setSession present rfl (fun later writing => ?_) fun _ _ reading => by
          cases reading
        cases writing
        exact stocked.writers key session writer present (by simp [Session.writer?, stage])
      · exact stocked

/-- A session hands back nothing but what its writer had taken. -/
theorem Stocked.depart (stocked : server.Stocked suits may)
    (present : server.sessions.get? key = some session) (generation : Generation)
    {departure : Option Departure} {written : WriteEnd}
    (fit : ∀ payload ∈ written.undelivered, suits session.admission.id payload)
    (told : ∀ undelivered, departure = some (.lost undelivered) →
      undelivered = written.undelivered) :
    (server.depart key session generation departure).Stocked suits may := by
  have ended : (server.setSession key { session with stage := .over }).Stocked suits may :=
    stocked.setSession present rfl (fun _ writing => by cases writing)
      fun _ _ reading => by cases reading
  unfold Server.depart
  cases departure with
  | none => exact ended
  | some departure =>
      cases departure with
      | left => exact ended.submit rfl fun id payload member => by cases member
      | lost undelivered =>
          refine ended.submit rfl fun id payload member => ?_
          simp only [Departure.request, Request.brings] at member
          split at member
          · rename_i own
            exact own ▸ fit payload (told undelivered rfl ▸ member)
          · cases member

theorem Stocked.joinWriter (stocked : server.Stocked suits may) (key : OutboxId) :
    (server.joinWriter key).Stocked suits may := by
  unfold Server.joinWriter
  cases present : server.sessions.get? key with
  | none => exact stocked
  | some session =>
      have handedBack {written : WriteEnd} {nextPing : Moment} {stopping : Bool}
          (writing : session.writer? = some ⟨.ended written, nextPing, stopping⟩) :
          ∀ payload ∈ written.undelivered, suits session.admission.id payload :=
        stocked.writers key session _ present writing
      dsimp only
      split
      · rename_i generation reader written nextPing stopping stage
        have writing : session.writer? = some ⟨.ended written, nextPing, stopping⟩ := by
          simp [Session.writer?, stage]
        refine stocked.depart present generation (handedBack writing) fun undelivered same => ?_
        cases written <;> cases same <;> rfl
      · rename_i generation outcome written nextPing stopping stage
        have writing : session.writer? = some ⟨.ended written, nextPing, stopping⟩ := by
          simp [Session.writer?, stage]
        refine stocked.depart present generation (handedBack writing) fun undelivered same => ?_
        unfold Departure.ofReader at same
        split at same
        · cases same
        · split at same <;> cases same
          rfl
      · exact stocked

/-! ## Other steps -/

theorem Stocked.tick (stocked : server.Stocked suits may) (moment : Moment) :
    (server.tick moment).Stocked suits may :=
  @tick_keeps (Stocked suits may) server moment
    (fun _ _ => ⟨⟨stocked.hub.entries, stocked.hub.outboxes⟩, stocked.letters, stocked.writers,
      stocked.readers⟩)
    fun _ _ _ kept => kept.submit rfl fun _ _ member => by cases member

/-- A new session brings an empty outbox of its own. -/
theorem Stocked.enter (stocked : server.Stocked suits may) (threaded : server.Threaded)
    {after : Server} (idle : later.writer? = none) (still : later.reader? = none)
    (sessions : after.sessions = server.sessions.set server.nextOutbox later)
    (connections : after.broker.hub.connections = server.broker.hub.connections)
    {capacity : Nat}
    (outboxes : Outboxes.LetsGo (server.broker.hub.outboxes.set server.nextOutbox { capacity })
      after.broker.hub.outboxes)
    (letters : ∀ letter ∈ after.broker.mailbox, letter ∈ server.broker.mailbox ∨
      ∀ id, ∀ payload ∈ letter.request.brings id, suits id payload) :
    after.Stocked suits may where
  hub := by
    have own : after.owner server.nextOutbox = some later.admission.id := by
      simp [owner, sessions]
    have kept : ∀ key id, server.owner key = some id → after.owner key = some id := by
      intro key id owned
      obtain ⟨session, present, rfl⟩ := Option.map_eq_some_iff.1 owned
      obtain ⟨box, found⟩ := threaded.boxed key session present
      rw [owner, sessions, Table.get?_set_of_ne _ (threaded.ne_nextOutbox found) _, present]
      rfl
    have before := stocked.hub.mono kept
    refine ⟨connections ▸ before.entries, Outboxes.Stocked.letsGo ?_ outboxes⟩
    exact before.outboxes.set own fun payload member => by cases member
  letters letter member := by
    rcases letters letter member with before | fit
    · exact stocked.letters letter before
    · exact fit
  writers key session writer present writing := by
    rw [sessions, Table.get?_set] at present
    split at present
    · obtain rfl := Option.some.inj present
      rw [idle] at writing
      cases writing
    · exact stocked.writers key session writer present writing
  readers key session command ticket present reading := by
    rw [sessions, Table.get?_set] at present
    split at present
    · obtain rfl := Option.some.inj present
      rw [still] at reading
      cases reading
    · exact stocked.readers key session command ticket present reading

theorem Stocked.upgrade (stocked : server.Stocked suits may) (threaded : server.Threaded)
    (admission : Admission) : (server.upgrade admission).2.Stocked suits may := by
  cases running : server.broker.running with
  | true =>
      rw [upgrade_of_running running]
      refine stocked.enter threaded rfl rfl rfl rfl (.refl _) fun letter member => ?_
      rcases List.mem_append.1 member with before | last
      · exact .inl before
      · refine .inr fun id payload brings => ?_
        rw [List.mem_singleton.1 last] at brings
        cases brings
  | false =>
      rw [upgrade_of_stopped running]
      exact stocked.enter threaded rfl rfl rfl rfl (Outboxes.letsGo_release _ _)
        fun letter member => .inl member

theorem Stocked.served (stocked : server.Stocked suits may) (threaded : server.Threaded)
    {letter : Letter} {rest : List Letter} (letters : server.broker.mailbox = letter :: rest) :
    (server.served letter rest).Stocked suits may where
  hub := by
    have member : letter ∈ server.broker.mailbox := by rw [letters]; exact List.mem_cons_self
    refine stocked.hub.serve letter.request (stocked.letters letter member)
      fun id name key same => ?_
    obtain ⟨session, present, _, registers⟩ :=
      threaded.registered letter member key (by rw [same]; rfl)
    rw [same] at registers
    rw [(Request.register.inj registers).1]
    exact owner_of_present present
  letters other member :=
    stocked.letters other (by rw [letters]; exact List.mem_cons_of_mem _ member)
  writers := stocked.writers
  readers := stocked.readers

theorem Stocked.halted (stocked : server.Stocked suits may) : server.halted.Stocked suits may where
  hub := by
    have turned := server.broker.turnsAway_stop
    have closed := stocked.hub.closeAll
    exact closed.subset (fun id connection present => turned.connections ▸ present) turned.outboxes
  letters letter member := by
    rw [Server.halted, server.broker.turnsAway_stop.mailbox] at member
    cases member
  writers := stocked.writers
  readers := stocked.readers

theorem Stocked.serveNext (stocked : server.Stocked suits may) (threaded : server.Threaded) :
    server.serveNext.Stocked suits may := by
  rcases serveNext_cases threaded.numbered with ⟨_, same⟩ | ⟨letter, rest, _, letters, result⟩
  · rw [same]
    exact stocked
  · have served := stocked.served threaded letters
    rw [result]
    split
    · exact served.halted
    · exact served

/-- Every step leaves a server stocked with what suits, when all that it takes in does. -/
theorem Stocked.step (stocked : server.Stocked suits may) (threaded : server.Threaded)
    {step : ServerStep} (takesIn : server.TakesIn suits may step) :
    (server.step step).Stocked suits may := by
  cases step with
  | upgrade admission => exact stocked.upgrade threaded admission
  | submit request =>
      obtain ⟨plain, brings⟩ := takesIn.sent request rfl
      exact stocked.submit plain brings
  | serve => exact stocked.serveNext threaded
  | answer key => exact stocked.answer takesIn
  | arrive key arrival => exact stocked.arrive takesIn
  | fallSilent key => exact stocked.fallSilent key
  | turn key => exact stocked.changeWriter key (Writer.takesNothing_turn _ _)
  | written key => exact (stocked.changeWriter key Writer.takesNothing_written).endRefusal key
  | unwritten key => exact (stocked.changeWriter key Writer.takesNothing_failed).endRefusal key
  | giveUpWrite key =>
      obtain ⟨change, result, either⟩ := server.giveUpWrite_eq key
      rw [Server.step, result]
      refine stocked.changeWriter key fun writer box payload member => ?_
      rcases either writer box with failed | same
      · rw [failed] at member
        exact Writer.takesNothing_failed writer box payload member
      · rwa [same] at member
  | joinReader key => exact stocked.joinReader key
  | joinWriter key => exact stocked.joinWriter key
  | tick moment => exact stocked.tick moment

/-- Every run leaves a server stocked with what suits, when all that it takes in does. -/
theorem Stocked.run (stocked : server.Stocked suits may) (threaded : server.Threaded)
    {steps : List ServerStep}
    (takesIn : ∀ before next after, steps = before ++ next :: after →
      (server.run before).TakesIn suits may next) : (server.run steps).Stocked suits may := by
  induction steps generalizing server with
  | nil => exact stocked
  | cons first rest induction =>
      have now := takesIn [] first rest rfl
      refine induction (stocked.step threaded now)
        (threaded.step fun request same => (now.sent request same).1) ?_
      rintro before next after rfl
      exact takesIn (first :: before) next after rfl

end Server
end Parley
