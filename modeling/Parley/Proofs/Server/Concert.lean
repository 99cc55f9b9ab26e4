import Parley.Proofs.Dispatch
import Parley.Proofs.Hub.FanOut
import Parley.Proofs.Hub.Lost
import Parley.Proofs.Server.Journal
import Parley.Proofs.Server.Stocked

/-!
# Confirmations and the traffic of rooms

The reader of a connection confirms a join or a leave only when the hub has answered, and
asks for nothing else in between.  So when a leave is confirmed the connection is still out
of the room, and stays so until the hub serves a join that it asked for later; and a join
is confirmed after the hub has made it.
-/

namespace Parley

/-- Whether a request asks to let a connection into a room or to take it out of one. -/
def Request.ChangesRoomsOf (id : ConnectionId) : Request → Prop
  | .joinRoom other _ | .leaveRoom other _ => other = id
  | _ => False

theorem Request.ChangesRoomsOf.awaited {id : ConnectionId} {request : Request}
    (changes : request.ChangesRoomsOf id) : request.awaited = true := by
  cases request <;> first | rfl | cases changes

/-- A peer asks for changes of its own rooms only. -/
theorem Command.Means.eq_of_changesRoomsOf {sender id : ConnectionId} {command : Command}
    {request : Request} (means : command.Means sender request)
    (changes : request.ChangesRoomsOf id) : sender = id := by
  cases means <;> first | exact changes | cases changes

/-- A message to others does not reach an outbox that belongs to a connection. -/
theorem Hub.get?_deliverToAll_of_spared {hub : Hub} {key : OutboxId} {id : ConnectionId}
    (own : ∀ other connection, hub.connections.get? other = some connection →
      connection.link = .live key → other = id)
    (payload : Payload) {ids : List ConnectionId} (spared : id ∉ ids) :
    (hub.deliverToAll payload ids).outboxes.get? key = hub.outboxes.get? key :=
  get?_outboxes_deliverToAll (fun other member connection present link =>
    spared (own other connection present link ▸ member)) payload

/-! ## Stances -/

/-- How a stance may change while nothing is asked or learnt. -/
inductive Stance.Turns : Option Stance → Option Stance → Prop
  | same (stance : Option Stance) : Turns stance stance
  | done (stance : Option Stance) : Turns stance (some .done)
  | idle {before after : Option Stance} (active : before ≠ some .done)
      (unasked : ∀ command ticket, before ≠ some (.reading (.asking command ticket)))
      (asksNothing : ∀ command ticket, after ≠ some (.reading (.asking command ticket))) :
      Turns before after

@[simp]
theorem Session.stance_withWriter (session : Session) (writer : Writer) :
    (session.withWriter writer).stance = session.stance := by
  obtain ⟨admission, stage⟩ := session
  cases stage <;> rfl

theorem Session.stance_of_reader? {session : Session} {reader : Reader}
    (reading : session.reader? = some reader) : session.stance = .reading reader := by
  obtain ⟨generation, writer, stage⟩ := exists_of_reader? reading
  simp [stance, stage]

theorem Session.stance_withReader {session : Session} {before : Reader}
    (reading : session.reader? = some before) (reader : Reader) :
    (session.withReader reader).stance = .reading reader := by
  obtain ⟨generation, writer, stage⟩ := exists_of_reader? reading
  simp [stance, withReader, stage]

/-- The answer to its registration lets a session read, or ends it. -/
theorem Session.stance_enrolled (admission : Admission) (settings : Settings) (now : Moment)
    (outcome : Outcome) :
    (Session.mk admission (enrolled settings now outcome)).stance =
        .reading (Reader.listen settings now) ∨
      (Session.mk admission (enrolled settings now outcome)).stance = .done := by
  unfold enrolled
  split
  · exact .inl rfl
  · exact .inr rfl

namespace Server

variable {server later : Server} {id : ConnectionId} {key other : OutboxId}
  {journal : List JournalEntry} {session : Session}

theorem stance_of_present (present : server.sessions.get? key = some session) :
    server.stance key = some session.stance := by
  simp [stance, present]

theorem stance_setSession (server : Server) (key other : OutboxId) (session : Session) :
    (server.setSession other session).stance key =
      if key = other then some session.stance else server.stance key := by
  simp only [stance, setSession, Table.get?_set]
  split <;> rfl

/-! ## The invariant -/

/-- What the answer to a command means: after a leave the connection is out of the room, and
after a join it has been let in. -/
def Bears (server : Server) (id : ConnectionId) (journal : List JournalEntry) (ticket : Ticket) :
    Command → Outcome → Prop
  | .leaveRoom text, .ok _ =>
      ∀ room : RoomName, room.text = text → id ∉ server.broker.hub.roster.members room
  | .joinRoom text, .ok _ =>
      ∃ room : RoomName, room.text = text ∧ .joined ticket room ∈ journal
  | _, _ => True

theorem bears_error (ticket : Ticket) (command : Command) (refusal : Refusal) :
    server.Bears id journal ticket command (.error refusal) := by
  cases command <;> exact trivial

/-- What an answer means goes on to hold as long as the connection enters no room. -/
theorem Bears.mono {ticket : Ticket} {command : Command} {outcome : Outcome}
    {more : List JournalEntry} (bears : server.Bears id journal ticket command outcome)
    (outside : ∀ room, id ∈ later.broker.hub.roster.members room →
      id ∈ server.broker.hub.roster.members room)
    (noted : ∀ entry ∈ journal, entry ∈ more) : later.Bears id more ticket command outcome := by
  unfold Bears at bears ⊢
  split at bears
  · exact fun room named member => bears room named (outside room member)
  · obtain ⟨room, named, member⟩ := bears
    exact ⟨room, named, noted _ member⟩
  · trivial

/-- The reader of a connection and the hub go one after the other.  Every letter that changes
the rooms of the connection is the one that its reader waits for, or nobody reads any more;
what the reader waits for is in the mailbox, or has an answer that still holds; and the
connection is out of every room that it was told to have left. -/
structure Concerted (server : Server) (id : ConnectionId) (key : OutboxId)
    (journal : List JournalEntry) : Prop where
  letters : ∀ letter ∈ server.broker.mailbox, letter.request.ChangesRoomsOf id →
    (∃ command, server.stance key = some (.reading (.asking command letter.ticket))) ∨
      server.stance key = some .done
  asked : ∀ command ticket, server.stance key = some (.reading (.asking command ticket)) →
    (∃ request, command.Means id request ∧ request.awaited = true ∧
        ⟨ticket, request⟩ ∈ server.broker.mailbox) ∨
      ∃ outcome, server.broker.replies.get? ticket = some outcome ∧
        server.Bears id journal ticket command outcome
  parted : ∀ room, Parted room journal → id ∉ server.broker.hub.roster.members room
  sound : Sound journal

theorem Concerted.new (settings : Settings) (startedAt : Stamp) :
    (Server.new settings startedAt).Concerted id key [] where
  letters letter member := by cases member
  asked command ticket asks := by cases asks
  parted room parted := by
    obtain ⟨ticket, payload, member⟩ := parted.exists_confirmation
    cases member
  sound := .nil

/-- Nothing happens between the reader and the hub, though others may send letters. -/
theorem Concerted.extend (concerted : server.Concerted id key journal)
    (stance : Stance.Turns (server.stance key) (later.stance key))
    (letters : ∀ letter ∈ later.broker.mailbox, letter.request.ChangesRoomsOf id →
      letter ∈ server.broker.mailbox)
    (kept : ∀ letter ∈ server.broker.mailbox, letter ∈ later.broker.mailbox)
    (replies : ∀ ticket, server.broker.replies.get? ticket ≠ none →
      later.broker.replies.get? ticket = server.broker.replies.get? ticket)
    (roster : later.broker.hub.roster = server.broker.hub.roster) :
    later.Concerted id key journal where
  letters letter member changes := by
    have before := concerted.letters letter (letters letter member changes) changes
    generalize server.stance key = was at stance before
    generalize later.stance key = is at stance ⊢
    cases stance with
    | same => exact before
    | done => exact .inr rfl
    | idle active unasked =>
        rcases before with ⟨command, asks⟩ | ended
        · exact absurd asks (unasked command _)
        · exact absurd ended active
  asked command ticket asks := by
    have same : server.stance key = some (.reading (.asking command ticket)) := by
      generalize server.stance key = was at stance ⊢
      generalize later.stance key = is at stance asks
      cases stance with
      | same => exact asks
      | done => cases asks
      | idle _ _ asksNothing => exact absurd asks (asksNothing command ticket)
    rcases concerted.asked command ticket same with
      ⟨request, means, awaited, waits⟩ | ⟨outcome, given, bears⟩
    · exact .inl ⟨request, means, awaited, kept _ waits⟩
    · exact .inr ⟨outcome, (replies ticket (by simp [given])).trans given,
        bears.mono (fun room member => roster ▸ member) fun _ noted => noted⟩
  parted room := by
    rw [roster]
    exact concerted.parted room
  sound := concerted.sound

theorem Concerted.setOutbox (concerted : server.Concerted id key journal) (other : OutboxId)
    (box : Outbox) : (server.setOutbox other box).Concerted id key journal :=
  concerted.extend (.same _) (fun _ member _ => member) (fun _ member => member)
    (fun _ _ => rfl) rfl

/-- A session moves on without a question or an answer. -/
theorem Concerted.setSession (concerted : server.Concerted id key journal) {after : Session}
    (present : server.sessions.get? other = some session)
    (turns : other = key → Stance.Turns (some session.stance) (some after.stance)) :
    (server.setSession other after).Concerted id key journal := by
  refine concerted.extend ?_ (fun _ member _ => member) (fun _ member => member)
    (fun _ _ => rfl) rfl
  rw [stance_setSession]
  split
  · rename_i same
    subst same
    rw [stance_of_present present]
    exact turns rfl
  · exact .same _

/-- Somebody else sends a request, or nobody serves it. -/
theorem Concerted.submit (concerted : server.Concerted id key journal)
    (numbered : server.broker.Numbered) {request : Request} (plain : request.outbox? = none)
    (calm : server.broker.running = true → ¬request.ChangesRoomsOf id) :
    (server.submit request).2.Concerted id key journal := by
  have roster := congrArg Hub.roster (hub_submit server plain)
  cases running : server.broker.running with
  | true =>
      rw [submit_of_running running]
      refine concerted.extend (.same _) (fun letter member changes => ?_)
        (fun _ => List.mem_append_left _) (fun _ _ => rfl) rfl
      rcases List.mem_append.1 member with before | last
      · exact before
      · rw [List.mem_singleton.1 last] at changes
        exact absurd changes (calm running)
  | false =>
      rw [submit_of_stopped running plain]
      refine concerted.extend (.same _) (fun _ member _ => member) (fun _ member => member)
        (fun ticket given => ?_) rfl
      exact server.broker.get?_replied_of_ne (Nat.ne_of_lt (numbered.answered ticket given)) _

/-- More is written into the journal. -/
theorem Concerted.note (concerted : server.Concerted id key journal) {more : List JournalEntry}
    (parted : ∀ room, Parted room more → id ∉ server.broker.hub.roster.members room)
    (fits : ∀ before entry after, more = before ++ entry :: after →
      entry.Fits (journal ++ before)) : server.Concerted id key (journal ++ more) where
  letters := concerted.letters
  asked command ticket asks := by
    refine (concerted.asked command ticket asks).imp_right ?_
    rintro ⟨outcome, given, bears⟩
    exact ⟨outcome, given,
      bears.mono (fun _ member => member) fun _ noted => List.mem_append_left _ noted⟩
  parted room all := by
    rcases all.of_append with ⟨before, _⟩ | now
    · exact concerted.parted room before
    · exact parted room now
  sound := concerted.sound.append fits

theorem not_parted_map_accepted {source : Source}
    (tellsNothing : ∀ ticket text, source ≠ .confirmation ticket (.left text)) (room : RoomName)
    (payloads : List Payload) : ¬Parted room (payloads.map (.accepted source)) := by
  intro parted
  obtain ⟨ticket, payload, member⟩ := parted.exists_confirmation
  obtain ⟨_, _, same⟩ := List.mem_map.1 member
  exact tellsNothing ticket room.text (JournalEntry.accepted.inj same).1

theorem source_eq_of_split {source : Source} {payloads : List Payload}
    {before after : List JournalEntry} {entry : JournalEntry}
    (split : payloads.map (.accepted source) = before ++ entry :: after) :
    payloads ≠ [] ∧ (∃ payload, entry = .accepted source payload) ∧
      ∃ first : List Payload, before = first.map (.accepted source) := by
  obtain ⟨first, second, rfl, rfl, rest⟩ := List.map_eq_append_iff.1 split
  obtain ⟨payload, others, rfl, rfl, -⟩ := List.map_eq_cons_iff.1 rest
  exact ⟨List.append_ne_nil_of_right_ne_nil _ (List.cons_ne_nil _ _), ⟨payload, rfl⟩, first, rfl⟩

theorem Concerted.notePlain (concerted : server.Concerted id key journal) {source : Source}
    (plain : source = .message ∨ source = .other) (payloads : List Payload) :
    server.Concerted id key (journal ++ payloads.map (.accepted source)) := by
  refine concerted.note (fun room parted => ?_) fun before entry after split => ?_
  · rcases plain with rfl | rfl <;>
      exact absurd parted (not_parted_map_accepted (by simp) room payloads)
  · obtain ⟨-, ⟨payload, rfl⟩, -⟩ := source_eq_of_split split
    rcases plain with rfl | rfl <;> trivial

/-- What is fanned out through a room comes to a member. -/
theorem Concerted.noteFanOut (concerted : server.Concerted id key journal) {room : RoomName}
    {payloads : List Payload}
    (reached : payloads ≠ [] → id ∈ server.broker.hub.roster.members room) :
    server.Concerted id key (journal ++ payloads.map (.accepted (.fanOut room))) := by
  refine concerted.note (fun room parted => ?_) fun before entry after split => ?_
  · exact absurd parted (not_parted_map_accepted (by simp) room payloads)
  · obtain ⟨some_payload, ⟨payload, rfl⟩, first, rfl⟩ := source_eq_of_split split
    intro parted
    rcases parted.of_append with ⟨earlier, _⟩ | now
    · exact concerted.parted room earlier (reached some_payload)
    · exact not_parted_map_accepted (by simp) room first now

/-- A confirmation tells what the answer of the hub means. -/
theorem Concerted.noteConfirmation (concerted : server.Concerted id key journal)
    {ticket : Ticket} {confirmation : Confirmation}
    (left : ∀ room : RoomName, confirmation = .left room.text →
      id ∉ server.broker.hub.roster.members room)
    (joined : ∀ text, confirmation = .joined text →
      ∃ room : RoomName, room.text = text ∧ .joined ticket room ∈ journal)
    (payloads : List Payload) :
    server.Concerted id key
      (journal ++ payloads.map (.accepted (.confirmation ticket confirmation))) := by
  refine concerted.note (fun room parted => ?_) fun before entry after split => ?_
  · obtain ⟨other, payload, member⟩ := parted.exists_confirmation
    obtain ⟨_, _, same⟩ := List.mem_map.1 member
    exact left room (Source.confirmation.inj (JournalEntry.accepted.inj same).1).2
  · obtain ⟨-, ⟨payload, rfl⟩, -⟩ := source_eq_of_split split
    cases confirmation with
    | joined text =>
        obtain ⟨room, named, member⟩ := joined text rfl
        exact ⟨room, named, List.mem_append_left _ member⟩
    | joinFailed text => trivial
    | left text => trivial

/-! ## Steps of sessions -/

/-- The reader of a session turns from what it listened to. -/
theorem Concerted.setReader (concerted : server.Concerted id key journal)
    (present : server.sessions.get? other = some session) {reader : Reader}
    (listening : other = key → ∃ deadline, session.reader? = some (.listening deadline))
    (asksNothing : ∀ command ticket, reader ≠ .asking command ticket) :
    (server.setSession other (session.withReader reader)).Concerted id key journal := by
  refine concerted.setSession present fun same => ?_
  obtain ⟨deadline, reading⟩ := listening same
  rw [Session.stance_of_reader? reading, Session.stance_withReader reading]
  exact .idle (by simp) (by simp) (by simpa using asksNothing)

theorem Concerted.changeWriter (concerted : server.Concerted id key journal) (other : OutboxId)
    (change : Writer → Outbox → Writer × Outbox) :
    (server.changeWriter other change).Concerted id key journal := by
  unfold Server.changeWriter
  cases present : server.sessions.get? other with
  | none => exact concerted
  | some session =>
      cases writing : session.writer? with
      | none => simpa [writing] using concerted
      | some writer =>
          simp only [writing]
          refine (concerted.setOutbox other _).setSession present fun _ => ?_
          rw [Session.stance_withWriter]
          exact .same _

theorem Concerted.endRefusal (concerted : server.Concerted id key journal) (other : OutboxId) :
    (server.endRefusal other).Concerted id key journal := by
  unfold Server.endRefusal
  split
  · rename_i session present
    split
    · exact concerted.setSession present fun _ => .done _
    · exact concerted
  · exact concerted

theorem Concerted.joinReader (concerted : server.Concerted id key journal) (other : OutboxId) :
    (server.joinReader other).Concerted id key journal := by
  unfold Server.joinReader
  cases present : server.sessions.get? other with
  | none => exact concerted
  | some session =>
      dsimp only
      split
      · exact concerted.setSession present fun _ => .done _
      · exact concerted

theorem Concerted.fallSilent (concerted : server.Concerted id key journal) (other : OutboxId) :
    (server.fallSilent other).Concerted id key journal := by
  unfold Server.fallSilent
  cases present : server.sessions.get? other with
  | none => exact concerted
  | some session =>
      dsimp only
      split
      · rename_i deadline reading
        split
        · refine concerted.setSession present fun _ => ?_
          rw [Session.stance_of_reader? reading, Session.stance_withReader reading]
          exact .idle (by simp) (by simp) (by simp)
        · exact concerted
      · exact concerted

theorem Concerted.depart (concerted : server.Concerted id key journal)
    (numbered : server.broker.Numbered) (present : server.sessions.get? other = some session)
    (generation : Generation) (departure : Option Departure) :
    (server.depart other session generation departure).Concerted id key journal := by
  have ended : (server.setSession other { session with stage := .over }).Concerted id key journal :=
    concerted.setSession present fun _ => .done _
  unfold Server.depart
  cases departure with
  | none => exact ended
  | some departure =>
      cases departure <;> exact ended.submit numbered rfl fun _ changes => by cases changes

theorem Concerted.joinWriter (concerted : server.Concerted id key journal)
    (numbered : server.broker.Numbered) (other : OutboxId) :
    (server.joinWriter other).Concerted id key journal := by
  unfold Server.joinWriter
  cases present : server.sessions.get? other with
  | none => exact concerted
  | some session =>
      dsimp only
      split
      · exact concerted.depart numbered present _ _
      · exact concerted.depart numbered present _ _
      · exact concerted

/-- The hub's answer reaches the reader, so no letter that changes the rooms of the
connection waits any more. -/
theorem Concerted.learn (concerted : server.Concerted id key journal)
    (numbered : server.broker.Numbered) (present : server.sessions.get? key = some session)
    {command : Command} {ticket : Ticket} {outcome : Outcome}
    (asking : session.reader? = some (.asking command ticket))
    (given : server.broker.replies.get? ticket = some outcome) :
    (server.concludeCommand key session command outcome).Concerted id key journal := by
  have stance : server.stance key = some (.reading (.asking command ticket)) := by
    rw [stance_of_present present, Session.stance_of_reader? asking]
  have learnt : (server.concludeCommand key session command outcome).stance key =
      some (.reading (Reader.conclude server.settings server.now command outcome
        (server.outbox key)).1) := by
    unfold concludeCommand
    rw [stance_setSession, if_pos rfl, Session.stance_withReader asking]
  refine ⟨fun letter member changes => ?_, fun other waits asks => ?_, concerted.parted,
    concerted.sound⟩
  · have unanswered := numbered.unanswered letter member
    rcases concerted.letters letter member changes with ⟨_, asks⟩ | ended
    · rw [stance] at asks
      cases asks
      rw [given] at unanswered
      cases unanswered
    · rw [stance] at ended
      cases ended
  · rw [learnt] at asks
    exact absurd (Stance.reading.inj (Option.some.inj asks)) (Reader.conclude_ne_asking _ _ _ _ _ _ _)

/-- What a session is about to learn of its command is true. -/
theorem Concerted.holds_of_confirmation (concerted : server.Concerted id key journal)
    (numbered : server.broker.Numbered) {ticket : Ticket} {confirmation : Confirmation}
    (told : server.confirmation? key = some (ticket, confirmation)) :
    (∀ room : RoomName, confirmation = .left room.text →
        id ∉ server.broker.hub.roster.members room) ∧
      ∀ text, confirmation = .joined text →
        ∃ room : RoomName, room.text = text ∧ .joined ticket room ∈ journal := by
  unfold confirmation? at told
  split at told
  · rename_i command waits asks
    split at told
    · rename_i other found
      cases told
      obtain ⟨outcome, given, concluded⟩ := Option.map_eq_some_iff.1 found
      have bears : server.Bears id journal ticket command outcome := by
        rcases concerted.asked command ticket asks with ⟨request, _, _, waits⟩ | ⟨same, there, bears⟩
        · have unanswered := numbered.unanswered _ waits
          rw [given] at unanswered
          cases unanswered
        · exact Option.some.inj (there.symm.trans given) ▸ bears
      unfold Dispatch.conclude at concluded
      split at concluded <;> cases concluded
      · exact ⟨nofun, fun text same => by cases same; exact bears⟩
      · exact ⟨nofun, nofun⟩
      · exact ⟨fun room same => bears room (Confirmation.left.inj same).symm, nofun⟩
    · cases told
  · cases told

/-- A session may write down what it is about to learn. -/
theorem Concerted.noteAnswer (concerted : server.Concerted id key journal)
    (numbered : server.broker.Numbered) (other : OutboxId) :
    server.Concerted id key (journal ++ server.journalBy id key (.answer other)) := by
  simp only [journalBy, joinedBy, List.nil_append, sourceBy]
  split
  · cases told : server.confirmation? key with
    | none => exact concerted.notePlain (.inr rfl) _
    | some answer =>
        obtain ⟨left, joined⟩ := concerted.holds_of_confirmation numbered told
        exact concerted.noteConfirmation left joined _
  · exact concerted.notePlain (.inr rfl) _

/-- Another reader, or one that has asked for nothing, hears of an outcome. -/
theorem Concerted.conclude (concerted : server.Concerted id key journal)
    (present : server.sessions.get? other = some session)
    (listening : other = key → ∃ deadline, session.reader? = some (.listening deadline))
    (command : Command) (outcome : Outcome) :
    (server.concludeCommand other session command outcome).Concerted id key journal := by
  unfold concludeCommand
  exact (concerted.setOutbox other _).setReader present listening
    (Reader.conclude_ne_asking _ _ _ _ _)

theorem Concerted.answer (concerted : server.Concerted id key journal)
    (numbered : server.broker.Numbered) (other : OutboxId) :
    (server.answer other).Concerted id key journal := by
  unfold Server.answer
  cases present : server.sessions.get? other with
  | none => exact concerted
  | some session =>
      dsimp only
      split
      · rename_i ticket stage
        split
        · rename_i outcome _
          have enrolling : session.stance = .enrolling := by simp [Session.stance, stage]
          refine concerted.setSession present fun _ => ?_
          rw [enrolling]
          rcases Session.stance_enrolled session.admission server.settings server.now outcome with
            reads | ended
          · rw [reads]
            exact .idle (by simp) (by simp) (by simp [Reader.listen])
          · rw [ended]
            exact .done _
        · exact concerted
      · rename_i generation command ticket writer stage
        split
        · rename_i outcome given
          by_cases same : other = key
          · subst same
            exact concerted.learn numbered present (by simp [Session.reader?, stage]) given
          · exact concerted.conclude present (fun own => absurd own same) command outcome
        · exact concerted
      · exact concerted

/-- The reader of the connection asks for something while no letter that changes the rooms of
the connection waits. -/
theorem Concerted.ask (concerted : server.Concerted id key journal)
    (running : server.broker.running = true) (present : server.sessions.get? key = some session)
    {deadline : Moment} (listening : session.reader? = some (.listening deadline))
    {command : Command} {request : Request} (means : command.Means id request)
    (awaited : request.awaited = true) :
    ((server.submit request).2.setSession key
      (session.withReader (.asking command server.broker.nextTicket))).Concerted id key journal := by
  have before : server.stance key = some (.reading (.listening deadline)) := by
    rw [stance_of_present present, Session.stance_of_reader? listening]
  have after : ((server.submit request).2.setSession key
      (session.withReader (.asking command server.broker.nextTicket))).stance key =
        some (.reading (.asking command server.broker.nextTicket)) := by
    rw [stance_setSession, if_pos rfl, Session.stance_withReader listening]
  have sent := congrArg Server.broker (submit_of_running running request)
  refine ⟨fun letter member changes => ?_, fun other ticket asks => ?_, ?_, concerted.sound⟩
  · rw [after]
    simp only [Server.setSession, sent] at member
    rcases List.mem_append.1 member with earlier | last
    · have busy := concerted.letters letter earlier changes
      rw [before] at busy
      rcases busy with ⟨_, asks⟩ | ended
      · cases asks
      · cases ended
    · rw [List.mem_singleton.1 last]
      exact .inl ⟨command, rfl⟩
  · rw [after] at asks
    cases asks
    refine .inl ⟨request, means, awaited, ?_⟩
    simp only [Server.setSession, sent]
    exact List.mem_append_right _ (List.mem_singleton_self _)
  · simp only [Server.setSession, sent]
    exact concerted.parted

theorem Concerted.arrive (concerted : server.Concerted id key journal)
    (numbered : server.broker.Numbered)
    (lone : server.OnlyOutbox id key) (other : OutboxId) (arrival : Arrival) :
    (server.arrive other arrival).Concerted id key journal := by
  rcases server.arrive_cases other arrival with ⟨result, _⟩ | ⟨session, deadline, present, listening,
    ⟨reader, heard, result⟩ | ⟨command, request, heard, becomes⟩⟩
  · rw [result]
    exact concerted
  · rw [result]
    exact concerted.setReader present (fun _ => ⟨deadline, listening⟩)
      (Reader.ne_asking_of_hear heard)
  · have means := Dispatch.requestOf_eq_ok_iff.1 (Reader.command?_of_hear heard).2
    have plain := Dispatch.outbox?_of_means means
    have own := lone other _ (owner_of_present present)
    rcases becomes with
      ⟨stopped, result⟩ | ⟨running, awaited, result⟩ | ⟨_, unawaited, result⟩ <;> rw [result]
    · have sent := concerted.submit numbered plain fun running => by simp [stopped] at running
      exact sent.conclude present (fun _ => ⟨deadline, listening⟩) command _
    · by_cases same : other = key
      · subst same
        rw [own.2 rfl] at means
        exact concerted.ask running present listening means awaited
      · have sent := concerted.submit numbered plain fun _ changes =>
          same (own.1 (means.eq_of_changesRoomsOf changes))
        exact sent.setSession present fun here => absurd here same
    · have sent := concerted.submit numbered plain fun _ changes => by
        simp [changes.awaited] at unawaited
      exact sent.conclude present (fun _ => ⟨deadline, listening⟩) command _

/-! ## Other steps -/

/-- A new session waits for its registration, or is turned away. -/
theorem Concerted.upgrade (concerted : server.Concerted id key journal)
    (threaded : server.Threaded) (admission : Admission) :
    (server.upgrade admission).2.Concerted id key journal := by
  have fresh : server.stance server.nextOutbox = none := by simp [stance, threaded.no_session]
  have elsewhere (different : key ≠ server.nextOutbox) :
      (server.upgrade admission).2.stance key = server.stance key := by
    rw [stance, server.get?_sessions_upgrade_of_ne admission different]
    rfl
  cases running : server.broker.running with
  | true =>
      rw [upgrade_of_running running] at elsewhere ⊢
      refine concerted.extend ?_ (fun letter member changes => ?_)
        (fun _ => List.mem_append_left _) (fun _ _ => rfl) rfl
      · by_cases same : key = server.nextOutbox
        · subst same
          rw [fresh]
          exact .idle (by simp) (by simp) (by simp [stance, Session.stance])
        · rw [elsewhere same]
          exact .same _
      · rcases List.mem_append.1 member with before | last
        · exact before
        · rw [List.mem_singleton.1 last] at changes
          cases changes
  | false =>
      rw [upgrade_of_stopped running] at elsewhere ⊢
      refine concerted.extend ?_ (fun _ member _ => member) (fun _ member => member)
        (fun ticket given => ?_) rfl
      · by_cases same : key = server.nextOutbox
        · subst same
          simp only [stance, Table.get?_set_self, Option.map_some]
          exact .done _
        · rw [elsewhere same]
          exact .same _
      · exact server.broker.get?_replied_of_ne
          (Nat.ne_of_lt (threaded.numbered.answered ticket given)) _

theorem Concerted.tick (concerted : server.Concerted id key journal) (threaded : server.Threaded)
    (moment : Moment) : (server.tick moment).Concerted id key journal := by
  refine (@tick_keeps (fun server => server.Threaded ∧ server.Concerted id key journal) server
    moment (fun expiries now => ⟨threaded.elapse expiries now, ?_⟩)
    fun _ _ _ kept => ⟨kept.1.submit rfl, ?_⟩).2
  · exact concerted.extend (.same _) (fun _ member _ => member) (fun _ member => member)
      (fun _ _ => rfl) rfl
  · exact kept.2.submit kept.1.numbered rfl fun _ changes => by cases changes

/-! ## Serving -/

/-- The hub serves a letter.  When it lets the connection into a room, the journal tells so
and no longer ends with the connection out of the room. -/
theorem Concerted.served (concerted : server.Concerted id key journal)
    (numbered : server.broker.Numbered) (consistent : server.broker.hub.Consistent)
    {letter : Letter} {rest : List Letter} (letters : server.broker.mailbox = letter :: rest)
    (noted : ∀ room answer, letter.request = .joinRoom id room →
      (server.broker.hub.serve letter.request).1 = .ok answer →
        ¬Parted room journal ∧ .joined letter.ticket room ∈ journal) :
    (server.served letter rest).Concerted id key journal := by
  have served : letter ∈ server.broker.mailbox := by rw [letters]; exact List.mem_cons_self
  have unanswered := numbered.unanswered letter served
  refine ⟨fun other member => ?_, fun command ticket asks => ?_, fun room parted member => ?_,
    concerted.sound⟩
  · exact concerted.letters other (by rw [letters]; exact List.mem_cons_of_mem _ member)
  · rcases concerted.asked command ticket asks with
      ⟨request, means, awaited, waits⟩ | ⟨outcome, given, bears⟩
    · rw [letters, List.mem_cons] at waits
      rcases waits with rfl | waits
      · -- the hub serves what the reader waits for
        refine .inr ⟨_, server.broker.get?_replied_of_awaited awaited _, ?_⟩
        cases means with
        | joinRoom room =>
            cases answered : (server.broker.hub.serve (.joinRoom id room)).1 with
            | ok answer => exact ⟨room, rfl, (noted room answer rfl answered).2⟩
            | error refusal => exact bears_error _ _ _
        | leaveRoom room =>
            intro place named member
            obtain rfl : place = room := by
              cases place
              cases room
              simpa using named
            exact ((server.broker.hub.roster.mem_members_leave id id place place).1 member).2
              ⟨rfl, rfl⟩
        | _ => exact trivial
      · exact .inl ⟨request, means, awaited, waits⟩
    · have other : ticket ≠ letter.ticket := by
        rintro rfl
        rw [given] at unanswered
        cases unanswered
      refine .inr ⟨outcome, (server.broker.get?_replied_of_ne other _).trans given,
        bears.mono (fun room member => ?_) fun _ noted => noted⟩
      -- the reader has its answer, so no join of the connection can be served now
      rcases consistent.mem_members_of_serve member with earlier | ⟨joins, _⟩
      · exact earlier
      · rcases concerted.letters letter served (by rw [joins]; rfl) with ⟨_, waits⟩ | ended
        · exact absurd (Reader.asking.inj (Stance.reading.inj (Option.some.inj
            (asks.symm.trans waits)))).2 other
        · exact absurd (asks.symm.trans ended) (by simp)
  · rcases consistent.mem_members_of_serve member with earlier | ⟨joins, answered⟩
    · exact concerted.parted room parted earlier
    · exact (noted room _ joins answered).1 parted

/-- When the broker stops, everybody who waits hears that it has, and the rooms are gone. -/
theorem Concerted.halted (concerted : server.Concerted id key journal)
    (consistent : server.broker.hub.Consistent) : server.halted.Concerted id key journal := by
  have turned := server.broker.turnsAway_stop
  have nobody (room : RoomName) : id ∉ server.halted.broker.hub.roster.members room := by
    simp [Server.halted, turned.roster, Roster.members, Index.group,
      consistent.closeAll_eq_empty.2.1]
  refine ⟨fun letter member => ?_, fun command ticket asks => .inr ?_, fun room _ => nobody room,
    concerted.sound⟩
  · rw [Server.halted, turned.mailbox] at member
    cases member
  · rcases concerted.asked command ticket asks with
      ⟨request, _, awaited, waits⟩ | ⟨outcome, given, bears⟩
    · exact ⟨_, turned.answers _ waits awaited, bears_error _ _ _⟩
    · rcases turned.replies ticket with same | ⟨stopped, _⟩
      · exact ⟨outcome, same.trans given,
          bears.mono (fun room member => absurd member (nobody room)) fun _ noted => noted⟩
      · exact ⟨_, stopped, bears_error _ _ _⟩

end Server
end Parley
