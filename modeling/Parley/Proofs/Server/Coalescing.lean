import Parley.Frame.Batch
import Parley.Proofs.Frame.Command
import Parley.Proofs.Server.Chronicle
import Parley.Proofs.Server.Stocked

/-!
# Payloads that share a frame

Payloads that are written together are joined with a mark between any two, and nothing
is escaped.  The frame splits back into them because no payload that is ever on its way
is empty or holds the mark: what peers say has been normalized, and so have the rooms
that are confirmed to them.
-/

namespace Parley

namespace Batch

/-- A payload that can share a frame: it is not empty and does not hold the mark. -/
def Part (payload : Payload) : Prop := payload ≠ "" ∧ separator ∉ payload.toList

instance (payload : Payload) : Decidable (Part payload) :=
  inferInstanceAs (Decidable (payload ≠ "" ∧ separator ∉ payload.toList))

/-- A frame splits back into the parts that it was joined from. -/
theorem split_join {payloads : List Payload} (some : payloads ≠ [])
    (parts : ∀ payload ∈ payloads, Part payload) : split (join payloads) = payloads := by
  unfold split
  induction payloads with
  | nil => exact absurd rfl some
  | cons first rest induction =>
      have unmarked := (parts first List.mem_cons_self).2
      cases rest with
      | nil => simp [join, Text.pieces_of_not_mem unmarked]
      | cons second others =>
          have joined : (join (first :: second :: others)).toList =
              first.toList ++ separator :: (join (second :: others)).toList := by
            simp [join]
          rw [joined, Text.pieces_append_cons unmarked, List.map_cons, String.ofList_toList,
            induction (by simp) fun payload member => parts payload (List.mem_cons_of_mem _ member)]

end Batch

/-! ## What is said and confirmed -/

/-- A confirmation is about the room of the command that it confirms. -/
theorem Dispatch.command_of_conclude {command : Command} {outcome : Outcome}
    {confirmation : Confirmation} (concluded : conclude command outcome = .ok (some confirmation)) :
    command = .joinRoom confirmation.room ∨ command = .leaveRoom confirmation.room := by
  unfold conclude at concluded
  split at concluded <;> cases concluded
  · exact .inl rfl
  · exact .inl rfl
  · exact .inr rfl

/-- A confirmation is written as a word and the room. -/
theorem Confirmation.exists_word (confirmation : Confirmation) :
    ∃ word, confirmation.encode.toList = word ++ confirmation.room.toList ∧ word ≠ [] ∧
      Batch.separator ∉ word := by
  cases confirmation with
  | joined room => exact ⟨"join_room_success:".toList, String.toList_append, by decide, by decide⟩
  | joinFailed room =>
      exact ⟨"join_room_failed:".toList, String.toList_append, by decide, by decide⟩
  | left room => exact ⟨"leave_room_success:".toList, String.toList_append, by decide, by decide⟩

/-- What is added to the outbox of a peer is a confirmation of its command. -/
theorem Reader.exists_of_mem_confirmed {command : Command} {outcome : Outcome} {box : Outbox}
    {payload : Payload} (member : payload ∈ confirmed command outcome box) :
    ∃ confirmation, Dispatch.conclude command outcome = .ok (some confirmation) ∧
      payload = confirmation.encode := by
  unfold confirmed at member
  split at member
  · rename_i confirmation concluded
    split at member
    · exact ⟨confirmation, concluded, List.mem_singleton.1 member⟩
    · cases member
  · cases member

namespace Command

open Text

/-- What a canonical command says can share a frame. -/
theorem Canonical.part_of_body {command : Command} (canonical : command.Canonical)
    {payload : Payload} (speaks : command.body? = some payload) : Batch.Part payload := by
  cases command with
  | joinRoom room => cases speaks
  | leaveRoom room => cases speaks
  | roomMessage room body =>
      cases speaks
      exact ⟨canonical.2.1, canonical.2.2.1.2⟩
  | privateMessage recipient body =>
      cases speaks
      exact ⟨canonical.2.1, canonical.2.2.1.2⟩
  | broadcast body =>
      cases speaks
      exact ⟨canonical.1, canonical.2.1.oneLine.2⟩

/-- The confirmation of a canonical command can share a frame. -/
theorem Canonical.part_of_confirmed {command : Command} (canonical : command.Canonical)
    {outcome : Outcome} {box : Outbox} {payload : Payload}
    (member : payload ∈ Reader.confirmed command outcome box) : Batch.Part payload := by
  obtain ⟨confirmation, concluded, rfl⟩ := Reader.exists_of_mem_confirmed member
  have oneLine : Batch.separator ∉ confirmation.room.toList := by
    rcases Dispatch.command_of_conclude concluded with rfl | rfl <;>
      exact canonical.2.oneLine.2
  obtain ⟨word, written, nonempty, unmarked⟩ := confirmation.exists_word
  refine ⟨fun empty => ?_, ?_⟩
  · rw [← String.toList_eq_nil_iff, written, List.append_eq_nil_iff] at empty
    exact nonempty empty.1
  · rw [written, List.mem_append, not_or]
    exact ⟨unmarked, oneLine⟩

/-- Every command that arrives is canonical. -/
theorem canonical_of_arrival {arrival : Arrival} {command : Command}
    (arrived : arrival.command? = some command) : command.Canonical := by
  unfold Arrival.command? at arrived
  split at arrived
  · rename_i text _
    cases read : parse text with
    | error cause =>
        rw [read] at arrived
        cases arrived
    | ok other =>
        rw [read] at arrived
        cases arrived
        exact (parse_eq_ok_iff.1 read).1
  · cases arrived
  · cases arrived

end Command

/-! ## Frames that are sent -/

/-- Only payloads travel as text. -/
theorem Cargo.exists_of_message {cargo? : Option Cargo} {frame : String}
    (text : cargo?.map message = some (.text frame)) :
    ∃ payloads, cargo? = some (.batch payloads) ∧ frame = Batch.join payloads := by
  obtain ⟨cargo, rfl, written⟩ := Option.map_eq_some_iff.1 text
  cases cargo with
  | ping => cases written
  | close => cases written
  | batch payloads =>
      cases written
      exact ⟨payloads, rfl, rfl⟩

/-- A writer without a write has none to end. -/
theorem Writer.written_of_idle {writer : Writer} (idle : writer.cargo? = none) (box : Outbox) :
    writer.written box = (writer, box) := by
  obtain ⟨phase, nextPing, stopping⟩ := writer
  cases phase with
  | writing cargo deadline => cases idle
  | _ => rfl

theorem Writer.failed_of_idle {writer : Writer} (idle : writer.cargo? = none) (box : Outbox) :
    writer.failed box = (writer, box) := by
  obtain ⟨phase, nextPing, stopping⟩ := writer
  cases phase with
  | writing cargo deadline => cases idle
  | _ => rfl

/-- A writer that begins a write with payloads has taken them one by one before, and its
outbox is empty. -/
theorem Writer.gathering_of_turn {writer : Writer} {settings : Settings} {now : Moment}
    {box : Outbox} {payloads : List Payload} (idle : writer.cargo? = none)
    (begins : (writer.turn settings now box).1.cargo? = some (.batch payloads)) :
    writer.phase = .gathering payloads ∧ box.held = [] := by
  have turns := writer.turns_turn settings now box
  generalize (writer.turn settings now box).1 = later at turns begins
  generalize (writer.turn settings now box).2 = laterBox at turns
  cases turns with
  | rest | refuse =>
      rw [idle] at begins
      cases begins
  | write gathers empty =>
      cases begins
      exact ⟨gathers, empty⟩
  | _ => cases begins

/-- Only a message that was not on its way before begins. -/
theorem eq_of_mem_begun {before after : Option Message} {message : Message}
    (begins : message ∈ begun before after) : before = none ∧ after = some message := by
  unfold begun at begins
  split at begins
  · exact ⟨rfl, congrArg some (List.mem_singleton.1 begins).symm⟩
  · cases begins

namespace Session

theorem outgoing?_of_writer {session : Session} {writer : Writer}
    (writing : session.writer? = some writer) :
    session.outgoing? = writer.cargo?.map Cargo.message := by
  rcases exists_of_writer? writing with ⟨_, _, stage⟩ | ⟨_, _, stage⟩ <;>
    simp [outgoing?, writer?, stage]

/-- What a session sends does not depend on its reader. -/
theorem outgoing?_withReader (session : Session) (reader : Reader) :
    (session.withReader reader).outgoing? = session.outgoing? := by
  obtain ⟨admission, stage⟩ := session
  cases stage <;> rfl

/-- A text message that a session begins to send carries what its writer has taken, and its
outbox is empty. -/
theorem Moves.batch_of_begun {server : Server} {session later : Session} {box laterBox : Outbox}
    {request : Option Request} {carried added : List Payload}
    (moves : session.Moves server box later laterBox request carried added) {frame : String}
    (begins : .text frame ∈ begun session.outgoing? later.outgoing?) :
    ∃ writer payloads, session.writer? = some writer ∧ writer.phase = .gathering payloads ∧
      box.held = [] ∧ later.writer?.bind Writer.cargo? = some (.batch payloads) ∧
      frame = Batch.join payloads := by
  obtain ⟨silent, text⟩ := eq_of_mem_begun begins
  have unchanged {message? : Option Message} (same : message? = session.outgoing?)
      (text : message? = some (.text frame)) : False := by
    rw [same, silent] at text
    cases text
  cases moves with
  | enroll waiting answered =>
      unfold enrolled at text
      split at text <;> cases text
  | conclude asking answered => exact (unchanged (outgoing?_withReader _ _) text).elim
  | hear listening alive => exact (unchanged (outgoing?_withReader _ _) text).elim
  | ask listening alive plain stays => exact (unchanged (outgoing?_withReader _ _) text).elim
  | @work writer laterWriter _ _ writing works =>
      have writingLater := writer?_withWriter writing laterWriter
      rw [outgoing?_of_writer writing, Option.map_eq_none_iff] at silent
      rw [outgoing?_of_writer writingLater] at text
      obtain ⟨payloads, carries, rfl⟩ := Cargo.exists_of_message text
      rw [writingLater, Option.bind_some, carries]
      cases works with
      | turn =>
          obtain ⟨gathers, empty⟩ := Writer.gathering_of_turn silent carries
          exact ⟨writer, payloads, writing, gathers, empty, rfl, rfl⟩
      | write =>
          rw [Writer.written_of_idle silent, silent] at carries
          cases carries
      | fail =>
          rw [Writer.failed_of_idle silent, silent] at carries
          cases carries
  | refuse refusing => cases text
  | @leave _ _ writer serving =>
      have writing : session.writer? = some writer := by simp [writer?, serving]
      exact (unchanged (outgoing?_of_writer writing).symm text).elim
  | depart serving ended => cases text
  | departLeaving leaving ended => cases text

end Session

namespace Server

variable {server : Server} {key : OutboxId} {frame : String}

/-- A new session sends no text. -/
theorem sessions_upgrade_cases (server : Server) (admission : Admission) (key : OutboxId) :
    (server.upgrade admission).2.sessions.get? key = server.sessions.get? key ∨
      ∃ session, (server.upgrade admission).2.sessions.get? key = some session ∧
        session.outgoing? ≠ some (.text frame) := by
  cases running : server.broker.running with
  | true =>
      rw [upgrade_of_running running]
      by_cases fresh : key = server.nextOutbox
      · subst fresh
        exact .inr ⟨_, Table.get?_set_self _ _ _, fun text => by cases text⟩
      · exact .inl (Table.get?_set_of_ne _ fresh _)
  | false =>
      rw [upgrade_of_stopped running]
      by_cases fresh : key = server.nextOutbox
      · subst fresh
        exact .inr ⟨_, Table.get?_set_self _ _ _, fun text => by cases text⟩
      · exact .inl (Table.get?_set_of_ne _ fresh _)

/-- Who begins to send a text message has taken payloads until the outbox was empty, and the
message is their batch. -/
theorem batch_of_attempted (threaded : server.Threaded) {step : ServerStep}
    (attempts : .text frame ∈ (server.noted key step).attempted) :
    ∃ session writer payloads, server.sessions.get? key = some session ∧
      session.writer? = some writer ∧ writer.phase = .gathering payloads ∧
      (server.outbox key).held = [] ∧
      (((server.step step).sessions.get? key).bind Session.writer?).bind Writer.cargo? =
        some (.batch payloads) ∧
      frame = Batch.join payloads := by
  have unchanged
      (same : (server.step step).sessions.get? key = server.sessions.get? key) : False := by
    simp only [noted, same, begun_self] at attempts
    cases attempts
  cases concerns : step.session? with
  | some other =>
      rcases idles_or_advances concerns (threaded.boxed other) with
        idles | ⟨session, box, later, laterBox, request, _, _, advances⟩
      · exact (unchanged (by rw [idles.result])).elim
      · by_cases here : key = other
        · subst here
          have presentLater : (server.step step).sessions.get? key = some later := by
            rw [advances.result]
            exact Table.get?_set_self _ _ _
          simp only [noted, advances.present, presentLater, Option.bind_some] at attempts
          obtain ⟨writer, payloads, writing, gathers, empty, carries, joined⟩ :=
            advances.moves.batch_of_begun attempts
          refine ⟨session, writer, payloads, advances.present, writing, gathers, ?_, ?_, joined⟩
          · rw [outbox_of_present advances.found]
            exact empty
          · rw [presentLater]
            exact carries
        · refine (unchanged ?_).elim
          rw [advances.result]
          cases request <;> exact Table.get?_set_of_ne _ here _
  | none =>
      cases step with
      | upgrade admission =>
          rcases @sessions_upgrade_cases frame server admission key with
            same | ⟨session, presentLater, silent⟩
          · exact (unchanged same).elim
          · have text := (eq_of_mem_begun attempts).2
            simp only [step, presentLater, Option.bind_some] at text
            exact absurd text silent
      | submit request => exact (unchanged rfl).elim
      | serve => exact (unchanged rfl).elim
      | tick moment => exact (unchanged rfl).elim
      | _ => cases concerns

end Server

/-! ## What is taken for a message -/

/-- The payloads that have left an outbox. -/
def Outbox.popped (before after : Outbox) : List Payload :=
  before.held.take (before.held.length - after.held.length)

@[simp]
theorem Outbox.popped_self (box : Outbox) : box.popped box = [] := by simp [popped]

theorem Outbox.popped_of_isPrefix {before after : Outbox} (grown : before.held <+: after.held) :
    before.popped after = [] := by
  rw [popped, Nat.sub_eq_zero_of_le grown.length_le, List.take_zero]

theorem Outbox.popped_of_cons {box : Outbox} {first : Payload} {rest : List Payload}
    (held : box.held = first :: rest) : box.popped { box with held := rest } = [first] := by
  simp [popped, held]

/-- A writer has taken some payloads for the message that it writes next; when it has given
up, there is none. -/
def Writer.Collects (writer : Writer) (payloads : List Payload) : Prop :=
  match writer.phase with
  | .waiting | .writing _ _ => payloads = []
  | .gathering taken => payloads = taken ∧ taken ≠ []
  | .draining _ _ | .ended _ => True

/-- A session has taken some payloads for the message that it writes next. -/
def Session.Collects (session : Session) (payloads : List Payload) : Prop :=
  match session.stage with
  | .enrolling _ => payloads = []
  | .serving _ _ writer | .leaving _ _ writer => writer.Collects payloads
  | .refusing _ | .over => True

/-- The payloads that have left an outbox since a message was begun, when some had left it
before. -/
def collectedBy (begun : List Message) (payloads : List Payload) (before after : Outbox) :
    List Payload :=
  if begun = [] then payloads ++ before.popped after else []

@[simp]
theorem collectedBy_nil_self (payloads : List Payload) (box : Outbox) :
    collectedBy [] payloads box box = payloads := by simp [collectedBy]

theorem collectedBy_of_isPrefix {before after : Outbox} (payloads : List Payload)
    (grown : before.held <+: after.held) : collectedBy [] payloads before after = payloads := by
  simp [collectedBy, Outbox.popped_of_isPrefix grown]

namespace Writer

variable {settings : Settings} {now : Moment} {writer later : Writer} {box laterBox : Outbox}
  {payloads : List Payload}

/-- The message that a writer begins. -/
abbrev begun (writer later : Writer) : List Message :=
  Parley.begun (writer.cargo?.map Cargo.message) (later.cargo?.map Cargo.message)

/-- A turn takes one payload at a time until the outbox is empty, and then begins to write. -/
theorem Turns.collects (turns : writer.Turns settings now box later laterBox)
    (collects : writer.Collects payloads) :
    later.Collects (collectedBy (writer.begun later) payloads box laterBox) := by
  cases turns with
  | rest => rwa [begun, begun_self, collectedBy_nil_self]
  | giveUp | drain | finish => trivial
  | refuse drains => simp only [Collects, drains]
  | @take first rest taking held =>
      have taken : payloads = writer.pending := by
        unfold Collects at collects
        rcases taking with phase | ⟨_, phase⟩ <;> simp only [phase] at collects
        · rw [collects, pending, phase]
        · rw [collects.1, pending, phase]
      have silent : writer.cargo? = none := by
        rcases taking with phase | ⟨_, phase⟩ <;> rw [cargo?, phase]
      have nothing :
          writer.begun { writer with phase := .gathering (writer.pending ++ [first]) } = [] := by
        rw [begun, silent]
        rfl
      rw [nothing, taken, collectedBy, if_pos rfl, Outbox.popped_of_cons held]
      exact ⟨rfl, List.append_ne_nil_of_right_ne_nil _ (List.cons_ne_nil _ _)⟩
  | write gathers empty =>
      simp [Collects, Writer.begin, begun, Parley.begun, cargo?, gathers, collectedBy]
  | close waiting released empty =>
      simp [Collects, Writer.begin, begun, Parley.begun, cargo?, waiting, collectedBy]
  | ping waiting due =>
      simp [Collects, Writer.begin, begun, Parley.begun, cargo?, waiting, collectedBy]

theorem Works.collects {carried : List Payload}
    (works : writer.Works settings now box later laterBox carried)
    (collects : writer.Collects payloads) :
    later.Collects (collectedBy (writer.begun later) payloads box laterBox) := by
  cases works with
  | turn => exact (writer.turns_turn settings now box).collects collects
  | write =>
      unfold written
      split
      · trivial
      · rename_i cargo deadline goesOn phase
        simp only [Collects, phase] at collects
        simp [Collects, begun, Parley.begun, cargo?, phase, collectedBy, collects]
      · rwa [begun, begun_self, collectedBy_nil_self]
  | fail =>
      unfold failed
      split
      · trivial
      · trivial
      · rwa [begun, begun_self, collectedBy_nil_self]

end Writer

namespace Session

/-- What a session has taken does not depend on its reader. -/
theorem collects_withReader {session : Session} (reader : Reader) {payloads : List Payload}
    (collects : session.Collects payloads) : (session.withReader reader).Collects payloads := by
  obtain ⟨admission, stage⟩ := session
  cases stage <;> exact collects

/-- No move of a session but a turn of its writer takes anything from its outbox. -/
theorem Moves.collects {server : Server} {session later : Session} {box laterBox : Outbox}
    {request : Option Request} {carried added payloads : List Payload}
    (moves : session.Moves server box later laterBox request carried added)
    (collects : session.Collects payloads) :
    later.Collects
      (collectedBy (begun session.outgoing? later.outgoing?) payloads box laterBox) := by
  cases moves with
  | enroll waiting answered =>
      have nothing : payloads = [] := by simpa only [Collects, waiting] using collects
      have silent : session.outgoing? = none := by simp [outgoing?, writer?, waiting]
      subst nothing
      rw [silent]
      unfold enrolled
      split
      · simp [Collects, outgoing?, writer?, Writer.start, Writer.cargo?, Parley.begun,
          Writer.Collects]
      · trivial
  | conclude asking answered =>
      rw [outgoing?_withReader, begun_self, Reader.snd_conclude_eq,
        collectedBy_of_isPrefix payloads (List.prefix_append _ _)]
      exact collects_withReader _ collects
  | hear | ask =>
      rw [outgoing?_withReader, begun_self, collectedBy_nil_self]
      exact collects_withReader _ collects
  | @work writer laterWriter _ _ writing works =>
      have writingLater := writer?_withWriter writing laterWriter
      rw [outgoing?_of_writer writing, outgoing?_of_writer writingLater]
      rcases exists_of_writer? writing with ⟨_, _, stage⟩ | ⟨_, _, stage⟩ <;>
        simp only [Collects, stage] at collects <;>
        simpa only [Collects, withWriter, stage] using works.collects collects
  | refuse | depart | departLeaving => trivial
  | @leave generation outcome writer serving =>
      have same : begun session.outgoing?
          (outgoing? { session with stage := .leaving generation outcome writer.stop }) = [] := by
        have writing : session.writer? = some writer := by simp [writer?, serving]
        rw [outgoing?_of_writer writing]
        exact begun_self _
      rw [same, collectedBy_nil_self]
      simp only [Collects, serving] at collects
      exact collects

end Session

namespace Server

/-- The payloads that have left the outbox of a session along a run since it last began a
message, when some had left it before. -/
def collected (server : Server) (key : OutboxId) (payloads : List Payload) :
    List ServerStep → List Payload
  | [] => payloads
  | step :: rest =>
      (server.step step).collected key
        (collectedBy (server.noted key step).attempted payloads (server.outbox key)
          ((server.step step).outbox key)) rest

/-- What has left the outbox of a session, if there is one yet, is what the session has
taken for the message that it writes next. -/
def Collects (server : Server) (key : OutboxId) (payloads : List Payload) : Prop :=
  match server.sessions.get? key with
  | none => payloads = [] ∧ server.nextOutbox ≤ key
  | some session => session.Collects payloads

variable {server : Server} {key : OutboxId} {payloads : List Payload}

/-- As long as there is no session there is no outbox either. -/
theorem Collects.step_of_none (threaded : server.Threaded) {step : ServerStep}
    (absent : server.sessions.get? key = none) (unborn : server.nextOutbox ≤ key) :
    (server.step step).Collects key
      (collectedBy (server.noted key step).attempted [] (server.outbox key)
        ((server.step step).outbox key)) := by
  have empty : (server.outbox key).held = [] := by
    cases found : server.broker.hub.outboxes.get? key with
    | none => simp [outbox, found]
    | some box => exact absurd (threaded.below key box found) (Nat.not_lt_of_le unborn)
  have nothing : collectedBy (server.noted key step).attempted [] (server.outbox key)
      ((server.step step).outbox key) = [] := by
    simp [collectedBy, Outbox.popped, empty]
  rw [nothing]
  have unchanged {later : Server} (sessions : later.sessions = server.sessions)
      (next : later.nextOutbox = server.nextOutbox) : later.Collects key [] := by
    simp [Collects, sessions, absent, next, unborn]
  apply step_keeps (fun later => later.Collects key []) threaded step
  case idle => exact fun _ => unchanged rfl rfl
  case progress =>
    intro other session box later laterBox request _ _ _ advances
    have different : key ≠ other := by
      rintro rfl
      have present := advances.present
      rw [absent] at present
      cases present
    have there : (server.progress other later laterBox request).sessions.get? key = none := by
      rw [sessions_progress, Table.get?_set_of_ne _ different, absent]
    have next : (server.progress other later laterBox request).nextOutbox = server.nextOutbox := by
      cases request <;> rfl
    simp [Collects, there, next, unborn]
  case upgrade =>
    intro admission _
    have next : (server.upgrade admission).2.nextOutbox = server.nextOutbox + 1 := rfl
    by_cases fresh : key = server.nextOutbox
    · subst fresh
      cases running : server.broker.running with
      | true =>
          rw [upgrade_of_running running]
          simp [Collects, Session.Collects]
      | false =>
          have refused (settings : Settings) (now : Moment) :
              Session.enrolled settings now (.error .stopped) =
                .refusing { code := Session.tryAgainLater, text := AdmissionError.message _ } := rfl
          rw [upgrade_of_stopped running]
          simp [Collects, Session.Collects, refused]
    · have later : server.nextOutbox + 1 ≤ key := Nat.lt_of_le_of_ne unborn (Ne.symm fresh)
      simpa [Collects, get?_sessions_upgrade_of_ne server admission fresh, absent, next] using later
  case submit => exact fun request _ => unchanged rfl rfl
  case tick => exact fun moment _ => unchanged rfl rfl
  case served => exact fun letter rest _ _ _ => unchanged rfl rfl
  case halted => exact fun letter rest _ _ _ _ _ => unchanged rfl rfl

/-- What others do takes nothing from an outbox, and what its session does is taken for its
next message. -/
theorem Collects.step (threaded : server.Threaded) {step : ServerStep}
    (plain : ∀ request, step = .submit request → request.outbox? = none)
    (collects : server.Collects key payloads) :
    (server.step step).Collects key
      (collectedBy (server.noted key step).attempted payloads (server.outbox key)
        ((server.step step).outbox key)) := by
  cases present : server.sessions.get? key with
  | none =>
      simp only [Collects, present] at collects
      obtain ⟨rfl, unborn⟩ := collects
      exact .step_of_none threaded present unborn
  | some session =>
      simp only [Collects, present] at collects
      obtain ⟨box, found⟩ := threaded.boxed key session present
      by_cases concerns : step.session? = some key
      · rcases idles_or_advances concerns (threaded.boxed key) with
          idles | ⟨_, _, later, laterBox, request, _, _, advances⟩
        · have nothing : (server.noted key step).attempted = [] := by
            simp [noted, idles.result, begun_self]
          rw [nothing, idles.result, collectedBy_nil_self]
          simpa only [Collects, present] using collects
        · obtain rfl := Option.some.inj (present.symm.trans advances.present)
          obtain rfl := Option.some.inj (found.symm.trans advances.found)
          have presentLater : (server.step step).sessions.get? key = some later := by
            rw [advances.result]
            exact Table.get?_set_self _ _ _
          have foundLater : (server.step step).broker.hub.outboxes.get? key = some laterBox := by
            rw [advances.result, hub_progress key advances.moves]
            exact Table.get?_set_self _ _ _
          simp only [Collects, noted, present, presentLater, outbox_of_present found,
            outbox_of_present foundLater, Option.bind_some]
          exact advances.moves.collects collects
      · obtain ⟨laterBox, stands⟩ := standsBy_step present found threaded plain concerns
        simp only [Collects, noted, present, stands.present, outbox_of_present found,
          outbox_of_present stands.found, Option.bind_some, begun_self]
        rwa [collectedBy_of_isPrefix payloads stands.fed.held]

theorem Collects.run {steps : List ServerStep} (threaded : server.Threaded)
    (plain : ∀ request, .submit request ∈ steps → request.outbox? = none)
    (collects : server.Collects key payloads) :
    (server.run steps).Collects key (server.collected key payloads steps) := by
  induction steps generalizing server payloads with
  | nil => exact collects
  | cons first rest induction =>
      have plainFirst (request : Request) (same : first = .submit request) :
          request.outbox? = none := plain request (same ▸ List.mem_cons_self)
      exact induction (threaded.step plainFirst)
        (fun request member => plain request (List.mem_cons_of_mem _ member))
        (collects.step threaded plainFirst)

/-! ## Runs -/

/-- Whatever arrives and is confirmed can share a frame. -/
theorem takesIn_parts (server : Server) {step : ServerStep}
    (plain : ∀ request, step = .submit request →
      request.outbox? = none ∧ ∀ id, request.brings id = []) :
    server.TakesIn (fun _ payload => Batch.Part payload) (fun _ command => command.Canonical)
      step where
  sent request same := by
    obtain ⟨noOutbox, nothing⟩ := plain request same
    refine ⟨noOutbox, fun id payload member => ?_⟩
    rw [nothing id] at member
    cases member
  asked _ _ _ _ _ _ arrived := Command.canonical_of_arrival arrived
  said _ _ _ _ arrived _ speaks _ := (Command.canonical_of_arrival arrived).part_of_body speaks
  confirmed _ _ _ _ canonical _ member _ := canonical.part_of_confirmed member

/-- When only peers speak, all that waits in a server can share a frame. -/
theorem stocked_parts (settings : Settings) (startedAt : Stamp) {steps : List ServerStep}
    (peers : OnlyPeersSpeak steps) :
    ((Server.new settings startedAt).run steps).Stocked (fun _ payload => Batch.Part payload)
      fun _ command => command.Canonical := by
  refine (Stocked.new settings startedAt).run (.new settings startedAt) ?_
  rintro before next after rfl
  refine takesIn_parts _ fun request same => peers request ?_
  rw [same]
  exact List.mem_append_right _ List.mem_cons_self

/-- A text message splits back into what the writer had taken for it, which is all that
left the outbox since the message before. -/
theorem split_of_attempted (settings : Settings) (startedAt : Stamp) {steps : List ServerStep}
    (peers : OnlyPeersSpeak steps) {key : OutboxId} {frame : String} {next : ServerStep}
    (attempts :
      .text frame ∈ (((Server.new settings startedAt).run steps).noted key next).attempted) :
    let start := Server.new settings startedAt
    let server := start.run steps
    Batch.split frame = start.collected key [] steps ∧
      (∃ session writer, server.sessions.get? key = some session ∧
        session.writer? = some writer ∧ writer.phase = .gathering (Batch.split frame)) ∧
      (((server.step next).sessions.get? key).bind Session.writer?).bind Writer.cargo? =
        some (.batch (Batch.split frame)) ∧
      (server.outbox key).held = [] := by
  intro start server
  have plain (request : Request) (member : .submit request ∈ steps) : request.outbox? = none :=
    (peers request member).1
  have threaded : server.Threaded := (Threaded.new settings startedAt).run plain
  obtain ⟨session, writer, payloads, present, writing, gathers, empty, carries, joined⟩ :=
    batch_of_attempted threaded attempts
  have collects : server.Collects key (start.collected key [] steps) :=
    Collects.run (.new settings startedAt) plain ⟨rfl, Nat.zero_le key⟩
  have taken : writer.Collects (start.collected key [] steps) := by
    simp only [Collects, present] at collects
    rcases Session.exists_of_writer? writing with ⟨_, _, stage⟩ | ⟨_, _, stage⟩ <;>
      simpa only [Session.Collects, stage] using collects
  simp only [Writer.Collects, gathers] at taken
  have splits : Batch.split frame = payloads := by
    rw [joined]
    refine Batch.split_join taken.2 fun payload member => ?_
    exact (stocked_parts settings startedAt peers).writers key session writer present writing
      payload (by simpa [Writer.pending, gathers] using member)
  rw [splits]
  exact ⟨taken.1.symm, ⟨session, writer, present, writing, gathers⟩, carries, empty⟩

/-- When all requests come from the frames of peers and the ends of their transports,
no payload that waits anywhere is empty or holds the mark between payloads: neither in
the outbox of a transport, nor in a backlog, nor in a request, nor with a writer.  So
every text message that is sent splits back into exactly the payloads that were taken
for it, in order: those that have left the outbox since the transport began its last
message.  It is begun when the outbox is empty. -/
theorem batches_split_back (settings : Settings) (startedAt : Stamp) (steps : List ServerStep)
    (peers : OnlyPeersSpeak steps) :
    let start := Server.new settings startedAt
    let server := start.run steps
    (∀ key box, server.broker.hub.outboxes.get? key = some box →
        ∀ payload ∈ box.held, Batch.Part payload) ∧
      (∀ id connection, server.broker.hub.connections.get? id = some connection →
        ∀ payload ∈ connection.backlog.held, Batch.Part payload) ∧
      (∀ letter ∈ server.broker.mailbox, ∀ id, ∀ payload ∈ letter.request.brings id,
        Batch.Part payload) ∧
      (∀ key session writer, server.sessions.get? key = some session →
        session.writer? = some writer → ∀ payload ∈ writer.pending, Batch.Part payload) ∧
      ∀ next key frame, .text frame ∈ (server.noted key next).attempted →
        Batch.split frame = start.collected key [] steps ∧
          (((server.step next).sessions.get? key).bind Session.writer?).bind Writer.cargo? =
            some (.batch (Batch.split frame)) ∧
          (server.outbox key).held = [] := by
  intro start server
  have stocked := stocked_parts settings startedAt peers
  refine ⟨fun key box found => ?_, fun id connection present =>
    (stocked.hub.entries id connection present).backlog, stocked.letters, stocked.writers,
    fun next key frame attempts => ?_⟩
  · obtain ⟨_, _, held⟩ := stocked.hub.outboxes key box found
    exact held
  · obtain ⟨splits, _, carries, empty⟩ := split_of_attempted settings startedAt peers attempts
    exact ⟨splits, carries, empty⟩

/-- What Alice says to all in two lines and the confirmation of Bob's own command, which comes
when his writer has already taken the first, share a frame of his, and come apart again in
the order in which they were taken. -/
theorem batches_split_back_in_order :
    let bob : ConnectionId := ⟨"bob", by decide⟩
    let alice : ConnectionId := ⟨"alice", by decide⟩
    let steps : List ServerStep := [.upgrade ⟨bob, .default⟩, .upgrade ⟨alice, .default⟩, .serve,
      .serve, .answer 0, .answer 1, .arrive 1 (.message (.text "one\ntwo\n")), .serve, .answer 1,
      .turn 0, .arrive 0 (.message (.text "join_room: lobby")), .serve, .answer 0, .turn 0]
    let server := (Server.new {} 0).run steps
    let frame := "one two\njoin_room_success:lobby"
    OnlyPeersSpeak steps ∧ .text frame ∈ (server.noted 0 (.turn 0)).attempted ∧
      Batch.split frame = ["one two", "join_room_success:lobby"] := by
  intro bob alice steps server frame
  have peers : OnlyPeersSpeak steps := by simp [OnlyPeersSpeak, steps]
  have sends : .text frame ∈ (server.noted 0 (.turn 0)).attempted := by decide +kernel
  have taken : (Server.new {} 0).collected 0 [] steps = ["one two", "join_room_success:lobby"] := by
    decide +kernel
  obtain ⟨_, _, _, _, splits⟩ := batches_split_back {} 0 steps peers
  exact ⟨peers, sends, (splits _ _ _ sends).1.trans taken⟩

end Server
end Parley
