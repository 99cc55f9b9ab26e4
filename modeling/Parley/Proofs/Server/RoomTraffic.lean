import Parley.Proofs.Server.Concert
import Parley.Proofs.Server.SoleTransport

/-!
# The traffic of rooms that a connection has left

Along every run the journal of a connection is sound: once its transport confirms a leave,
nothing comes through the room until the hub serves a later join, and a join is confirmed
after the hub has made it.
-/

namespace Parley
namespace Server

variable {server : Server} {id : ConnectionId} {key other : OutboxId}
  {journal : List JournalEntry}

/-! ## Owners -/

/-- An outbox keeps its owner. -/
theorem owner_step (threaded : server.Threaded) {peer : ConnectionId}
    (owned : server.owner other = some peer) (step : ServerStep) :
    (server.step step).owner other = some peer := by
  apply step_keeps (fun later => later.owner other = some peer) threaded step
  case idle => exact fun _ => owned
  case progress =>
    intro key session box later laterBox request carried added _ advances
    have same : (server.progress key later laterBox request).owner = server.owner := by
      cases request with
      | none => exact owner_setSession advances.present advances.moves.admission_eq
      | some sent => exact owner_setSession advances.present advances.moves.admission_eq
    rw [same]
    exact owned
  case upgrade =>
    intro admission _
    obtain ⟨session, present, _⟩ := Option.map_eq_some_iff.1 owned
    obtain ⟨box, found⟩ := threaded.boxed other session present
    have kept := server.get?_sessions_upgrade_of_ne admission (threaded.ne_nextOutbox found)
    rw [owner, kept]
    exact owned
  case submit => exact fun _ _ => owned
  case tick => exact fun _ _ => owned
  case served => exact fun _ _ _ _ _ => owned
  case halted => exact fun _ _ _ _ _ _ _ => owned

/-- Every step keeps the tables of the hub consistent. -/
theorem consistent_step (threaded : server.Threaded)
    (consistent : server.broker.hub.Consistent) {step : ServerStep}
    (plain : ∀ request, step = .submit request → request.outbox? = none) :
    (server.step step).broker.hub.Consistent := by
  apply step_keeps (fun later => later.broker.hub.Consistent) threaded step
  case idle => exact fun _ => consistent
  case progress =>
    intro key session box later laterBox request carried added _ advances
    rw [hub_progress key advances.moves]
    exact consistent.congr rfl rfl rfl
  case upgrade =>
    intro admission _
    cases running : server.broker.running with
    | true =>
        rw [upgrade_of_running running]
        exact consistent.congr rfl rfl rfl
    | false =>
        rw [upgrade_of_stopped running]
        exact consistent.congr rfl rfl rfl
  case submit =>
    intro request same
    rw [hub_submit server (plain request same)]
    exact consistent
  case tick =>
    intro moment _
    exact @tick_keeps (fun later => later.broker.hub.Consistent) server moment
      (fun _ _ => consistent.congr rfl rfl rfl)
      fun later _ _ kept => by rwa [hub_submit later rfl]
  case served => exact fun letter rest _ _ _ => consistent.serve letter.request
  case halted =>
    intro letter rest _ _ _ _ kept
    have turned := (server.served letter rest).broker.turnsAway_stop
    exact kept.closeAll.congr turned.settings turned.connections turned.roster

/-! ## Steps -/

/-- What holds of every server in which nobody but a session registers. -/
structure Regular (server : Server) : Prop where
  threaded : server.Threaded
  consistent : server.broker.hub.Consistent
  owned : server.Stocked (fun _ _ => True) (fun _ _ => True)

theorem Regular.new (settings : Settings) (startedAt : Stamp) :
    (Server.new settings startedAt).Regular where
  threaded := .new settings startedAt
  consistent := .new settings startedAt
  owned := .new settings startedAt

theorem Regular.step (regular : server.Regular) {step : ServerStep}
    (plain : ∀ request, step = .submit request → request.outbox? = none) :
    (server.step step).Regular where
  threaded := regular.threaded.step plain
  consistent := consistent_step regular.threaded regular.consistent plain
  owned := regular.owned.step regular.threaded
    ⟨fun request same => ⟨plain request same, fun _ _ _ => trivial⟩,
      fun _ _ _ _ _ _ _ => trivial, fun _ _ _ _ _ _ _ _ => trivial,
      fun _ _ _ _ _ _ _ _ => trivial⟩

/-- An outbox is attached to no other connection than that of its session. -/
theorem Regular.eq_of_live (regular : server.Regular)
    (lone : server.OnlyOutbox id key)
    (peer : ConnectionId) (connection : Connection)
    (present : server.broker.hub.connections.get? peer = some connection)
    (link : connection.link = .live key) : peer = id :=
  (lone key peer ((regular.owned.hub.entries peer connection present).own key link)).2 rfl

/-- The hub lets the connection into a room. -/
theorem Concerted.noteJoined (concerted : server.Concerted id key journal) (ticket : Ticket)
    (room : RoomName) : server.Concerted id key (journal ++ [.joined ticket room]) ∧
      ¬Parted room (journal ++ [.joined ticket room]) := by
  have silent (place : RoomName) : ¬Parted place [.joined ticket room] := by
    intro parted
    obtain ⟨_, _, member⟩ := parted.exists_confirmation
    cases List.mem_singleton.1 member
  refine ⟨concerted.note (fun place parted => absurd parted (silent place))
    fun before entry after split => ?_, fun parted => ?_⟩
  · have member : entry ∈ [JournalEntry.joined ticket room] := by
      rw [split]
      exact List.mem_append_right _ List.mem_cons_self
    rw [List.mem_singleton.1 member]
    trivial
  · rcases parted.of_append with ⟨_, absent⟩ | now
    · exact absent ticket (List.mem_singleton_self _)
    · exact silent room now

/-- An outbox that stays as it is accepts nothing. -/
theorem accepted_of_same {step : ServerStep}
    (same : (server.step step).broker.hub.outboxes.get? key =
      server.broker.hub.outboxes.get? key) : (server.noted key step).accepted = [] := by
  have unchanged : (server.step step).outbox key = server.outbox key := by
    rw [outbox, same]
    rfl
  rw [noted, unchanged, List.drop_length]

/-- What the hub fans out through a room reaches the outbox of a member only. -/
theorem accepted_of_sendToRoom (own : ∀ peer connection,
      server.broker.hub.connections.get? peer = some connection → connection.link = .live key →
        peer = id)
    {ticket : Ticket} {room : RoomName} {payload : Payload} {sender : Option ConnectionId}
    {rest : List Letter}
    (result : server.step .serve = server.served ⟨ticket, .sendToRoom room payload sender⟩ rest)
    (absent : id ∉ server.broker.hub.roster.members room) :
    (server.noted key .serve).accepted = [] := by
  refine accepted_of_same ?_
  rw [result]
  exact Hub.get?_deliverToAll_of_spared own payload fun member =>
    absent (List.mem_filter.1 member).1

/-- Nobody gets anything when the hub lets somebody into a room. -/
theorem accepted_of_joinRoom {ticket : Ticket} {peer : ConnectionId} {room : RoomName}
    {rest : List Letter}
    (result : server.step .serve = server.served ⟨ticket, .joinRoom peer room⟩ rest) :
    (server.noted key .serve).accepted = [] := by
  refine accepted_of_same ?_
  rw [result]
  simp only [served, Hub.serve]
  rcases server.broker.hub.joinRoom_cases peer room with
    ⟨_, result⟩ | ⟨_, _, _, _, result⟩ <;> rw [result]

/-- The letter that is served next leaves its trace in the journal. -/
theorem Concerted.noteServe (concerted : server.Concerted id key journal)
    (own : ∀ peer connection, server.broker.hub.connections.get? peer = some connection →
      connection.link = .live key → peer = id)
    {letter : Letter} {rest : List Letter} (running : server.broker.running = true)
    (letters : server.broker.mailbox = letter :: rest)
    (result : letter.request ≠ .shutdown → server.serveNext = server.served letter rest) :
    server.Concerted id key (journal ++ server.journalBy id key .serve) ∧
      ∀ room answer, letter.request = .joinRoom id room →
        (server.broker.hub.serve letter.request).1 = .ok answer →
          ¬Parted room (journal ++ server.journalBy id key .serve) ∧
            .joined letter.ticket room ∈ journal ++ server.journalBy id key .serve := by
  have oldest : server.oldest? = some letter := by simp [oldest?, running, letters]
  obtain ⟨ticket, request⟩ := letter
  cases request with
  | sendToRoom room payload sender =>
      refine ⟨?_, fun _ _ joins => by cases joins⟩
      simp only [journalBy, joinedBy, sourceBy, oldest, List.nil_append]
      refine concerted.noteFanOut fun reached => Classical.byContradiction fun absent => reached ?_
      exact accepted_of_sendToRoom own (result (by simp)) absent
  | joinRoom peer room =>
      rw [journalBy, accepted_of_joinRoom (result (by simp)), List.map_nil, List.append_nil]
      simp only [joinedBy, oldest, Hub.serve]
      split
      · split
        · rename_i here
          subst here
          obtain ⟨noted, unparted⟩ := concerted.noteJoined ticket room
          refine ⟨noted, fun place answer same _ => ?_⟩
          cases same
          exact ⟨unparted, List.mem_append_right _ (List.mem_singleton_self _)⟩
        · rename_i elsewhere
          rw [List.append_nil]
          refine ⟨concerted, fun place answer same _ => ?_⟩
          cases same
          exact absurd rfl elsewhere
      · rename_i refused
        rw [List.append_nil]
        refine ⟨concerted, fun place answer same answered => ?_⟩
        cases same
        rw [refused] at answered
        cases answered
  | sendToName name payload =>
      refine ⟨?_, fun _ _ joins => by cases joins⟩
      simp only [journalBy, joinedBy, sourceBy, oldest, List.nil_append]
      exact concerted.notePlain (.inl rfl) _
  | broadcast payload =>
      refine ⟨?_, fun _ _ joins => by cases joins⟩
      simp only [journalBy, joinedBy, sourceBy, oldest, List.nil_append]
      exact concerted.notePlain (.inl rfl) _
  | _ =>
      refine ⟨?_, fun _ _ joins => by cases joins⟩
      simp only [journalBy, joinedBy, sourceBy, oldest, List.nil_append]
      exact concerted.notePlain (.inr rfl) _

/-- The broker serves its oldest letter. -/
theorem Concerted.serve (concerted : server.Concerted id key journal)
    (numbered : server.broker.Numbered) (consistent : server.broker.hub.Consistent)
    (own : ∀ peer connection, server.broker.hub.connections.get? peer = some connection →
      connection.link = .live key → peer = id) :
    server.serveNext.Concerted id key (journal ++ server.journalBy id key .serve) := by
  rcases serveNext_cases numbered with ⟨letters, same⟩ | ⟨letter, rest, running, letters, result⟩
  · have nothing : server.oldest? = none := by simp [oldest?, letters]
    rw [same]
    simp only [journalBy, joinedBy, sourceBy, nothing, List.nil_append]
    exact concerted.notePlain (.inr rfl) _
  · obtain ⟨noted, joins⟩ := concerted.noteServe own running letters fun goesOn => by
      rw [result, if_neg goesOn]
    have served := noted.served numbered consistent letters joins
    rw [result]
    split
    · exact served.halted (consistent.serve letter.request)
    · exact served

/-- Every step keeps the reader and the hub in concert, as long as nobody else changes the
rooms of the connection. -/
theorem Concerted.step (concerted : server.Concerted id key journal) (threaded : server.Threaded)
    (consistent : server.broker.hub.Consistent)
    (own : ∀ peer connection, server.broker.hub.connections.get? peer = some connection →
      connection.link = .live key → peer = id)
    (lone : server.OnlyOutbox id key)
    {step : ServerStep} (alone : ∀ request, step = .submit request →
      request.outbox? = none ∧ ¬request.ChangesRoomsOf id) :
    (server.step step).Concerted id key (journal ++ server.journalBy id key step) := by
  have numbered := threaded.numbered
  have noted (plain : server.sourceBy key step = .other)
      (nobody : server.joinedBy id step = []) :
      server.Concerted id key (journal ++ server.journalBy id key step) := by
    rw [journalBy, nobody, plain, List.nil_append]
    exact concerted.notePlain (.inr rfl) _
  cases step with
  | serve => exact concerted.serve numbered consistent own
  | answer other => exact (concerted.noteAnswer numbered other).answer numbered other
  | upgrade admission => exact (noted rfl rfl).upgrade threaded admission
  | submit request =>
      obtain ⟨plain, calm⟩ := alone request rfl
      exact (noted rfl rfl).submit numbered plain fun _ => calm
  | arrive other arrival => exact (noted rfl rfl).arrive numbered lone other arrival
  | fallSilent other => exact (noted rfl rfl).fallSilent other
  | turn other =>
      simp only [Server.step, Server.turn]
      exact (noted rfl rfl).changeWriter other _
  | written other => exact ((noted rfl rfl).changeWriter other _).endRefusal other
  | unwritten other => exact ((noted rfl rfl).changeWriter other _).endRefusal other
  | giveUpWrite other =>
      simp only [Server.step, Server.giveUpWrite]
      exact (noted rfl rfl).changeWriter other _
  | joinReader other => exact (noted rfl rfl).joinReader other
  | joinWriter other => exact (noted rfl rfl).joinWriter numbered other
  | tick moment => exact (noted rfl rfl).tick threaded moment

/-! ## Runs -/

theorem owner_run {steps : List ServerStep} (regular : server.Regular)
    (plain : ∀ request, .submit request ∈ steps → request.outbox? = none) {peer : ConnectionId}
    (owned : server.owner other = some peer) : (server.run steps).owner other = some peer :=
  (@run_keeps (fun later => later.Regular ∧ later.owner other = some peer) steps
    (fun _ next member kept => ⟨kept.1.step fun request same => plain request (same ▸ member),
      owner_step kept.1.threaded kept.2 next⟩) server ⟨regular, owned⟩).2

/-- The payload of a confirmation is its text. -/
theorem accepted_of_confirmation {ticket : Ticket} {confirmation : Confirmation}
    (told : server.confirmation? key = some (ticket, confirmation)) :
    ∀ payload ∈ (server.noted key (.answer key)).accepted, payload = confirmation.encode := by
  unfold confirmation? at told
  split at told
  · rename_i command waits asks
    split at told
    · rename_i concludes found
      cases told
      obtain ⟨outcome, given, concluded⟩ := Option.map_eq_some_iff.1 found
      obtain ⟨session, present, reading⟩ := Option.map_eq_some_iff.1 asks
      have accepted : (server.noted key (.answer key)).accepted =
          Reader.confirmed command outcome (server.outbox key) := by
        unfold Session.stance at reading
        split at reading <;> cases reading
        rename_i generation writer stage
        have result : (server.answer key).outbox key =
            (Reader.conclude server.settings server.now command outcome (server.outbox key)).2 := by
          refine outbox_of_present ?_
          simp only [answer, present, stage, given]
          exact Table.get?_set_self _ _ _
        simp only [noted, Server.step, result, Reader.snd_conclude_eq, List.drop_left]
      intro payload member
      rw [accepted, Reader.confirmed, concluded] at member
      dsimp only at member
      split at member
      · exact List.mem_singleton.1 member
      · cases member
    · cases told
  · cases told

/-- What is accepted as a confirmation has the text of the confirmation. -/
theorem eq_encode_of_mem_journal {steps : List ServerStep} {ticket : Ticket}
    {confirmation : Confirmation} {payload : Payload}
    (member : .accepted (.confirmation ticket confirmation) payload ∈
      server.journal id key steps) : payload = confirmation.encode := by
  induction steps generalizing server with
  | nil => cases member
  | cons step rest induction =>
      rw [Server.journal, List.mem_append] at member
      rcases member with now | later
      · obtain ⟨source, accepted⟩ := mem_journalBy_iff.1 now
        obtain ⟨rfl, told⟩ := sourceBy_eq_confirmation source.symm
        exact accepted_of_confirmation told payload accepted
      · exact induction later

section

variable {steps : List ServerStep}
  (single : (server.run steps).OnlyOutbox id key)

include single

/-- Whose outbox is whose does not change along a run. -/
theorem onlyOutbox_of_run (regular : server.Regular)
    (plain : ∀ request, .submit request ∈ steps → request.outbox? = none) :
    server.OnlyOutbox id key := fun other peer owned =>
  single other peer (owner_run regular plain owned)

/-- Along every run the journal of a connection is sound, when nobody else changes its rooms. -/
theorem Concerted.run (concerted : server.Concerted id key journal) (regular : server.Regular)
    (alone : ∀ request, .submit request ∈ steps →
      request.outbox? = none ∧ ¬request.ChangesRoomsOf id) :
    (server.run steps).Concerted id key (journal ++ server.journal id key steps) := by
  induction steps generalizing server journal with
  | nil =>
      rw [Server.journal, List.append_nil]
      exact concerted
  | cons step rest induction =>
      have lone := onlyOutbox_of_run single regular fun request member => (alone request member).1
      have now (request : Request) (same : step = .submit request) :
          request.outbox? = none ∧ ¬request.ChangesRoomsOf id :=
        alone request (by rw [same]; exact List.mem_cons_self)
      rw [Server.journal, ← List.append_assoc]
      refine induction single ?_ (regular.step fun request same => (now request same).1)
        fun request member => alone request (List.mem_cons_of_mem _ member)
      exact concerted.step regular.threaded regular.consistent (regular.eq_of_live lone) lone now

/-- Along every run an only transport accepts nothing from elsewhere, when nobody else tells
its end. -/
theorem SoleTransport.other_not_mem_journal (sole : server.SoleTransport id key)
    (recorded : server.Recorded key) (regular : server.Regular)
    (apart : ∀ request, .submit request ∈ steps →
      request.outbox? = none ∧ request.departs id = false) (payload : Payload) :
    .accepted .other payload ∉ server.journal id key steps := by
  induction steps generalizing server with
  | nil => exact List.not_mem_nil
  | cons step rest induction =>
      have lone := onlyOutbox_of_run single regular fun request member => (apart request member).1
      have now (request : Request) (same : step = .submit request) :
          request.outbox? = none ∧ request.departs id = false :=
        apart request (by rw [same]; exact List.mem_cons_self)
      have plain (request : Request) (same : step = .submit request) : request.outbox? = none :=
        (now request same).1
      rw [Server.journal, List.mem_append, not_or]
      constructor
      · rw [mem_journalBy_iff]
        rintro ⟨source, member⟩
        rw [sole.accepted_of_other lone regular.threaded (regular.eq_of_live lone) plain
          source.symm] at member
        cases member
      · exact induction single (sole.step lone regular.threaded recorded now)
          (recorded.step regular.threaded plain) (regular.step plain)
          fun request member => apart request (List.mem_cons_of_mem _ member)

end

/-- A confirmed leave ends the traffic of a room.  In every run in which a connection has one
transport and nobody but its reader changes its rooms, whatever the other peers do meanwhile,
the journal of the connection tells of all that its outbox accepts, in order, and (1) between
the confirmation of a leave and a payload that the hub fans out through the room the hub lets
the connection in again, (2) a join is confirmed after the hub has carried out the very
request of the reader, (3) a confirmation says what it confirms, and (4) unless somebody else
tells the end of the transport, every payload is fanned out through a room, is another
message or is a confirmation. -/
theorem leave_confirmation_ends_room_traffic (settings : Settings) (startedAt : Stamp)
    (steps : List ServerStep) (id : ConnectionId) (key : OutboxId)
    (single : ((Server.new settings startedAt).run steps).OnlyOutbox id key)
    (alone : ∀ request, .submit request ∈ steps →
      request.outbox? = none ∧ ¬request.ChangesRoomsOf id) :
    let start := Server.new settings startedAt
    let journal := start.journal id key steps
    journal.filterMap JournalEntry.payload? = (start.chronicle key steps).accepted ∧
      (∀ before ticket room told between fannedOut after,
        journal = before ++ .accepted (.confirmation ticket (.left room.text)) told ::
            (between ++ .accepted (.fanOut room) fannedOut :: after) →
          ∃ later, .joined later room ∈ between) ∧
      (∀ before ticket text told after,
        journal = before ++ .accepted (.confirmation ticket (.joined text)) told :: after →
          ∃ room : RoomName, room.text = text ∧ .joined ticket room ∈ before) ∧
      (∀ ticket confirmation payload,
        .accepted (.confirmation ticket confirmation) payload ∈ journal →
          payload = confirmation.encode) ∧
      ((∀ request, .submit request ∈ steps → request.departs id = false) →
        ∀ payload, .accepted .other payload ∉ journal) := by
  intro start journal
  have regular : start.Regular := .new settings startedAt
  have concerted : (start.run steps).Concerted id key ([] ++ journal) :=
    Concerted.run single (.new settings startedAt) regular alone
  have sound : Sound journal := concerted.sound
  refine ⟨payloads_journal start id key steps, ?_, fun before ticket text told after split => ?_,
    fun ticket confirmation payload => eq_encode_of_mem_journal, fun stays payload => ?_⟩
  · intro before ticket room told between fannedOut after split
    have unparted : ¬Parted room
        (before ++ .accepted (.confirmation ticket (.left room.text)) told :: between) :=
      sound _ (.accepted (.fanOut room) fannedOut) after (by simpa using split)
    exact Classical.byContradiction fun absent =>
      unparted ⟨before, ticket, told, between, rfl, fun later member => absent ⟨later, member⟩⟩
  · exact sound before _ after split
  · exact SoleTransport.other_not_mem_journal single (.new settings startedAt)
      (.new settings startedAt) regular
      (fun request member => ⟨(alone request member).1, stays request member⟩) payload

/-- Carol leaves the lobby and joins it again.  Of what Bob says there she gets what the hub
serves before she has left and after she is back. -/
theorem lobby_is_silent_between_leave_and_join :
    let bob : ConnectionId := ⟨"bob", by decide⟩
    let carol : ConnectionId := ⟨"carol", by decide⟩
    let lobby : RoomName := ⟨"lobby", by decide⟩
    let types (key : OutboxId) (text : String) : ServerStep := .arrive key (.message (.text text))
    let steps : List ServerStep := [.upgrade ⟨carol, .default⟩, .serve, .answer 0,
      .upgrade ⟨bob, .default⟩, .serve, .answer 1, types 1 "join_room:lobby", .serve, .answer 1,
      types 0 "join_room:lobby", .serve, .answer 0,
      types 1 "room_message:lobby one", types 0 "leave_room:lobby", types 1 "room_message:lobby two",
      .serve, .serve, .serve, .answer 0, types 1 "room_message:lobby three", .serve,
      types 0 "join_room:lobby", .serve, types 1 "room_message:lobby four", .serve, .answer 0]
    let start := Server.new {} 0
    let joined (ticket : Ticket) : JournalEntry :=
      .accepted (.confirmation ticket (.joined "lobby")) "join_room_success:lobby"
    let left : JournalEntry :=
      .accepted (.confirmation 5 (.left "lobby")) "leave_room_success:lobby"
    let before : List JournalEntry :=
      [.joined 3 lobby, joined 3, .accepted (.fanOut lobby) "one"]
    let between : List JournalEntry := [.joined 8 lobby]
    (start.run steps).OnlyOutbox carol 0 ∧
      (∀ request, .submit request ∈ steps →
        request.outbox? = none ∧ ¬request.ChangesRoomsOf carol) ∧
      start.journal carol 0 steps =
        before ++ left :: (between ++ .accepted (.fanOut lobby) "four" :: [joined 8]) ∧
      ∃ later, .joined later lobby ∈ between := by
  intro bob carol lobby types steps start joined left before between
  have single : (start.run steps).OnlyOutbox carol 0 := by
    intro other peer owned
    obtain ⟨session, present, rfl⟩ := Option.map_eq_some_iff.1 owned
    have both : ∀ entry ∈ (start.run steps).sessions.entries,
        entry.2.admission.id = carol ↔ entry.1 = 0 := by decide +kernel
    exact both (other, session) (Table.mem_entries_iff.2 present)
  have alone : ∀ request, .submit request ∈ steps →
      request.outbox? = none ∧ ¬request.ChangesRoomsOf carol := by simp [steps, types]
  have written : start.journal carol 0 steps =
      before ++ left :: (between ++ .accepted (.fanOut lobby) "four" :: [joined 8]) := by
    decide +kernel
  obtain ⟨_, leaves, _⟩ := leave_confirmation_ends_room_traffic {} 0 steps carol 0 single alone
  refine ⟨single, alone, written, ?_⟩
  exact leaves before 5 lobby _ between _ _ written

end Server
end Parley
