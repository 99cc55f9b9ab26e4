import Parley.Client.Display
import Parley.Proofs.Server.Coalescing

/-!
# Where confirmations come from

Confirmations travel as payloads among other payloads, and a client recognizes them by
the word that they begin with.  When only peers speak, every payload on its way to a
connection is a confirmation of a command that the connection sent itself, or the words
of some peer.  The words of a peer are not marked as such: those that begin like a
confirmation are taken for one.
-/

namespace Parley

/-- What a peer says to others in a step. -/
def ServerStep.said? : ServerStep → Option Payload
  | .arrive _ arrival => arrival.command?.bind Command.body?
  | _ => none

/-- What peers say along a run that clients take for confirmations. -/
def ServerStep.mistaken (steps : List ServerStep) : List Payload :=
  (steps.filterMap said?).filter fun payload => (Confirmation.parse? payload).isSome

/-! ## What a client shows -/

/-- A payload that is no confirmation, as a client shows it. -/
def Display.plain (text : String) (receivedAt : Stamp) : String :=
  s!"\n[{receivedAt.clock}] {text}\n"

/-- A client shows as a status exactly what it recognizes as a confirmation. -/
theorem Display.payload_eq_plain_iff (text : String) (receivedAt : Stamp) :
    Display.payload text receivedAt = Display.plain text receivedAt ↔
      Confirmation.parse? text = none := by
  -- the second character of a status line is not the bracket in front of a time
  have bracket : (Display.plain text receivedAt).toList[1]? = some '[' := by
    simp [Display.plain, ToString.toString]
  constructor
  · intro same
    cases recognized : Confirmation.parse? text with
    | none => rfl
    | some confirmation =>
        rw [← same] at bracket
        cases confirmation <;> simp [Display.payload, recognized, ToString.toString] at bracket
  · intro unrecognized
    simp [Display.payload, Display.plain, unrecognized]

namespace Server

variable {start server : Server} {steps : List ServerStep} {id : ConnectionId} {payload : Payload}

/-! ## Confirmations along a run -/

/-- The confirmations that a run adds to the outboxes of a connection, in order. -/
def confirmations (server : Server) (id : ConnectionId) : List ServerStep → List Payload
  | [] => []
  | step :: rest => server.confirmedBy id step ++ (server.step step).confirmations id rest

theorem mem_confirmations_iff :
    payload ∈ start.confirmations id steps ↔
      ∃ before next after, steps = before ++ next :: after ∧
        payload ∈ (start.run before).confirmedBy id next := by
  induction steps generalizing start with
  | nil => simp [confirmations]
  | cons first rest induction =>
      rw [confirmations, List.mem_append, induction]
      constructor
      · rintro (now | ⟨before, next, after, rfl, later⟩)
        · exact ⟨[], first, rest, rfl, now⟩
        · exact ⟨first :: before, next, after, rfl, later⟩
      · rintro ⟨before, next, after, same, confirmed⟩
        cases before with
        | nil =>
            obtain ⟨rfl, rfl⟩ := List.cons.inj same
            exact .inl confirmed
        | cons earlier before =>
            obtain ⟨rfl, rfl⟩ := List.cons.inj same
            exact .inr ⟨before, next, after, rfl, confirmed⟩

/-- A command has arrived on a transport of a connection. -/
def Sent (start : Server) (steps : List ServerStep) (id : ConnectionId) (command : Command) :
    Prop :=
  ∃ before key arrival after, steps = before ++ .arrive key arrival :: after ∧
    (start.run before).owner key = some id ∧ arrival.command? = some command

/-- A session that learns an outcome was asking for it. -/
theorem asking_of_answered {session : Session} {command : Command} {outcome : Outcome}
    (answered : server.answered? session = some (command, outcome)) :
    ∃ ticket, session.reader? = some (.asking command ticket) ∧
      server.broker.replies.get? ticket = some outcome := by
  unfold answered? at answered
  split at answered
  · rename_i generation other ticket writer stage
    obtain ⟨reply, found, same⟩ := Option.map_eq_some_iff.1 answered
    cases same
    exact ⟨ticket, by simp [Session.reader?, stage], found⟩
  · cases answered

/-- Only the outcome of its own command confirms something to a connection. -/
theorem exists_of_mem_confirmedBy {next : ServerStep}
    (confirmed : payload ∈ server.confirmedBy id next) :
    ∃ key session command outcome, next = .answer key ∧
      server.sessions.get? key = some session ∧ session.admission.id = id ∧
      server.answered? session = some (command, outcome) ∧
      payload ∈ Reader.confirmed command outcome (server.outbox key) := by
  cases next with
  | answer key =>
      cases present : server.sessions.get? key with
      | none => simp [confirmedBy, ownBy, present] at confirmed
      | some session =>
          by_cases own : session.admission.id = id
          · cases answered : server.answered? session with
            | none => simp [confirmedBy, ownBy, present, answered] at confirmed
            | some answer =>
                refine ⟨key, session, answer.1, answer.2, rfl, present, own, answered, ?_⟩
                simpa [confirmedBy, ownBy, present, own, answered] using confirmed
          · simp [confirmedBy, ownBy, present, own] at confirmed
  | _ => simp [confirmedBy, ownBy] at confirmed

/-! ## Origins -/

/-- When only peers speak, what waits for a connection is a confirmation of its own or was
said by a peer, and its readers wait for the outcomes of commands that arrived on its
transports. -/
theorem stocked_origins (settings : Settings) (startedAt : Stamp) (peers : OnlyPeersSpeak steps) :
    let start := Server.new settings startedAt
    (start.run steps).Stocked
      (fun id payload =>
        payload ∈ start.confirmations id steps ∨ payload ∈ steps.filterMap ServerStep.said?)
      (start.Sent steps) := by
  intro start
  refine (Stocked.new settings startedAt).run (.new settings startedAt) ?_
  intro before next after same
  refine ⟨fun request sends => ?_, fun key arrival arrives id own command reads => ?_,
    fun key arrival arrives command reads payload speaks id => ?_,
    fun id command outcome box _ payload _ confirmed => ?_⟩
  · obtain ⟨noOutbox, nothing⟩ := peers request (by simp [same, sends])
    refine ⟨noOutbox, fun id payload member => ?_⟩
    rw [nothing id] at member
    cases member
  · exact ⟨before, key, arrival, after, arrives ▸ same, own, reads⟩
  · refine .inr (List.mem_filterMap.2 ⟨next, by simp [same], ?_⟩)
    rw [arrives, ServerStep.said?, reads]
    exact speaks
  · exact .inl (mem_confirmations_iff.2 ⟨before, next, after, same, confirmed⟩)

/-- A confirmation answers a command that has arrived before on a transport of the
connection, and says what became of it. -/
theorem exists_of_mem_confirmations (settings : Settings) (startedAt : Stamp)
    (peers : OnlyPeersSpeak steps)
    (confirmed : payload ∈ (Server.new settings startedAt).confirmations id steps) :
    let start := Server.new settings startedAt
    ∃ before key after command outcome confirmation, steps = before ++ .answer key :: after ∧
      ((start.run before).sessions.get? key).bind (start.run before).answered? =
        some (command, outcome) ∧
      start.Sent before id command ∧
      (command = .joinRoom confirmation.room ∨ command = .leaveRoom confirmation.room) ∧
      Dispatch.conclude command outcome = .ok (some confirmation) ∧
      payload = confirmation.encode := by
  intro start
  obtain ⟨before, next, after, rfl, added⟩ := mem_confirmations_iff.1 confirmed
  obtain ⟨key, session, command, outcome, rfl, present, rfl, answered, member⟩ :=
    exists_of_mem_confirmedBy added
  obtain ⟨ticket, reading, _⟩ := asking_of_answered answered
  obtain ⟨confirmation, concluded, written⟩ := Reader.exists_of_mem_confirmed member
  have earlier : OnlyPeersSpeak before := fun request sends =>
    peers request (List.mem_append_left _ sends)
  have stocked := stocked_origins settings startedAt earlier
  refine ⟨before, key, after, command, outcome, confirmation, rfl, ?_,
    stocked.readers key session command ticket present reading,
    Dispatch.command_of_conclude concluded, concluded, written⟩
  rw [present]
  exact answered

/-- What waits for a connection and is recognized is its own confirmation, or was said by a
peer and mistaken for one. -/
theorem confirmed_or_mistaken (settings : Settings) (startedAt : Stamp)
    (peers : OnlyPeersSpeak steps)
    (onItsWay : ((Server.new settings startedAt).run steps).OnItsWay id payload)
    (recognized : Confirmation.parse? payload ≠ none) :
    payload ∈ (Server.new settings startedAt).confirmations id steps ∨
      payload ∈ ServerStep.mistaken steps := by
  refine ((stocked_origins settings startedAt peers).of_onItsWay onItsWay).imp_right fun said => ?_
  exact List.mem_filter.2 ⟨said, Option.isSome_iff_ne_none.2 recognized⟩

/-- When only peers speak, a payload that is on its way to a connection and would be
recognized as a confirmation is one of the confirmations of that connection, unless a peer
has sent a message whose body begins like a confirmation.  The same holds of all that a
client gets out of a text message and does not show as a plain payload.  A confirmation of
a connection answers a command to join or to leave its room, which has arrived before on a
transport of that same connection. -/
theorem recognized_payloads_have_an_origin (settings : Settings) (startedAt : Stamp)
    (steps : List ServerStep) (peers : OnlyPeersSpeak steps) :
    let start := Server.new settings startedAt
    let server := start.run steps
    (∀ id payload, server.OnItsWay id payload → Confirmation.parse? payload ≠ none →
        payload ∈ start.confirmations id steps ∨ payload ∈ ServerStep.mistaken steps) ∧
      (∀ next key id frame, server.owner key = some id →
        .text frame ∈ (server.noted key next).attempted → ∀ payload ∈ Batch.split frame,
          ∀ receivedAt, Display.payload payload receivedAt ≠ Display.plain payload receivedAt →
            payload ∈ start.confirmations id steps ∨ payload ∈ ServerStep.mistaken steps) ∧
      ∀ id, ∀ payload ∈ start.confirmations id steps,
        ∃ before key after command outcome confirmation, steps = before ++ .answer key :: after ∧
          ((start.run before).sessions.get? key).bind (start.run before).answered? =
            some (command, outcome) ∧
          start.Sent before id command ∧
          (command = .joinRoom confirmation.room ∨ command = .leaveRoom confirmation.room) ∧
          Dispatch.conclude command outcome = .ok (some confirmation) ∧
          payload = confirmation.encode := by
  intro start server
  refine ⟨fun id payload => confirmed_or_mistaken settings startedAt peers, ?_,
    fun id payload confirmed => exists_of_mem_confirmations settings startedAt peers confirmed⟩
  intro next key id frame own attempts payload member receivedAt shown
  obtain ⟨_, ⟨session, writer, present, writing, gathers⟩, _⟩ :=
    split_of_attempted settings startedAt peers attempts
  obtain rfl := Option.some.inj ((owner_of_present present).symm.trans own)
  have pending : payload ∈ writer.pending := by simpa [Writer.pending, gathers] using member
  refine confirmed_or_mistaken settings startedAt peers
    (.taken key session writer present rfl writing pending) ?_
  exact fun unrecognized => shown ((Display.payload_eq_plain_iff _ _).2 unrecognized)

/-- Bob joins a room, nobody says anything like a confirmation, and the status that he is
shown is about his own command. -/
theorem recognized_payload_of_own_command :
    let bob : ConnectionId := ⟨"bob", by decide⟩
    let steps : List ServerStep := [.upgrade ⟨bob, .default⟩, .serve, .answer 0,
      .arrive 0 (.message (.text "join_room:lobby")), .serve, .answer 0, .turn 0]
    let start := Server.new {} 0
    let server := start.run steps
    let payload := "join_room_success:lobby"
    OnlyPeersSpeak steps ∧ server.owner 0 = some bob ∧
      .text payload ∈ (server.noted 0 (.turn 0)).attempted ∧ payload ∈ Batch.split payload ∧
      Display.payload payload 0 ≠ Display.plain payload 0 ∧ ServerStep.mistaken steps = [] ∧
      payload ∈ start.confirmations bob steps := by
  intro bob steps start server payload
  have peers : OnlyPeersSpeak steps := by simp [OnlyPeersSpeak, steps]
  have own : server.owner 0 = some bob := by decide +kernel
  have sends : .text payload ∈ (server.noted 0 (.turn 0)).attempted := by decide +kernel
  have member : payload ∈ Batch.split payload := by decide +kernel
  have shown : Display.payload payload 0 ≠ Display.plain payload 0 := by decide +kernel
  have nothing : ServerStep.mistaken steps = [] := by decide +kernel
  refine ⟨peers, own, sends, member, shown, nothing, ?_⟩
  obtain ⟨_, clients, _⟩ := recognized_payloads_have_an_origin {} 0 steps peers
  refine (clients _ _ _ _ own sends payload member 0 shown).resolve_right ?_
  rw [nothing]
  exact List.not_mem_nil

/-- Alice sends Bob a message whose body begins like a confirmation.  Bob has asked for
nothing and is in no room, but his client tells him that he has joined one. -/
theorem mistaken_payload_of_another_peer :
    let alice : ConnectionId := ⟨"alice", by decide⟩
    let bob : ConnectionId := ⟨"bob", by decide⟩
    let steps : List ServerStep := [.upgrade ⟨alice, ⟨"alice", by decide⟩⟩,
      .upgrade ⟨bob, ⟨"bob", by decide⟩⟩, .serve, .serve, .answer 0, .answer 1,
      .arrive 0 (.message (.text "private_message:bob join_room_success:lobby")), .serve]
    let start := Server.new {} 0
    let server := start.run steps
    let payload := "join_room_success:lobby"
    OnlyPeersSpeak steps ∧ server.OnItsWay bob payload ∧
      Confirmation.parse? payload = some (.joined "lobby") ∧
      start.confirmations bob steps = [] ∧
      server.broker.hub.roster.roomCount = 0 ∧
      ((server.step (.turn 1)).noted 1 (.turn 1)).attempted = [.text payload] ∧
      Batch.split payload = [payload] ∧
      Display.payload payload 0 = "\n* joined room 'lobby'\n" ∧
      ¬∀ id payload, server.OnItsWay id payload → Confirmation.parse? payload ≠ none →
        payload ∈ start.confirmations id steps := by
  intro alice bob steps start server payload
  have peers : OnlyPeersSpeak steps := by simp [OnlyPeersSpeak, steps]
  have onItsWay : server.OnItsWay bob payload :=
    .queued 1 (by decide +kernel) (by decide +kernel)
  have recognized : Confirmation.parse? payload = some (.joined "lobby") := by decide +kernel
  have nothing : start.confirmations bob steps = [] := by decide +kernel
  refine ⟨peers, onItsWay, recognized, nothing, by decide +kernel, by decide +kernel,
    by decide +kernel, by decide +kernel, fun claimed => ?_⟩
  have confirmed := claimed bob payload onItsWay (by rw [recognized]; exact Option.some_ne_none _)
  rw [nothing] at confirmed
  exact List.not_mem_nil confirmed

end Server
end Parley
