import Parley.Proofs.Server.SessionSteps
import Parley.Proofs.Server.Turns

/-!
# Delivery across reconnections

A peer may lose its transport again and again.  As long as it comes back in time and no
queue overflows, its text messages carry all payloads that are handed to its connection,
in order and once each, whatever the sessions and the hub do in between.
-/

namespace Parley
namespace Server

/-! ## Runs as a connection sees them -/

/-- The confirmations that a step hands to a connection. -/
def offeredBy (server : Server) (id : ConnectionId) (step : ServerStep) : List Payload :=
  server.ownBy Reader.offered id step

/-- The payloads that a step hands to a connection. -/
def handedBy (server : Server) (id : ConnectionId) (step : ServerStep) : List Payload :=
  server.fannedOutBy id step ++ server.offeredBy id step

/-- The payloads that a run hands to a connection, in order. -/
def handedAll (server : Server) (id : ConnectionId) : List ServerStep → List Payload
  | [] => []
  | step :: rest => server.handedBy id step ++ (server.step step).handedAll id rest

/-- The text messages that a run carries to the peer of a connection, each with its
transport and its payloads, in the order of writing. -/
def frames (server : Server) (id : ConnectionId) :
    List ServerStep → List (OutboxId × List Payload)
  | [] => []
  | step :: rest => server.frameBy id step ++ (server.step step).frames id rest

/-- A step that does no harm to a connection.  The connection stays known: its peer does
not leave, and its grace does not end.  Only sessions register transports and tell of
their end.  The hub registers the next transport only after the last one is lost, and
neither drops nor evicts a payload.  No confirmation finds the outbox full. -/
def Smooth (server : Server) (id : ConnectionId) (step : ServerStep) : Prop :=
  (server.broker.hub.connections.contains id = true →
      (server.step step).broker.hub.connections.contains id = true) ∧
    match step with
    | .submit request => request.outbox? = none ∧ request.departs id = false
    | .serve => ∀ letter ∈ server.broker.mailbox.head?, server.broker.hub.Eases id letter.request
    | .answer key => server.offeredBy id (.answer key) ≠ [] → (server.outbox key).answer ≠ .full
    | _ => True

instance (server : Server) (id : ConnectionId) (step : ServerStep) :
    Decidable (server.Smooth id step) := by
  unfold Smooth
  refine @instDecidableAnd _ _ inferInstance ?_
  cases step <;> infer_instance

/-- A run none of whose steps does harm to a connection. -/
def SmoothRun (server : Server) (id : ConnectionId) : List ServerStep → Prop
  | [] => True
  | step :: rest => server.Smooth id step ∧ (server.step step).SmoothRun id rest

instance decidableSmoothRun (server : Server) (id : ConnectionId) :
    (steps : List ServerStep) → Decidable (server.SmoothRun id steps)
  | [] => inferInstanceAs (Decidable True)
  | step :: rest =>
      @instDecidableAnd _ _ inferInstance ((server.step step).decidableSmoothRun id rest)

/-- No session of a connection is over without the hub having learned of its end. -/
def AtRest (server : Server) (id : ConnectionId) : Prop := server.departures id = []

instance (server : Server) (id : ConnectionId) : Decidable (server.AtRest id) := by
  unfold AtRest
  infer_instance

/-- The payloads that a session has taken from its outbox and not written: those of its
next or current write, or those that it hands back. -/
def taken (session : Session) : List Payload := session.writer?.elim [] Writer.pending

/-- The payloads on their way to the peer of a connection: those that its session has taken,
those in the outbox of its transport, and the backlog. -/
def underWay (server : Server) (id : ConnectionId) : List Payload :=
  (server.broker.hub.connections.get? id).elim [] fun connection =>
    (match connection.link with
      | .live key => (server.sessions.get? key).elim [] taken
      | .detached _ => []) ++
      connection.stored server.broker.hub.outboxes

variable {server : Server} {id : ConnectionId} {waiting : List Payload} {next : ServerStep}

/-- At rest all that waits is on its way. -/
theorem Holds.eq_underWay (holds : server.Holds id waiting) (rest : server.AtRest id) :
    waiting = server.underWay id := by
  cases holds with
  | absent absent => simp [underWay, absent]
  | detached present link => simp [underWay, present, link]
  | @live connection key session box pending present link attending own found linked attends =>
      have held : pending = taken session := by
        cases attends with
        | enrolled stage => simp [taken, Session.writer?, stage]
        | working writing => rw [taken, writing, Option.elim_some]
        | departed _ departs =>
            rw [rest] at departs
            cases departs
      simp [underWay, present, link, attending, held]

/-! ## Smooth steps -/

theorem Smooth.offeredBy_eq_confirmedBy (smooth : server.Smooth id next) :
    server.offeredBy id next = server.confirmedBy id next := by
  unfold offeredBy confirmedBy
  cases next with
  | answer key =>
      have room := smooth.2
      simp only [offeredBy, ownBy] at room ⊢
      cases present : server.sessions.get? key with
      | none => rfl
      | some session =>
          by_cases own : session.admission.id = id
          · cases answered : server.answered? session with
            | none => simp [answered]
            | some answer =>
                simp only [present, own, answered, if_true, Option.elim_some] at room ⊢
                exact Reader.offered_eq_confirmed answer.1 answer.2 _ room
          · simp only [own, if_false]
  | _ => rfl

theorem Smooth.plain (smooth : server.Smooth id next) (request : Request)
    (submits : next = .submit request) : request.outbox? = none := by
  subst submits
  exact smooth.2.1

theorem fannedOutBy_of_session {key : OutboxId} (concerns : next.session? = some key) :
    server.fannedOutBy id next = [] := by
  cases next <;> first | rfl | cases concerns

/-- A step carries payloads off the front and hands payloads at the end. -/
theorem Follows.step (follows : server.Follows id waiting) (wired : server.Wired)
    (smooth : server.Smooth id next) :
    ∃ rest, (server.step next).Follows id rest ∧
      (server.frameBy id next).flatMap Prod.snd ++ rest = waiting ++ server.handedBy id next := by
  have confirmed := smooth.offeredBy_eq_confirmedBy
  cases concerns : next.session? with
  | some key =>
      rw [handedBy, fannedOutBy_of_session concerns, List.nil_append, confirmed]
      rcases idles_or_advances concerns (wired.boxed key) with
        idles | ⟨session, box, entry, laterBox, request, carried, added, advances⟩
      · refine ⟨waiting, ?_, by simp [idles.frames, idles.confirmed]⟩
        rw [idles.result]
        exact follows
      · rw [advances.result, advances.frames, advances.confirmed]
        by_cases linked : ∃ connection,
            server.broker.hub.connections.get? id = some connection ∧ connection.link = .live key
        · obtain ⟨connection, present, link⟩ := linked
          obtain ⟨own, rest, followsRest, order⟩ :=
            follows.own wired present link advances.present advances.found advances.moves
          rw [if_pos own, if_pos own]
          exact ⟨rest, followsRest, order⟩
        · have apart (connection : Connection)
              (present : server.broker.hub.connections.get? id = some connection) :
              connection.link ≠ .live key := fun link => linked ⟨connection, present, link⟩
          refine ⟨waiting, follows.apart wired advances.present apart advances.moves, ?_⟩
          by_cases own : session.admission.id = id
          · obtain ⟨_, _, _, rfl, rfl⟩ := advances.moves.dormant
              (follows.dormant key session advances.present own apart)
            simp
          · simp [own]
  | none =>
      cases next with
      | upgrade admission =>
          exact ⟨waiting, follows.hands_nothing wired (hands_upgrade wired admission),
            (List.append_nil _).symm⟩
      | submit request =>
          exact ⟨waiting, follows.hands_nothing wired (hands_submit wired smooth.2.1 smooth.2.2),
            (List.append_nil _).symm⟩
      | tick moment => exact ⟨waiting, follows.tick wired moment, (List.append_nil _).symm⟩
      | serve =>
          have served := follows.serve wired smooth.2 fun known => by
            simpa [Table.contains, Option.isSome_iff_ne_none, known] using smooth.1
          exact ⟨_, served, by simp [frameBy, handedBy, offeredBy, ownBy]⟩
      | _ => cases concerns

/-! ## Runs -/

/-- Where the payloads of a connection are after a run, and in which order its
transports were used. -/
theorem Follows.run {used : List OutboxId} {steps : List ServerStep}
    (follows : server.Follows id waiting) (wired : server.Wired)
    (turns : server.TakesTurns id used) (smooth : server.SmoothRun id steps) :
    ∃ rest, (server.run steps).Follows id rest ∧
      (server.run steps).TakesTurns id (used ++ (server.frames id steps).map Prod.fst) ∧
      (server.frames id steps).flatMap Prod.snd ++ rest =
        waiting ++ server.handedAll id steps := by
  induction steps generalizing server waiting used with
  | nil => exact ⟨waiting, follows, by simpa [frames] using turns, by simp [frames, handedAll]⟩
  | cons step steps induction =>
      obtain ⟨now, later⟩ := smooth
      obtain ⟨middle, followsMiddle, order⟩ := follows.step wired now
      obtain ⟨rest, followsRest, turnsRest, orderRest⟩ := induction followsMiddle
        (wired.step now.plain) (turns.step wired follows now.plain) later
      refine ⟨rest, followsRest, ?_, ?_⟩
      · rw [frames, List.map_append, ← List.append_assoc]
        exact turnsRest
      · calc (server.frames id (step :: steps)).flatMap Prod.snd ++ rest
            = (server.frameBy id step).flatMap Prod.snd ++
                (((server.step step).frames id steps).flatMap Prod.snd ++ rest) := by
              rw [frames, List.flatMap_append, List.append_assoc]
          _ = ((server.frameBy id step).flatMap Prod.snd ++ middle) ++
                (server.step step).handedAll id steps := by
              rw [orderRest, List.append_assoc]
          _ = waiting ++ server.handedAll id (step :: steps) := by
              rw [order, handedAll, List.append_assoc]

/-- Delivery survives reconnections.  Along every run that does no harm to a connection,
whatever order the steps of the hub, the sessions and the clock come in, (1) the
transports of its text messages take turns, none coming back after the next one,
(2) whenever no session is over without the hub having learned of its end, the payloads of
the text messages, followed by those on their way, are the payloads that were handed to
the connection, in order and once each, and (3) no session but that of the current
transport has taken any that it has not written. -/
theorem delivery_survives_reconnections (settings : Settings) (startedAt : Stamp)
    (fit : settings.fault = none) (id : ConnectionId) (steps : List ServerStep)
    (smooth : (Server.new settings startedAt).SmoothRun id steps) :
    let start := Server.new settings startedAt
    let server := start.run steps
    ((start.frames id steps).map Prod.fst).Pairwise (· ≤ ·) ∧
      (server.AtRest id →
        (start.frames id steps).flatMap Prod.snd ++ server.underWay id =
          start.handedAll id steps) ∧
      ∀ key session, server.sessions.get? key = some session → session.admission.id = id →
        taken session ≠ [] →
          ∃ connection, server.broker.hub.connections.get? id = some connection ∧
            connection.link = .live key := by
  intro start server
  obtain ⟨rest, follows, turns, order⟩ :=
    (Follows.new settings startedAt id).run (Wired.new settings startedAt fit)
      (TakesTurns.new settings startedAt id) smooth
  refine ⟨(List.pairwise_append.1 turns.ordered).1, fun atRest => ?_,
    fun key session present own some => ?_⟩
  · rw [← follows.holds.eq_underWay atRest]
    exact order
  · cases writes : session.writer? with
    | none => exact absurd (by simp [taken, writes]) some
    | some writer => exact mem_linked_iff.1 (follows.linked_of_writer present own writes)

/-- Alice joins a room and loses her transport in the middle of a write.  What was being
written, what came before her outbox was closed, what came before the hub learned of the
loss and what came after it all reach her on her next transport. -/
theorem delivery_survives_a_failed_write :
    let alice : ConnectionId := ⟨"alice", by decide⟩
    let steps : List ServerStep := [.upgrade ⟨alice, .default⟩, .serve, .answer 0,
      .arrive 0 (.message (.text "join_room:den")), .serve, .answer 0, .turn 0, .turn 0, .written 0,
      .submit (.broadcast "one"), .serve, .turn 0, .turn 0, .submit (.broadcast "two"), .serve,
      .unwritten 0, .submit (.broadcast "three"), .serve, .turn 0, .submit (.broadcast "four"),
      .serve, .turn 0, .turn 0, .turn 0, .joinWriter 0, .serve, .submit (.broadcast "five"), .serve,
      .upgrade ⟨alice, .default⟩, .serve, .answer 1, .turn 1, .turn 1, .turn 1, .turn 1, .turn 1,
      .turn 1, .written 1]
    let start := Server.new {} 0
    start.SmoothRun alice steps ∧ start.frames alice steps =
        [(0, ["join_room_success:den"]), (1, ["one", "two", "three", "four", "five"])] ∧
      start.handedAll alice steps =
        ["join_room_success:den", "one", "two", "three", "four", "five"] := by
  intro alice steps start
  have fit : ({} : Settings).fault = none := by decide
  have smooth : start.SmoothRun alice steps := by decide +kernel
  obtain ⟨_, order, _⟩ := delivery_survives_reconnections {} 0 fit alice steps smooth
  refine ⟨smooth, by decide +kernel, ?_⟩
  rw [← order (by decide +kernel)]
  decide +kernel

end Server
end Parley
