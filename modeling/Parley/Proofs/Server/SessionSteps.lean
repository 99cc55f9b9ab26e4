import Parley.Proofs.Server.Following

/-!
# A connection and the steps of sessions

Sessions of other connections, and sessions without a part in a connection, do not
touch its payloads.  The session of its transport keeps them in order: what it carries
to the peer comes off the front, and what it confirms is added at the end.
-/

namespace Parley

namespace Session

variable {server : Server} {session later : Session} {box laterBox : Outbox}
  {request : Option Request} {carried added : List Payload}

/-- A session that has no part in its connection sends nothing and gets none. -/
theorem Moves.dormant (moves : session.Moves server box later laterBox request carried added)
    (dormant : server.Dormant session) :
    server.Dormant later ∧ laterBox = box ∧ request = none ∧ carried = [] ∧ added = [] := by
  unfold Server.Dormant at dormant
  cases stage : session.stage with
  | enrolling ticket =>
      obtain ⟨outcome, answered, rfl, rfl, rfl, rfl, rfl⟩ := moves.answered stage
      simp only [stage] at dormant
      refine ⟨?_, rfl, rfl, rfl, rfl⟩
      unfold Server.Dormant enrolled Admission.generation?
      cases outcome with
      | error refusal => trivial
      | ok answer =>
          cases answer with
          | registered generation => exact absurd answered (dormant generation)
          | _ => trivial
  | refusing reason =>
      obtain ⟨still, ⟨_, _, enrolling, _⟩ | ⟨_, rfl⟩⟩ := moves.of_idle (by simp [writer?, stage])
      · rw [stage] at enrolling
        cases enrolling
      · exact ⟨trivial, still⟩
  | serving generation reader writer => simp [stage] at dormant
  | leaving generation outcome writer => simp [stage] at dormant
  | _ => exact absurd stage moves.not_over

end Session

namespace Server

variable {server later : Server} {id : ConnectionId} {waiting : List Payload}

/-! ## Posting and new sessions -/

theorem hands_submit (wired : server.Wired) {request : Request} (plain : request.outbox? = none)
    (stays : request.departs id = false) : Hands id [] server (server.submit request).2 := by
  have sameHub := hub_submit server plain
  refine ⟨fun absent => ⟨by rw [sameHub]; exact absent, rfl⟩, fun connection present => ?_,
    fun _ _ _ _ => rfl, fun _ _ there _ => .inl there, ?_, ?_⟩
  · rw [sameHub]
    exact (Hub.SameFor.refl id connection _).receives present
  · cases running : server.broker.running with
    | true =>
        rw [submit_of_running running]
        simp [departures, stays]
    | false =>
        rw [submit_of_stopped running plain]
        rfl
  · intro key session ticket generation present _ stage
    cases running : server.broker.running with
    | true => rw [submit_of_running running]
    | false =>
        rw [submit_of_stopped running plain]
        simp only [wired.get?_replied_of_given present stage]

theorem hands_elapse (id : ConnectionId) (expiries : List Expiry) (now : Moment) :
    Hands id [] server { server with broker := { server.broker with
      hub := { server.broker.hub with expiries, now } } } where
  absent absent := ⟨absent, rfl⟩
  receives _ present := ⟨present, fun _ _ => rfl⟩
  attending _ _ _ _ := rfl
  others _ _ there _ := .inl there
  departures := rfl
  replies _ _ _ _ _ _ _ := Iff.rfl

/-- Nothing is delivered when nothing is handed over. -/
theorem Follows.hands_nothing (follows : server.Follows id waiting) (wired : server.Wired)
    (hands : Hands id [] server later) : later.Follows id waiting := by
  have result := follows.hands wired hands fun _ _ _ member => by cases member
  rwa [List.append_nil] at result

theorem Follows.tick (follows : server.Follows id waiting) (wired : server.Wired)
    (moment : Moment) : (server.tick moment).Follows id waiting :=
  (@tick_keeps (fun server => server.Wired ∧ server.Follows id waiting) server moment
    (fun expiries now =>
      ⟨wired.elapse expiries now, follows.hands_nothing wired (hands_elapse id expiries now)⟩)
    (fun _ _ _ kept =>
      ⟨kept.1.submit rfl, kept.2.hands_nothing kept.1 (hands_submit kept.1 rfl rfl)⟩)).2

theorem hands_upgrade (wired : server.Wired) (admission : Admission) :
    Hands id [] server (server.upgrade admission).2 := by
  have attached {connection : Connection} {key : OutboxId}
      (present : server.broker.hub.connections.get? id = some connection)
      (link : connection.link = .live key) : key ≠ server.nextOutbox :=
    Nat.ne_of_lt (wired.lt_of_attached (Hub.mem_attached_iff.2 ⟨id, connection, present, link⟩))
  cases running : server.broker.running with
  | true =>
      rw [upgrade_of_running running]
      refine ⟨fun absent => ⟨absent, rfl⟩, fun connection present => ⟨present, ?_⟩,
        fun connection key present link => Table.get?_set_of_ne _ (attached present link) _,
        fun key session there _ => ?_, ?_, fun _ _ _ _ _ _ _ => Iff.rfl⟩
      · exact fun key link => Table.get?_set_of_ne _ (attached present link) _
      · rw [Table.get?_set] at there
        split at there
        · cases there
          refine .inr fun generation given => ?_
          rw [wired.numbered.get?_nextTicket] at given
          cases given
        · exact .inl there
      · simp [departures, Admission.registration, Request.departs]
  | false =>
      rw [upgrade_of_stopped running]
      refine ⟨fun absent => ⟨absent, rfl⟩, fun connection present => ⟨present, ?_⟩,
        fun connection key present link => Table.get?_set_of_ne _ (attached present link) _,
        fun key session there _ => ?_, rfl, ?_⟩
      · intro key link
        have different := attached present link
        exact (Outboxes.get?_release_of_ne _ different).trans (Table.get?_set_of_ne _ different _)
      · rw [Table.get?_set] at there
        split at there
        · cases there
          exact .inr trivial
        · exact .inl there
      · intro key session ticket generation present _ stage
        simp only [wired.get?_replied_of_given present stage]

/-! ## Sessions without a part in the connection -/

/-- A session changes that its connection is not attached to. -/
theorem hands_put {key : OutboxId} {session : Session} (box : Outbox)
    (apart : ∀ connection, server.broker.hub.connections.get? id = some connection →
      connection.link ≠ .live key)
    (dormant : session.admission.id = id → server.Dormant session) :
    Hands id [] server ((server.setOutbox key box).setSession key session) where
  absent absent := ⟨absent, rfl⟩
  receives connection present := by
    refine ⟨present, fun other link => Table.get?_set_of_ne _ ?_ _⟩
    rintro rfl
    exact apart connection present link
  attending connection other present link := by
    refine Table.get?_set_of_ne _ ?_ _
    rintro rfl
    exact apart connection present link
  others other entry there own := by
    simp only [setSession, setOutbox, Table.get?_set] at there
    split at there
    · cases there
      exact .inr (dormant own)
    · exact .inl there
  departures := rfl
  replies _ _ _ _ _ _ _ := Iff.rfl

/-- Whatever other sessions do, the payloads of a connection stay where they are. -/
theorem Follows.apart (follows : server.Follows id waiting) (wired : server.Wired)
    {key : OutboxId} {session entry : Session} {box laterBox : Outbox}
    {request : Option Request} {carried added : List Payload}
    (present : server.sessions.get? key = some session)
    (apart : ∀ connection, server.broker.hub.connections.get? id = some connection →
      connection.link ≠ .live key)
    (moves : session.Moves server box entry laterBox request carried added) :
    (server.progress key entry laterBox request).Follows id waiting := by
  by_cases own : session.admission.id = id
  · obtain ⟨dormant, rfl, rfl, _⟩ := moves.dormant (follows.dormant key session present own apart)
    exact follows.hands_nothing wired (hands_put laterBox apart fun _ => dormant)
  · have foreign : entry.admission.id = id → False := fun same => own (moves.admission_eq ▸ same)
    cases request with
    | none =>
        exact follows.hands_nothing wired (hands_put laterBox apart fun same => (foreign same).elim)
    | some sent =>
        have plain := moves.plain rfl
        have posted := follows.hands_nothing wired
          (hands_submit wired plain (moves.departs rfl own))
        refine posted.hands_nothing (wired.submit plain)
          (hands_put laterBox (fun connection there => ?_) fun same => (foreign same).elim)
        rw [hub_submit server plain] at there
        exact apart connection there

/-! ## The session of the transport -/

theorem Attends.moves {generation : Generation} {session entry : Session}
    {box laterBox : Outbox} {request : Option Request} {pending carried added : List Payload}
    (attends : server.Attends id generation session box pending) (own : session.admission.id = id)
    (linked : box.released = false) (alive : ¬session.FoundHubGone)
    (moves : session.Moves server box entry laterBox request carried added)
    (departures : later.departures id =
      server.departures id ++ request.toList.filter (Request.departs id)) :
    ∃ rest, later.Attends id generation entry laterBox rest ∧
      carried ++ (rest ++ laterBox.held) = pending ++ box.held ++ added ∧
      laterBox.released = false ∧ (box.isOpen = false → added = []) := by
  cases attends with
  | @enrolled ticket stage answered listening stays =>
      obtain ⟨outcome, given, rfl, rfl, rfl, rfl, rfl⟩ := moves.answered stage
      obtain rfl := Option.some.inj (answered.symm.trans given)
      rw [stays] at departures
      exact ⟨_, .working rfl rfl listening departures, by simp [Writer.pending, Writer.start],
        linked, fun _ => rfl⟩
  | @departed sent _ ended departs tells closed empty => exact absurd ended moves.not_over
  | @working writer writing current attends stays =>
      rw [stays, List.nil_append] at departures
      cases moves with
      | enroll waiting => simp [Session.writer?, waiting] at writing
      | refuse refusing => simp [Session.writer?, refusing] at writing
      | @conclude other command ticket _ outcome asking answered =>
          have closed := Reader.confirmed_of_closed command outcome box
          refine ⟨writer.pending, ?_, ?_, ?_, closed⟩
          · rw [Reader.snd_conclude_eq]
            exact .working (by simp [writing]) (by simp [current]) (attends.grow closed) departures
          · rw [Reader.snd_conclude_eq, List.nil_append, List.append_assoc]
          · rw [Reader.snd_conclude_eq]
            exact linked
      | hear listening mild =>
          exact ⟨writer.pending, .working (by simp [writing]) (by simp [current]) attends departures,
            by simp, linked, fun _ => rfl⟩
      | @ask deadline reader sent listening mild plain remains =>
          have silent : later.departures id = [] := by
            rw [departures]
            simp [remains]
          exact ⟨writer.pending, .working (by simp [writing]) (by simp [current]) attends silent,
            by simp, linked, fun _ => rfl⟩
      | work other works =>
          obtain rfl := Option.some.inj (writing.symm.trans other)
          refine ⟨_, .working (Session.writer?_withWriter writing _) (by simp [current])
            (works.attends attends linked) departures, ?_, works.released_eq.trans linked,
            fun _ => rfl⟩
          rw [works.carried_append attends.serves, List.append_nil]
      | @leave other outcome ending serving =>
          simp only [Session.writer?, serving, Option.some.injEq] at writing
          simp only [Session.generation?, serving] at current
          subst writing
          have told : ending.stop.Attends box := attends
          exact ⟨ending.stop.pending, .working rfl current told departures,
            by simp [Writer.pending, Writer.stop], linked, fun _ => rfl⟩
      | @depart other reader _ written serving ended =>
          simp only [Session.writer?, serving, Option.some.injEq] at writing
          simp only [Session.generation?, serving, Option.some.injEq] at current
          subst writing current
          simp only [Writer.Attends, ended] at attends
          obtain ⟨lost, closed, empty⟩ := attends
          have departure := Departure.ofWriter_of_lost lost
          refine ⟨written.undelivered, .departed rfl (departures.trans ?_)
            (.inl rfl) closed empty, by simp [Writer.pending, ended], linked, fun _ => rfl⟩
          simp [departure, Departure.request, Request.departs, own]
      | @departLeaving other outcome _ written leaving ended =>
          simp only [Session.writer?, leaving, Option.some.injEq] at writing
          simp only [Session.generation?, leaving, Option.some.injEq] at current
          subst writing current
          simp only [Writer.Attends, ended] at attends
          obtain ⟨lost, closed, empty⟩ := attends
          have noticed : outcome ≠ .hubClosed := by
            rintro rfl
            exact alive ⟨_, _, .inr leaving⟩
          refine ⟨written.undelivered, ?_, by simp [Writer.pending, ended], linked, fun _ => rfl⟩
          rcases Departure.ofReader_cases noticed written with left | broken
          · refine .departed rfl (departures.trans ?_) (.inr rfl) closed empty
            simp [left, Departure.request, Request.departs, own]
          · refine .departed rfl (departures.trans ?_) (.inl rfl) closed empty
            simp [broken, Departure.request, Request.departs, own]

/-- What a session changes, while requests are served. -/
theorem progress_of_running (running : server.broker.running = true) (key : OutboxId)
    (session : Session) (box : Outbox) (request : Option Request) :
    (server.progress key session box request).broker.hub =
        { server.broker.hub with outboxes := server.broker.hub.outboxes.set key box } ∧
      (server.progress key session box request).broker.replies = server.broker.replies ∧
      (server.progress key session box request).sessions = server.sessions.set key session ∧
      ∀ id, (server.progress key session box request).departures id =
        server.departures id ++ request.toList.filter (Request.departs id) := by
  cases request with
  | none => exact ⟨rfl, rfl, rfl, fun id => (List.append_nil _).symm⟩
  | some sent =>
      unfold progress
      rw [Option.elim_some, submit_of_running running]
      exact ⟨rfl, rfl, rfl, fun id => by simp [departures, setOutbox, setSession]⟩

/-- The session of the transport carries payloads off the front and confirms at the
end. -/
theorem Follows.own (follows : server.Follows id waiting) (wired : server.Wired)
    {connection : Connection} {key : OutboxId} {session entry : Session}
    {box laterBox : Outbox} {request : Option Request} {carried added : List Payload}
    (present : server.broker.hub.connections.get? id = some connection)
    (link : connection.link = .live key) (attending : server.sessions.get? key = some session)
    (found : server.broker.hub.outboxes.get? key = some box)
    (moves : session.Moves server box entry laterBox request carried added) :
    session.admission.id = id ∧ ∃ rest,
      (server.progress key entry laterBox request).Follows id rest ∧
        carried ++ rest = waiting ++ added := by
  obtain ⟨holds, dormant⟩ := follows
  have running : server.broker.running = true := by
    cases running : server.broker.running with
    | true => rfl
    | false =>
        rw [(wired.numbered.stopped running).2 id] at present
        cases present
  obtain ⟨sameHub, sameReplies, sameSessions, departures⟩ :=
    progress_of_running running key entry laterBox request
  obtain ⟨_, _, pending, same, own, foundSame, linked, attends, rfl⟩ := holds.of_live present link
  obtain rfl := Option.some.inj (attending.symm.trans same)
  obtain rfl := Option.some.inj (found.symm.trans foundSame)
  obtain ⟨rest, attendsLater, order, linkedLater, closed⟩ := attends.moves own linked
    (wired.alive running key session attending) moves (departures id)
  have foundLater : (server.progress key entry laterBox request).broker.hub.outboxes.get? key =
      some laterBox := by
    rw [sameHub]
    exact Table.get?_set_self _ _ _
  have presentLater : (server.progress key entry laterBox request).broker.hub.connections.get?
      id = some connection := by
    rw [sameHub]
    exact present
  have attendingLater : (server.progress key entry laterBox request).sessions.get? key =
      some entry := by
    rw [sameSessions]
    exact Table.get?_set_self _ _ _
  -- a payload is confirmed into an open outbox only, and then nothing waits in the backlog
  have backlogLast : added ++ connection.backlog.held = connection.backlog.held ++ added := by
    cases shut : box.isOpen with
    | false => simp [closed shut]
    | true =>
        have listening : connection.isOpen server.broker.hub.outboxes = true := by
          simp [Connection.isOpen, link, found, shut]
        simp [(wired.settled.caughtUp id connection present).nothing_waits listening]
  refine ⟨own, _, ⟨.live presentLater link attendingLater ((congrArg _ moves.admission_eq).trans
    own) foundLater linkedLater attendsLater, fun other session there ownOther apart => ?_⟩, ?_⟩
  · rw [sameSessions, Table.get?_set] at there
    split at there
    · rename_i same
      exact absurd (same ▸ link) (apart connection presentLater)
    · refine (dormant other session there ownOther fun before thereBefore => ?_).congr
        fun ticket generation _ given => by rwa [sameReplies] at given
      rw [sameHub] at apart
      exact apart before thereBefore
  · calc carried ++ (rest ++
          connection.stored (server.progress key entry laterBox request).broker.hub.outboxes)
        = carried ++ (rest ++ laterBox.held) ++ connection.backlog.held := by
          rw [Connection.stored_of_live link foundLater]
          simp only [List.append_assoc]
      _ = pending ++ box.held ++ (added ++ connection.backlog.held) := by
          rw [order, List.append_assoc (pending ++ box.held)]
      _ = pending ++ connection.stored server.broker.hub.outboxes ++ added := by
          rw [backlogLast, Connection.stored_of_live link found]
          simp only [List.append_assoc]

end Server
end Parley
