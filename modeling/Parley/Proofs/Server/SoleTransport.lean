import Parley.Proofs.Server.Journal
import Parley.Proofs.Server.Stocked
import Parley.Proofs.Server.Teardown

/-!
# The only transport of a connection

When a connection has one transport only, nothing waits for it before it registers, and
nothing is handed back to it while it listens.  So whatever its outbox accepts is a message
that the hub serves, or confirms a command of its own.
-/

namespace Parley

/-- Whether a request hands on what somebody says. -/
def Request.isMessage : Request → Bool
  | .broadcast _ | .sendToRoom .. | .sendToName .. => true
  | _ => false

theorem Outboxes.LetsGo.map_held {before after : Outboxes} (letsGo : before.LetsGo after)
    (key : OutboxId) :
    (after.get? key).map Outbox.held = (before.get? key).map Outbox.held := by
  rcases letsGo key with same | released
  · rw [same]
  · rw [released, Option.map_map]
    rfl

/-- Nothing that is delivered reaches a closed outbox. -/
theorem Connection.get?_deliverAll_of_closed {boxes : Outboxes} {key : OutboxId} {box : Outbox}
    (found : boxes.get? key = some box) (closed : box.isOpen = false) (connection : Connection)
    (payloads : List Payload) :
    (connection.deliverAll payloads boxes).2.2.get? key = some box := by
  refine @deliverAll_keeps (fun _ boxes => boxes.get? key = some box)
    (fun connection payload boxes found => ?_) payloads connection boxes found
  rcases connection.deliver_cases payload boxes with
    ⟨other, held, _, present, accepted, result⟩ | ⟨_, _, _, _, _, result⟩ | ⟨_, result⟩ <;>
    rw [result]
  · rw [Table.get?_set]
    split
    · rename_i same
      subst same
      obtain rfl := Option.some.inj (found.symm.trans present)
      rw [(Outbox.answer_eq_accepted_iff.1 accepted).1] at closed
      cases closed
    · exact found
  · exact found
  · exact found

namespace Hub

variable {hub : Hub} {id : ConnectionId} {key : OutboxId}

theorem map_held_purge (hub : Hub) (id : ConnectionId) (key : OutboxId) :
    ((hub.purge id).outboxes.get? key).map Outbox.held =
      (hub.outboxes.get? key).map Outbox.held := by
  cases present : hub.connections.get? id with
  | none => rw [purge_of_absent present]
  | some connection =>
      rw [purge_of_present present]
      exact (Connection.letsGo_releaseLink connection.link hub.outboxes).map_held key

/-- A request that is no message adds nothing to the outbox of a transport: nothing waits for
a connection that the hub does not know yet, and what is handed back finds the outbox
closed. -/
theorem map_held_serve {request : Request} (silent : request.isMessage = false)
    (own : ∀ peer connection, hub.connections.get? peer = some connection →
      connection.link = .live key → peer = id)
    (registers : ∀ peer name outbox, request = .register peer name outbox →
      (peer = id ↔ outbox = key))
    (fresh : ∀ name outbox, request = .register id name outbox → hub.connections.get? id = none)
    (closed : request.departs id = true →
      ∃ box, hub.outboxes.get? key = some box ∧ box.isOpen = false) :
    ((hub.serve request).2.outboxes.get? key).map Outbox.held =
      (hub.outboxes.get? key).map Outbox.held := by
  cases request with
  | identify requested spare => rfl
  | register peer name outbox =>
      dsimp only [serve]
      rcases hub.register_cases peer name outbox with
        ⟨connection, present, result⟩ | ⟨limit, _, result⟩ | ⟨_, result⟩ <;> rw [result]
      · have other : peer ≠ id := by
          rintro rfl
          rw [fresh name outbox rfl] at present
          cases present
        refine congrArg (Option.map Outbox.held) (connection.get?_attach_of_ne name
          (hub.lastGeneration + 1) _ ?_ ?_)
        · exact fun same => other ((registers peer name outbox rfl).2 same.symm)
        · exact fun link => other (own peer connection present link)
      · exact (Outboxes.letsGo_release _ outbox).map_held key
  | unregister peer generation =>
      dsimp only [serve]
      rcases hub.unregister_cases peer generation with ⟨_, _, _, result⟩ | result <;> rw [result]
      exact hub.map_held_purge peer key
  | detach peer generation undelivered =>
      dsimp only [serve]
      rcases hub.detach_cases peer generation undelivered with
        ⟨_, result⟩ | ⟨connection, present, _, result⟩ | ⟨_, _, _, _, result⟩ |
          ⟨connection, _, _, _, result⟩ <;> rw [result]
      · refine congrArg (Option.map Outbox.held) ?_
        by_cases link : connection.link = .live key
        · obtain rfl := own peer connection present link
          obtain ⟨box, found, shut⟩ := closed (by simp [Request.departs])
          rw [found]
          exact Connection.get?_deliverAll_of_closed found shut connection undelivered
        · exact connection.get?_deliverAll_of_ne undelivered _ link
      · exact hub.map_held_purge peer key
      · rw [Connection.detach_eq]
        exact (Connection.letsGo_releaseLink connection.link hub.outboxes).map_held key
  | expire peer generation =>
      dsimp only [serve]
      rcases hub.expire_cases peer generation with ⟨_, _, _, _, result⟩ | result <;> rw [result]
      exact hub.map_held_purge peer key
  | joinRoom peer room =>
      dsimp only [serve]
      rcases hub.joinRoom_cases peer room with ⟨_, result⟩ | ⟨_, _, _, _, result⟩ <;> rw [result]
  | leaveRoom peer room => rfl
  | inspect => rfl
  | shutdown => exact hub.letsGo_closeAll.map_held key
  | broadcast payload => cases silent
  | sendToRoom room payload sender => cases silent
  | sendToName name payload => cases silent

end Hub

/-! ## Sessions -/

namespace Session

variable {server : Server} {key : OutboxId} {session later : Session} {box laterBox : Outbox}
  {request : Option Request} {carried added : List Payload}

/-- A session adds nothing to its outbox but what it confirms. -/
theorem Moves.length_held_le
    (moves : session.Moves server box later laterBox request carried added) :
    laterBox.held.length ≤ box.held.length + added.length := by
  cases moves with
  | conclude => simp [Reader.snd_conclude_eq]
  | work _ works => exact works.held_isSuffix.length_le
  | _ => exact Nat.le_add_right _ _

/-- A session that tells the end of its transport listens no more. -/
theorem Moves.closed_of_departs
    (moves : session.Moves server box later laterBox request carried added) {log : Chronicle}
    (recounts : server.Recounts key session box log) {sent : Request} (sends : request = some sent)
    {id : ConnectionId} (departs : sent.departs id = true) : laterBox.isOpen = false := by
  have shut {writer : Writer} {written : WriteEnd} (ended : writer.phase = .ended written)
      (serves : writer.Serves box) : box.isOpen = false := by
    simp only [Writer.Serves, ended] at serves
    exact serves.1
  cases moves with
  | ask listening alive plain stays =>
      cases sends
      rw [stays id] at departs
      cases departs
  | depart stage ended =>
      cases recounts with
      | serving other accounts =>
          cases stage.symm.trans other
          exact shut ended accounts.serves
      | finished other => exact absurd (stage.symm.trans other) (by simp)
      | refused other => simp [stage] at other
      | enrolling other => exact absurd (stage.symm.trans other) (by simp)
      | leaving other => exact absurd (stage.symm.trans other) (by simp)
  | departLeaving stage ended =>
      cases recounts with
      | leaving other accounts =>
          cases stage.symm.trans other
          exact shut ended accounts.serves
      | finished other => exact absurd (stage.symm.trans other) (by simp)
      | refused other => simp [stage] at other
      | enrolling other => exact absurd (stage.symm.trans other) (by simp)
      | serving other => exact absurd (stage.symm.trans other) (by simp)
  | _ => cases sends

end Session

namespace Server

variable {server : Server} {id : ConnectionId} {key : OutboxId}

/-- The outbox with a name is that of the only transport of a connection: the hub does not
know the connection before the registration of the transport, and whoever tells the end of
the transport finds its outbox closed. -/
structure SoleTransport (server : Server) (id : ConnectionId) (key : OutboxId) : Prop where
  fresh : (server.sessions.get? key = none ∨
      ∃ letter ∈ server.broker.mailbox, letter.request.outbox? = some key) →
    server.broker.hub.connections.get? id = none
  closed : ∀ letter ∈ server.broker.mailbox, letter.request.departs id = true →
    ∃ box, server.broker.hub.outboxes.get? key = some box ∧ box.isOpen = false

theorem SoleTransport.new (settings : Settings) (startedAt : Stamp) :
    (Server.new settings startedAt).SoleTransport id key where
  fresh _ := rfl
  closed letter member := by cases member

/-- A session that exists has a chronicle. -/
def Recorded (server : Server) (key : OutboxId) : Prop :=
  server.sessions.get? key ≠ none → ∃ admission log, server.Chronicles key admission log

theorem Recorded.new (settings : Settings) (startedAt : Stamp) :
    (Server.new settings startedAt).Recorded key := fun present => absurd rfl present

/-- A session comes into being with an upgrade only. -/
theorem get?_sessions_step (threaded : server.Threaded) (absent : server.sessions.get? key = none)
    (step : ServerStep) : (server.step step).sessions.get? key = none ∨
      ∃ admission, step = .upgrade admission ∧ key = server.nextOutbox := by
  apply step_keeps (fun later => later.sessions.get? key = none ∨
    ∃ admission, step = .upgrade admission ∧ key = server.nextOutbox) threaded step
  case idle => exact fun _ => .inl absent
  case progress =>
    intro other session box later laterBox request carried added _ advances
    have different : key ≠ other := by
      rintro rfl
      rw [advances.present] at absent
      cases absent
    rw [sessions_progress, Table.get?_set_of_ne _ different]
    exact .inl absent
  case upgrade =>
    intro admission same
    by_cases here : key = server.nextOutbox
    · exact .inr ⟨admission, same, here⟩
    · exact .inl ((server.get?_sessions_upgrade_of_ne admission here).trans absent)
  case submit => exact fun _ _ => .inl absent
  case tick => exact fun _ _ => .inl absent
  case served => exact fun _ _ _ _ _ => .inl absent
  case halted => exact fun _ _ _ _ _ _ kept => kept

theorem Recorded.step (recorded : server.Recorded key) (threaded : server.Threaded)
    {step : ServerStep} (plain : ∀ request, step = .submit request → request.outbox? = none) :
    (server.step step).Recorded key := by
  intro present
  cases before : server.sessions.get? key with
  | some session =>
      obtain ⟨admission, log, chronicles⟩ := recorded (by simp [before])
      exact ⟨admission, _, chronicles.step threaded plain⟩
  | none =>
      rcases get?_sessions_step threaded before step with absent | ⟨admission, rfl, rfl⟩
      · exact absurd absent present
      · exact ⟨admission, _, Chronicles.upgrade threaded admission⟩

variable (lone : server.OnlyOutbox id key)

/-- Somebody else sends a request. -/
theorem SoleTransport.submit (sole : server.SoleTransport id key) {request : Request}
    (plain : request.outbox? = none) (stays : request.departs id = false) :
    (server.submit request).2.SoleTransport id key := by
  have sameHub := hub_submit server plain
  refine ⟨fun early => ?_, fun letter member departs => ?_⟩
  · rw [sameHub]
    refine sole.fresh (early.imp_right ?_)
    rintro ⟨letter, member, brings⟩
    rcases mem_mailbox_submit plain member with earlier | ⟨_, rfl⟩
    · exact ⟨letter, earlier, brings⟩
    · rw [plain] at brings
      cases brings
  · rw [sameHub]
    rcases mem_mailbox_submit plain member with earlier | ⟨_, rfl⟩
    · exact sole.closed letter earlier departs
    · rw [stays] at departs
      cases departs

include lone

/-- Whatever a session does, it sends no registration, and tells the end of its own transport
only. -/
theorem SoleTransport.progress (sole : server.SoleTransport id key)
    (recorded : server.Recorded key) {other : OutboxId} {session later : Session}
    {box laterBox : Outbox} {request : Option Request} {carried added : List Payload}
    (present : server.sessions.get? other = some session)
    (found : server.broker.hub.outboxes.get? other = some box)
    (moves : session.Moves server box later laterBox request carried added) :
    (server.progress other later laterBox request).SoleTransport id key := by
  have hub := hub_progress other moves
  have letters (letter : Letter)
      (member : letter ∈ (server.progress other later laterBox request).broker.mailbox) :
      letter ∈ server.broker.mailbox ∨ request = some letter.request := by
    rw [mailbox_progress moves, posted] at member
    refine (List.mem_append.1 member).imp_right fun last => ?_
    split at last
    · obtain ⟨sent, sends, rfl⟩ := List.mem_map.1 last
      exact Option.mem_toList.1 sends
    · cases last
  refine ⟨fun early => ?_, fun letter member departs => ?_⟩
  · rw [hub]
    refine sole.fresh (early.imp (fun absent => ?_) ?_)
    · rw [sessions_progress, Table.get?_set] at absent
      split at absent
      · cases absent
      · exact absent
    · rintro ⟨letter, member, brings⟩
      rcases letters letter member with earlier | sends
      · exact ⟨letter, earlier, brings⟩
      · rw [moves.plain sends] at brings
        cases brings
  · rw [hub]
    by_cases here : key = other
    · subst here
      refine ⟨laterBox, Table.get?_set_self _ _ _, ?_⟩
      rcases letters letter member with earlier | sends
      · obtain ⟨before, there, shut⟩ := sole.closed letter earlier departs
        obtain rfl := Option.some.inj (found.symm.trans there)
        exact Bool.eq_false_iff.2 fun listening => by simp [moves.isOpen listening] at shut
      · obtain ⟨admission, log, _, _, there, foundBox, _, recounts⟩ :=
          recorded (by simp [present])
        obtain rfl := Option.some.inj (present.symm.trans there)
        obtain rfl := Option.some.inj (found.symm.trans foundBox)
        exact moves.closed_of_departs recounts sends departs
    · rcases letters letter member with earlier | sends
      · obtain ⟨before, there, shut⟩ := sole.closed letter earlier departs
        exact ⟨before, (Table.get?_set_of_ne _ here _).trans there, shut⟩
      · have own : session.admission.id ≠ id := fun same =>
          here ((lone other _ (owner_of_present present)).1 same).symm
        rw [moves.departs sends own] at departs
        cases departs

omit lone in
/-- A new session brings a registration of its own. -/
theorem SoleTransport.upgrade (sole : server.SoleTransport id key) (threaded : server.Threaded)
    (admission : Admission) : (server.upgrade admission).2.SoleTransport id key := by
  refine ⟨fun early => ?_, fun letter member departs => ?_⟩
  · rw [connections_upgrade]
    by_cases here : key = server.nextOutbox
    · exact sole.fresh (.inl (here ▸ threaded.no_session))
    · rw [server.get?_sessions_upgrade_of_ne admission here] at early
      refine sole.fresh (early.imp_right ?_)
      rintro ⟨letter, member, brings⟩
      rcases mem_mailbox_upgrade member with earlier | registers
      · exact ⟨letter, earlier, brings⟩
      · rw [registers] at brings
        exact absurd (Option.some.inj brings).symm here
  · rcases mem_mailbox_upgrade member with earlier | registers
    · obtain ⟨box, found, shut⟩ := sole.closed letter earlier departs
      have different := threaded.ne_nextOutbox found
      exact ⟨box, (server.get?_outboxes_upgrade_of_ne admission different).trans found, shut⟩
    · rw [registers] at departs
      cases departs

/-- A registration that waits is that of the session with the outbox that it brings. -/
theorem registers_iff (threaded : server.Threaded) {letter : Letter}
    (member : letter ∈ server.broker.mailbox) {peer : ConnectionId} {name : DisplayName}
    {outbox : OutboxId} (registers : letter.request = .register peer name outbox) :
    peer = id ↔ outbox = key := by
  obtain ⟨session, present, _, own⟩ :=
    threaded.registered letter member outbox (by rw [registers]; rfl)
  rw [registers] at own
  obtain rfl := (Request.register.inj own).1
  exact lone outbox _ (owner_of_present present)

/-- The hub serves a letter. -/
theorem SoleTransport.served (sole : server.SoleTransport id key) (threaded : server.Threaded)
    {letter : Letter} {rest : List Letter} (letters : server.broker.mailbox = letter :: rest) :
    (server.served letter rest).SoleTransport id key := by
  have member : letter ∈ server.broker.mailbox := by rw [letters]; exact List.mem_cons_self
  have later {other : Letter} (waits : other ∈ rest) : other ∈ server.broker.mailbox := by
    rw [letters]
    exact List.mem_cons_of_mem _ waits
  refine ⟨fun early => ?_, fun other waits departs => ?_⟩
  · have absent : server.broker.hub.connections.get? id = none :=
      sole.fresh (early.imp_right fun ⟨other, waits, brings⟩ => ⟨other, later waits, brings⟩)
    refine @Hub.get?_step_of_absent server.broker.hub id absent (.serve letter.request)
      fun name outbox same => ?_
    have registers := HubEvent.serve.inj same
    have here : outbox = key := (registers_iff lone threaded member registers).1 rfl
    subst here
    obtain ⟨session, present, stage, _⟩ :=
      threaded.registered letter member outbox (by rw [registers]; rfl)
    rcases early with nobody | ⟨other, waits, brings⟩
    · rw [Server.served, present] at nobody
      cases nobody
    · -- two letters with the ticket of one session
      obtain ⟨_, there, otherStage, _⟩ := threaded.registered other (later waits) outbox brings
      obtain rfl := Option.some.inj (present.symm.trans there)
      have ascending := threaded.numbered.ascending
      rw [letters, List.map_cons, List.pairwise_cons] at ascending
      have after := ascending.1 other.ticket (List.mem_map_of_mem waits)
      rw [SessionStage.enrolling.inj (stage.symm.trans otherStage)] at after
      exact Nat.lt_irrefl _ after
  · obtain ⟨box, found, shut⟩ := sole.closed other (later waits) departs
    obtain ⟨after, there, extended⟩ :=
      (server.broker.hub.extends_serve letter.request).exists found
    exact ⟨after, there, extended.isOpen.trans shut⟩

/-- Every step leaves the transport the only one, when nobody else registers or tells its
end. -/
theorem SoleTransport.step (sole : server.SoleTransport id key) (threaded : server.Threaded)
    (recorded : server.Recorded key) {step : ServerStep}
    (apart : ∀ request, step = .submit request →
      request.outbox? = none ∧ request.departs id = false) :
    (server.step step).SoleTransport id key := by
  apply step_keeps (fun later => later.SoleTransport id key) threaded step
  case idle => exact fun _ => sole
  case progress =>
    intro other session box later laterBox request carried added _ advances
    exact sole.progress lone recorded advances.present advances.found advances.moves
  case upgrade => exact fun admission _ => sole.upgrade threaded admission
  case submit =>
    intro request same
    obtain ⟨plain, stays⟩ := apart request same
    exact sole.submit plain stays
  case tick =>
    intro moment _
    exact @tick_keeps (fun later => later.SoleTransport id key) server moment
      (fun _ _ => ⟨sole.fresh, sole.closed⟩) fun _ _ _ kept => kept.submit rfl rfl
  case served => exact fun letter rest _ _ letters => sole.served lone threaded letters
  case halted =>
    intro letter rest _ _ _ _ _
    have turned := (server.served letter rest).broker.turnsAway_stop
    refine ⟨fun _ => ?_, fun other member => ?_⟩
    · rw [Server.halted, turned.connections]
      exact Hub.get?_closeAll _ id
    · rw [Server.halted, turned.mailbox] at member
      cases member

/-! ## What the outbox accepts -/

omit lone

/-- A session confirms only what it is about to learn. -/
theorem confirmedBy_of_other {step : ServerStep} (concerns : step.session? = some key)
    {session : Session} (present : server.sessions.get? key = some session)
    (source : server.sourceBy key step = .other) (id : ConnectionId) :
    server.confirmedBy id step = [] := by
  cases step with
  | answer other =>
      cases concerns
      simp only [sourceBy, if_true] at source
      simp only [confirmedBy, ownBy, present]
      split
      · cases learnt : server.answered? session with
        | none => rfl
        | some answer =>
            unfold answered? at learnt
            split at learnt
            · rename_i generation command ticket writer stage
              obtain ⟨outcome, given, rfl⟩ := Option.map_eq_some_iff.1 learnt
              have stance : server.stance key = some (.reading (.asking command ticket)) := by
                simp [stance, present, Session.stance, stage]
              simp only [confirmation?, stance, given, Option.map_some] at source
              simp only [Option.elim_some, Reader.confirmed]
              split
              · rename_i confirmation concluded
                simp [concluded] at source
              · rfl
            · cases learnt
      · rfl
  | _ => rfl

theorem held_outbox (server : Server) (key : OutboxId) :
    (server.outbox key).held =
      ((server.broker.hub.outboxes.get? key).map Outbox.held).getD [] := by
  unfold outbox
  cases server.broker.hub.outboxes.get? key <;> rfl

/-- What becomes of the outbox of another session is not its doing. -/
theorem outbox_progress_of_ne {other : OutboxId} (different : key ≠ other)
    {session later : Session} {box laterBox : Outbox} {request : Option Request}
    {carried added : List Payload}
    (moves : session.Moves server box later laterBox request carried added) :
    (server.progress other later laterBox request).outbox key = server.outbox key := by
  simp only [outbox, hub_progress other moves, Table.get?_set_of_ne _ different]

include lone

/-- The outbox of an only transport accepts messages and confirmations, and nothing else. -/
theorem SoleTransport.length_held_le (sole : server.SoleTransport id key)
    (threaded : server.Threaded)
    (own : ∀ peer connection, server.broker.hub.connections.get? peer = some connection →
      connection.link = .live key → peer = id) {step : ServerStep}
    (plain : ∀ request, step = .submit request → request.outbox? = none)
    (source : server.sourceBy key step = .other) :
    ((server.step step).outbox key).held.length ≤ (server.outbox key).held.length := by
  apply step_keeps
    (fun later => (later.outbox key).held.length ≤ (server.outbox key).held.length) threaded step
  case idle => exact fun _ => Nat.le_refl _
  case progress =>
    intro other session box later laterBox request carried added concerns advances
    by_cases here : key = other
    · subst here
      have nothing : added = [] := by
        have confirmed := advances.confirmed session.admission.id
        rw [confirmedBy_of_other concerns advances.present source, if_pos rfl] at confirmed
        exact confirmed.symm
      have after : (server.progress key later laterBox request).outbox key = laterBox :=
        outbox_of_present (by
          rw [hub_progress key advances.moves]
          exact Table.get?_set_self _ _ _)
      rw [after, outbox_of_present advances.found]
      simpa [nothing] using advances.moves.length_held_le
    · exact Nat.le_of_eq
        (congrArg (fun box => box.held.length) (outbox_progress_of_ne here advances.moves))
  case upgrade =>
    intro admission _
    by_cases here : key = server.nextOutbox
    · subst here
      cases running : server.broker.running with
      | true => simp [upgrade_of_running running, held_outbox]
      | false => simp [upgrade_of_stopped running, held_outbox, Outboxes.get?_release_self,
          Outbox.release]
    · have same : (server.upgrade admission).2.outbox key = server.outbox key := by
        rw [outbox, server.get?_outboxes_upgrade_of_ne admission here]
        rfl
      exact Nat.le_of_eq (congrArg (fun box => box.held.length) same)
  case submit =>
    intro request same
    simp only [outbox, hub_submit server (plain request same), Nat.le_refl]
  case tick =>
    intro moment _
    exact @tick_keeps
      (fun later => (later.outbox key).held.length ≤ (server.outbox key).held.length) server
      moment (fun _ _ => Nat.le_refl _) fun later id generation kept => by
        have sameHub : (later.submit (.expire id generation)).2.broker.hub = later.broker.hub :=
          hub_submit later rfl
        rwa [outbox, sameHub]
  case served =>
    rintro letter rest rfl running letters
    have member : letter ∈ server.broker.mailbox := by rw [letters]; exact List.mem_cons_self
    have silent : letter.request.isMessage = false := by
      obtain ⟨ticket, request⟩ := letter
      simp only [sourceBy, oldest?, running, letters, if_true, List.head?_cons] at source
      cases request <;> first | rfl | cases source
    have same := Hub.map_held_serve silent own
      (fun peer name outbox registers => registers_iff lone threaded member registers)
      (fun name outbox registers => sole.fresh (.inr ⟨letter, member, by
        rw [registers, ← (registers_iff lone threaded member registers).1 rfl]
        rfl⟩))
      (sole.closed letter member)
    simp only [held_outbox, Server.served, same, Nat.le_refl]
  case halted =>
    intro letter rest _ _ _ _ kept
    have turned := (server.served letter rest).broker.turnsAway_stop
    have same := ((server.served letter rest).broker.hub.letsGo_closeAll.trans
      turned.outboxes).map_held key
    rw [held_outbox, Server.halted, same, ← held_outbox]
    exact kept

/-- An only transport accepts nothing from elsewhere. -/
theorem SoleTransport.accepted_of_other (sole : server.SoleTransport id key)
    (threaded : server.Threaded)
    (own : ∀ peer connection, server.broker.hub.connections.get? peer = some connection →
      connection.link = .live key → peer = id) {step : ServerStep}
    (plain : ∀ request, step = .submit request → request.outbox? = none)
    (source : server.sourceBy key step = .other) : (server.noted key step).accepted = [] :=
  List.drop_eq_nil_iff.2 (sole.length_held_le lone threaded own plain source)

end Server
end Parley
