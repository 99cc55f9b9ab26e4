import Parley.Proofs.Server.Following

/-!
# A connection and the requests that are served

A message adds payloads at the end, the loss of a transport puts what it could not
write in front of the backlog, and a registration moves the backlog to the outbox of
the next transport.  None of it changes the order in which payloads wait.
-/

namespace Parley

namespace Hub

/-- A request does no harm to the entry of a connection: a new transport comes only when
the last one is lost, and no payload is dropped or evicted. -/
def Endures (hub : Hub) (id : ConnectionId) (connection : Connection) : Request → Prop
  | .register other _ _ => other = id → connection.isLive = false
  | .detach other generation undelivered =>
      other = id → generation = connection.generation →
        (connection.backlog.restoreFront undelivered).1 = 0
  | request =>
      ∀ delivery ∈ (connection.deliverAll (hub.addressed id request) hub.outboxes).1,
        delivery.isKept = true

instance (hub : Hub) (id : ConnectionId) (connection : Connection) :
    (request : Request) → Decidable (hub.Endures id connection request)
  | .register .. => inferInstanceAs (Decidable (_ → _))
  | .detach .. => inferInstanceAs (Decidable (_ → _ → _))
  | .identify .. | .unregister .. | .expire .. | .broadcast .. | .joinRoom .. | .leaveRoom ..
  | .sendToRoom .. | .sendToName .. | .inspect | .shutdown =>
      inferInstanceAs (Decidable (∀ delivery ∈ _, Delivery.isKept delivery = true))

/-- A request does no harm to a connection that the hub knows. -/
def Eases (hub : Hub) (id : ConnectionId) (request : Request) : Prop :=
  ∀ connection ∈ hub.connections.get? id, hub.Endures id connection request

instance (hub : Hub) (id : ConnectionId) (request : Request) : Decidable (hub.Eases id request) :=
  inferInstanceAs (Decidable (∀ connection ∈ hub.connections.get? id, _))

/-- Nothing is meant for a connection that the hub does not know. -/
theorem addressed_of_absent {hub : Hub} {id : ConnectionId}
    (absent : hub.connections.get? id = none) (request : Request) :
    hub.addressed id request = [] := by
  cases request <;> simp [addressed, Table.contains, absent]

/-- Only a request that tells the end of a transport hands back payloads. -/
theorem handedBack_of_stays {hub : Hub} {id : ConnectionId} {request : Request}
    (stays : request.departs id = false) : hub.handedBack id request = [] := by
  cases request with
  | detach other generation undelivered =>
      have different : other ≠ id := by simpa [Request.departs] using stays
      simp [handedBack, different]
  | _ => rfl

/-- Nothing is meant for one connection in a request that brings or ends a transport. -/
theorem addressed_of_departs {hub : Hub} {id : ConnectionId} {request : Request}
    (departs : request.departs id = true) : hub.addressed id request = [] := by
  cases request <;> simp [Request.departs] at departs <;> rfl

/-- Where no harm is done, no message is dropped or evicts another. -/
theorem Eases.kept {hub : Hub} {id : ConnectionId} {request : Request}
    (eases : hub.Eases id request) {connection : Connection}
    (present : hub.connections.get? id = some connection) :
    ∀ delivery ∈ (connection.deliverAll (hub.addressed id request) hub.outboxes).1,
      delivery.isKept = true := by
  have endures := eases connection present
  cases request with
  | register other name key => exact fun _ member => by cases member
  | detach other generation undelivered => exact fun _ member => by cases member
  | _ => exact endures

end Hub

namespace Server

variable {server : Server} {id : ConnectionId} {waiting : List Payload} {letter : Letter}
  {rest : List Letter}

theorem departures_of_letters (letters : server.broker.mailbox = letter :: rest) :
    server.departures id =
      (if letter.request.departs id = true then [letter.request] else []) ++
        (server.served letter rest).departures id := by
  unfold departures served
  rw [letters, List.map_cons, List.filter_cons]
  split <;> rfl

/-- The answer to a letter is no news for a session that waits for another one. -/
theorem get?_replied_of_other (wired : server.Wired) (member : letter ∈ server.broker.mailbox)
    {key : OutboxId} {session : Session} {ticket : Ticket}
    (present : server.sessions.get? key = some session)
    (stage : session.stage = .enrolling ticket)
    (other : letter.request ≠ session.admission.registration key) (outcome : Outcome) :
    (server.broker.replied letter outcome).get? ticket = server.broker.replies.get? ticket := by
  refine server.broker.get?_replied_of_ne (fun same => ?_) outcome
  subst same
  exact other (wired.letter_eq member present stage).1

/-- A request that neither brings nor ends a transport of a connection. -/
theorem hands_served (wired : server.Wired) (letters : server.broker.mailbox = letter :: rest)
    (noRegister : ∀ name key, letter.request ≠ .register id name key)
    (noDeparture : letter.request.departs id = false)
    (stays : server.broker.hub.connections.get? id ≠ none →
      (server.broker.hub.serve letter.request).2.connections.get? id ≠ none) :
    Hands id (server.broker.hub.addressed id letter.request) server (server.served letter rest) := by
  have member : letter ∈ server.broker.mailbox := by rw [letters]; exact List.mem_cons_self
  refine ⟨fun absent => ⟨?_, Hub.addressed_of_absent absent _⟩, fun connection present => ?_,
    fun _ _ _ _ => rfl, fun _ _ there _ => .inl there, ?_, ?_⟩
  · exact @Hub.get?_step_of_absent server.broker.hub id absent (.serve letter.request)
      fun name key same => noRegister name key (HubEvent.serve.inj same)
  · have receives := Hub.receives_serve wired.settled.consistent wired.settled.separate present
      noRegister
      (fun undelivered same => by
        rw [same] at noDeparture
        simp [Request.departs] at noDeparture)
      (fun key brings link => by
        obtain ⟨session, there, stage, _⟩ := wired.registered letter member key brings
        exact (wired.letter_eq member there stage).2.2
          (Hub.mem_attached_iff.2 ⟨id, connection, present, link⟩))
      (fun removes => stays (by simp [present])
        ((Hub.get?_step_eq_none_iff present (.serve letter.request)).2 removes))
    rw [Hub.handed, Hub.handedBack_of_stays noDeparture, List.append_nil] at receives
    exact receives
  · rw [departures_of_letters letters, if_neg (by simp [noDeparture]), List.nil_append]
  · intro key session ticket generation present own stage
    have other : letter.request ≠ session.admission.registration key := fun same =>
      noRegister _ _ (same.trans (by rw [← own]; rfl))
    simp only [served, get?_replied_of_other wired member present stage other]

/-- The end of the transport comes in: the connection is detached, and what was not
written waits first. -/
theorem Follows.served_departure (follows : server.Follows id waiting)
    (letters : server.broker.mailbox = letter :: rest) (departs : letter.request.departs id = true)
    (eases : server.broker.hub.Eases id letter.request)
    (stays : server.broker.hub.connections.get? id ≠ none →
      (server.broker.hub.serve letter.request).2.connections.get? id ≠ none) :
    (server.served letter rest).Follows id waiting := by
  have split := @departures_of_letters server id letter rest letters
  rw [if_pos departs, List.singleton_append] at split
  have unawaited : letter.request.awaited = false := by
    cases request : letter.request <;> rw [request] at departs <;>
      first | rfl | simp [Request.departs] at departs
  have sameReplies : (server.served letter rest).broker.replies = server.broker.replies := by
    simp [served, Broker.replied, unawaited]
  obtain ⟨holds, dormant⟩ := follows
  cases holds with
  | absent _ none => simp [none] at split
  | detached _ _ none => simp [none] at split
  | @live connection key session box pending present link attending own found linked attends =>
      have survives := stays (by simp [present])
      cases attends with
      | enrolled _ _ _ none => simp [none] at split
      | working _ _ _ none => simp [none] at split
      | @departed request _ ended alone tells closed empty =>
          rw [alone, List.cons.injEq] at split
          obtain ⟨same, nobody⟩ := split
          rcases tells with rfl | rfl
          · cases grace : server.broker.hub.settings.reconnectGrace.isZero with
            | true =>
                simp [← same, Hub.serve, Hub.detach, present, grace, Hub.get?_purge_self]
                  at survives
            | false =>
                have entry : (server.served letter rest).broker.hub.connections.get? id =
                    some { connection with
                      link := .detached server.broker.hub.stamp
                      backlog := (connection.backlog.restoreFront pending).2 } := by
                  simp [Server.served, ← same, Hub.serve, Hub.detach, present, grace,
                    Connection.detach_eq]
                have kept : (connection.backlog.restoreFront pending).1 = 0 := by
                  simpa [← same, Hub.Endures] using eases connection present
                have order : pending ++ connection.stored server.broker.hub.outboxes =
                    pending ++ connection.backlog.held := by
                  rw [Connection.stored_of_live link found, empty, List.nil_append]
                refine ⟨?_, fun other session' there ownOther _ => ?_⟩
                · have holds := Holds.detached entry rfl nobody.symm
                  rw [Connection.stored_of_detached rfl] at holds
                  rw [order, ← Backlog.held_restoreFront_of_kept kept]
                  exact holds
                · by_cases here : other = key
                  · subst here
                    obtain rfl := Option.some.inj (attending.symm.trans there)
                    simp [Dormant, ended]
                  · refine (dormant other session' there ownOther fun before thereBefore live => ?_).congr
                      fun ticket generation _ given => by rwa [sameReplies] at given
                    obtain rfl := Option.some.inj (present.symm.trans thereBefore)
                    exact here (Link.live.inj (live.symm.trans link))
          · simp [← same, Hub.serve, Hub.unregister, present, Hub.get?_purge_self] at survives

/-- The answer to a registration, and what it means to a session without a part in the
connection: nothing, unless it is its own. -/
theorem Wired.answers (wired : server.Wired) (letters : server.broker.mailbox = letter :: rest)
    {name : DisplayName} {key : OutboxId} (registers : letter.request = .register id name key) :
    (server.served letter rest).broker.replies.get? letter.ticket =
        some (server.broker.hub.register id name key).1 ∧
      ∀ other session, server.sessions.get? other = some session → other ≠ key →
        server.Dormant session → (server.served letter rest).Dormant session := by
  constructor
  · have given := server.broker.get?_replied_of_awaited (by rw [registers]; rfl)
      (server.broker.hub.serve letter.request).1
    rw [registers] at given
    simpa [Server.served, registers, Hub.serve] using given
  · intro other session present different dormant
    refine dormant.congr fun ticket generation stage given => ?_
    have elsewhere : letter.request ≠ session.admission.registration other := fun same => by
      rw [registers] at same
      exact different (Request.register.inj same).2.2.symm
    have member : letter ∈ server.broker.mailbox := by rw [letters]; exact List.mem_cons_self
    exact (get?_replied_of_other wired member present stage elsewhere _).symm.trans given

/-- A connection gets a new transport, and all that waits is in its outbox. -/
theorem Follows.attached (follows : server.Follows id waiting) (wired : server.Wired)
    (letters : server.broker.mailbox = letter :: rest) {name : DisplayName} {key : OutboxId}
    (registers : letter.request = .register id name key) (stays : server.departures id = [])
    (free : ∀ connection other, server.broker.hub.connections.get? id = some connection →
      connection.link ≠ .live other)
    {revised : Connection} {box : Outbox}
    (registered : (server.broker.hub.register id name key).1 = .ok (.registered revised.generation))
    (entry : (server.broker.hub.register id name key).2.connections.get? id = some revised)
    (link : revised.link = .live key) (nothing : revised.backlog.held = [])
    (found : (server.broker.hub.register id name key).2.outboxes.get? key = some box)
    (linked : box.released = false) (listening : box.isOpen = true) (replayed : box.held = waiting) :
    (server.served letter rest).Follows id waiting := by
  have member : letter ∈ server.broker.mailbox := by rw [letters]; exact List.mem_cons_self
  obtain ⟨session, attending, stage, request⟩ :=
    wired.registered letter member key (by rw [registers]; rfl)
  have own : session.admission.id = id := by
    rw [registers] at request
    exact (Request.register.inj request).1.symm
  obtain ⟨answer, unconcerned⟩ := wired.answers letters registers
  have silent : (server.served letter rest).departures id = [] := by
    rw [departures_of_letters letters, registers] at stays
    exact stays
  have sameHub : (server.served letter rest).broker.hub =
      (server.broker.hub.register id name key).2 := by
    simp [served, registers, Hub.serve]
  rw [registered] at answer
  rw [← sameHub] at entry found
  have holds := Holds.live entry link attending own found linked
    (.enrolled stage answer listening silent)
  rw [Connection.stored_of_live link found, nothing, List.append_nil, List.nil_append,
    replayed] at holds
  refine ⟨holds, fun other session there ownOther apart => ?_⟩
  have different : other ≠ key := fun same => apart revised entry (by rw [link, same])
  exact unconcerned other session there different
    (follows.dormant other session there ownOther fun before thereBefore =>
      free before other thereBefore)

/-- A registration comes in: the backlog moves to the outbox of the new transport. -/
theorem Follows.served_registration (follows : server.Follows id waiting) (wired : server.Wired)
    (letters : server.broker.mailbox = letter :: rest) {name : DisplayName} {key : OutboxId}
    (registers : letter.request = .register id name key)
    (eases : server.broker.hub.Eases id letter.request) :
    (server.served letter rest).Follows id waiting := by
  have member : letter ∈ server.broker.mailbox := by rw [letters]; exact List.mem_cons_self
  obtain ⟨session, attending, stage, _⟩ :=
    wired.registered letter member key (by rw [registers]; rfl)
  obtain ⟨_, unused⟩ := wired.letter_eq member attending stage
  rcases server.broker.hub.register_cases id name key with
    ⟨connection, present, result⟩ | ⟨limit, absent, result⟩ | ⟨absent, result⟩
  · have dead : connection.isLive = false := by
      simpa [registers, Hub.Endures] using eases connection present
    obtain ⟨rfl, stays⟩ := follows.holds.of_detached present dead
    have filed := wired.settled.consistent.filed id connection present
    have elsewhere : connection.link ≠ .live key := fun link =>
      unused.2 (Hub.mem_attached_iff.2 ⟨id, connection, present, link⟩)
    have room : connection.backlog.held.length ≤ server.broker.hub.settings.queueCapacity :=
      Nat.le_trans (filed.capacity_eq ▸ filed.fits) wired.fits
    obtain ⟨revised, replayed⟩ := connection.attach_of_fresh name
      (server.broker.hub.lastGeneration + 1) unused.1 elsewhere room
    have entry : (server.broker.hub.register id name key).2.connections.get? id =
        some { connection with
          name
          generation := server.broker.hub.lastGeneration + 1
          link := .live key
          backlog := { connection.backlog with held := [] } } := by
      rw [result, revised]
      exact Table.get?_set_self _ _ _
    refine follows.attached wired letters registers stays (fun before other there link => ?_)
      (by rw [result]) entry rfl rfl (by rw [result]; exact replayed) rfl rfl rfl
    obtain rfl := Option.some.inj (present.symm.trans there)
    simp [Connection.isLive, link] at dead
  · obtain ⟨rfl, stays⟩ := follows.holds.of_absent absent
    obtain ⟨answer, unconcerned⟩ := wired.answers letters registers
    rw [departures_of_letters letters, registers] at stays
    have still : (server.served letter rest).broker.hub.connections.get? id = none := by
      simp only [served, registers, Hub.serve, result]
      exact absent
    refine ⟨.absent still stays, fun other entry there own _ => ?_⟩
    have dormant := follows.dormant other entry there own fun before thereBefore => by
      rw [absent] at thereBefore
      cases thereBefore
    by_cases same : other = key
    · -- the session learns that it was refused
      subst same
      obtain rfl := Option.some.inj (attending.symm.trans there)
      simp [Dormant, stage, answer, result]
    · exact unconcerned other entry there same dormant
  · obtain ⟨rfl, stays⟩ := follows.holds.of_absent absent
    have entry : (server.broker.hub.register id name key).2.connections.get? id =
        some (Connection.new id name (server.broker.hub.lastGeneration + 1) key
          server.broker.hub.settings.backlogCapacity server.broker.hub.stamp) := by
      rw [result]
      exact Table.get?_set_self _ _ _
    refine follows.attached wired letters registers stays (fun before _ there => ?_)
      (by rw [result]; rfl) entry rfl rfl (by rw [result]; exact unused.1) rfl rfl rfl
    rw [absent] at there
    cases there

/-- A connection that was never registered has nothing to lose when the broker stops. -/
theorem Follows.halted (follows : server.Follows id waiting)
    (absent : server.broker.hub.connections.get? id = none) :
    server.halted.Follows id waiting := by
  have turned := server.broker.turnsAway_stop
  obtain ⟨rfl, _⟩ := follows.holds.of_absent absent
  refine ⟨.absent ?_ ?_, fun other session there own _ => ?_⟩
  · rw [Server.halted, turned.connections]
    exact server.broker.hub.get?_closeAll id
  · simp [departures, Server.halted, turned.mailbox]
  · refine (follows.dormant other session there own fun before thereBefore => ?_).congr
      fun ticket generation _ given => ?_
    · rw [absent] at thereBefore
      cases thereBefore
    · rcases turned.replies ticket with same | ⟨stopped, _⟩
      · rwa [Server.halted, same] at given
      · rw [Server.halted, stopped] at given
        cases given

/-- The payloads of a message that a step delivers to a connection. -/
def fannedOutBy (server : Server) (id : ConnectionId) : ServerStep → List Payload
  | .serve => server.broker.mailbox.head?.elim [] fun letter =>
      server.broker.hub.addressed id letter.request
  | _ => []

/-- A served request adds its message at the end. -/
theorem Follows.serve (follows : server.Follows id waiting) (wired : server.Wired)
    (eases : ∀ letter ∈ server.broker.mailbox.head?,
      server.broker.hub.Eases id letter.request)
    (stays : server.broker.hub.connections.get? id ≠ none →
      (server.step .serve).broker.hub.connections.get? id ≠ none) :
    (server.step .serve).Follows id (waiting ++ server.fannedOutBy id .serve) := by
  simp only [step] at stays ⊢
  rcases serveNext_cases wired.numbered with ⟨nothing, same⟩ | ⟨letter, rest, running, letters, result⟩
  · rw [same]
    simpa [fannedOutBy, nothing] using follows
  · have message : server.fannedOutBy id .serve =
        server.broker.hub.addressed id letter.request := by simp [fannedOutBy, letters]
    have easy := eases letter (by rw [letters]; rfl)
    rw [message]
    by_cases shutdown : letter.request = .shutdown
    · -- a connection that is known would be closed
      have absent : server.broker.hub.connections.get? id = none := by
        refine Classical.byContradiction fun known => stays known ?_
        rw [result, if_pos shutdown, Server.halted, Broker.turnsAway_stop _ |>.connections]
        exact Hub.get?_closeAll _ id
      have hands := hands_served wired letters (fun _ _ same => by simp [shutdown] at same)
        (by simp [shutdown, Request.departs]) (fun known => absurd absent known)
      rw [result, if_pos shutdown]
      exact (follows.hands wired hands fun _ => easy.kept).halted (hands.absent absent).1
    · rw [result, if_neg shutdown] at stays ⊢
      by_cases departs : letter.request.departs id = true
      · rw [Hub.addressed_of_departs departs, List.append_nil]
        exact follows.served_departure letters departs easy stays
      · by_cases registers : ∃ name key, letter.request = .register id name key
        · obtain ⟨name, key, same⟩ := registers
          have nobody : server.broker.hub.addressed id letter.request = [] := by rw [same]; rfl
          rw [nobody, List.append_nil]
          exact follows.served_registration wired letters same easy
        · have hands := hands_served wired letters
            (fun name key same => registers ⟨name, key, same⟩) (by simpa using departs) stays
          exact follows.hands wired hands fun _ => easy.kept

end Server
end Parley
