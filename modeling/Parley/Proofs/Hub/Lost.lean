import Parley.Proofs.Hub.Ceilings
import Parley.Proofs.Hub.Generation

/-!
# Lost connections

A connection that lost its transport stays in the table, detached, and in its rooms,
until it is registered again, is unregistered, or its grace ends.  Meanwhile only its own
requests move it between rooms.  The end of the grace of a transport that was superseded
means nothing any more, however often the connection is lost and registered again.
-/

namespace Parley

namespace Request

/-- Whether a request tells that the transport of a generation was lost. -/
def detaches (id : ConnectionId) (generation : Generation) : Request → Bool
  | .detach other given _ => other = id && given = generation
  | _ => false

/-- Whether a request tells that the peer of a generation has left. -/
def unregisters (id : ConnectionId) (generation : Generation) : Request → Bool
  | .unregister other given => other = id && given = generation
  | _ => false

/-- Whether a request attaches a connection to a transport when it is carried out. -/
def registers (id : ConnectionId) : Request → Bool
  | .register other _ _ => other = id
  | _ => false

end Request

/-- Whether a connection was attached to a transport by a request. -/
def renews (id : ConnectionId) : Request × Outcome → Bool
  | (.register other _ _, .ok _) => other = id
  | _ => false

/-- Whether a connection is in a room after a request, when nobody else moves it. -/
def moved (id : ConnectionId) (room : RoomName) (member : Bool) : Request × Outcome → Bool
  | (.joinRoom other place, .ok _) => member || (other = id && place = room)
  | (.leaveRoom other place, _) => member && !(other = id && place = room)
  | _ => member

/-- Whether a connection is in a room after several requests, when nobody else moves
it. -/
def memberAfter (id : ConnectionId) (room : RoomName) (member : Bool)
    (log : List (Request × Outcome)) : Bool :=
  log.foldl (moved id room) member

namespace Hub

/-- The transport of a generation was lost, and the connection waits for another. -/
def Lost (hub : Hub) (id : ConnectionId) (generation : Generation) (since : Stamp) : Prop :=
  ∃ connection, hub.connections.get? id = some connection ∧
    connection.generation = generation ∧ connection.link = .detached since

variable {hub later : Hub} {id : ConnectionId} {generation : Generation} {since : Stamp}

theorem Lost.known (lost : hub.Lost id generation since) : id ∈ hub.connections.keys := by
  obtain ⟨connection, present, _⟩ := lost
  exact Table.mem_keys_iff.2 ⟨connection, present⟩

theorem Lost.congr (lost : hub.Lost id generation since)
    (same : later.connections.get? id = hub.connections.get? id) :
    later.Lost id generation since := by
  obtain ⟨connection, present, carries, link⟩ := lost
  exact ⟨connection, same.trans present, carries, link⟩

/-- Another entry may be revised or entered, and its own may get another backlog. -/
theorem Lost.set (lost : hub.Lost id generation since) {other : ConnectionId}
    {revised : Connection}
    (own : other = id → ∀ before, hub.connections.get? id = some before →
      Connection.AgreesButBacklog before revised)
    (connections : later.connections = hub.connections.set other revised) :
    later.Lost id generation since := by
  obtain ⟨connection, present, carries, link⟩ := lost
  by_cases same : id = other
  · have agrees := own same.symm connection present
    refine ⟨revised, ?_, agrees.generation_eq.trans carries, agrees.link_eq.trans link⟩
    rw [connections, same, Table.get?_set_self]
  · refine ⟨connection, ?_, carries, link⟩
    rw [connections, Table.get?_set_of_ne _ same]
    exact present

theorem Lost.deliverTo (lost : hub.Lost id generation since) (payload : Payload)
    (other : ConnectionId) : (hub.deliverTo payload other).Lost id generation since := by
  cases present : hub.connections.get? other with
  | none =>
      rw [deliverTo_of_absent present]
      exact lost
  | some connection =>
      rw [deliverTo_of_present present]
      refine lost.set (fun same before found => ?_) rfl
      obtain rfl := Option.some.inj (present.symm.trans (same ▸ found))
      exact connection.agreesButBacklog_deliver payload hub.outboxes

theorem Lost.purge (lost : hub.Lost id generation since) {other : ConnectionId}
    (different : id ≠ other) : (hub.purge other).Lost id generation since :=
  lost.congr (hub.get?_purge_of_ne different)

/-- The requests that end the wait of a lost connection. -/
def Ends (id : ConnectionId) (generation : Generation) (request : Request) : Prop :=
  request.registers id = true ∨ request.unregisters id generation = true ∨
    request.detaches id generation = true ∨ request = .expire id generation ∨
    request = .shutdown

/-- Whoever takes a lost connection out of the table does it in the name of its
generation. -/
theorem Lost.ne_of_current (lost : hub.Lost id generation since) {other : ConnectionId}
    {given : Generation} {connection : Connection}
    (present : hub.connections.get? other = some connection)
    (current : connection.generation = given) (unlike : ¬(other = id ∧ given = generation)) :
    id ≠ other := by
  rintro rfl
  obtain ⟨entry, found, carries, _⟩ := lost
  obtain rfl := Option.some.inj (present.symm.trans found)
  exact unlike ⟨rfl, current.symm.trans carries⟩

/-- Every other request leaves a lost connection waiting. -/
theorem Lost.serve (lost : hub.Lost id generation since) {request : Request}
    (goes : ¬Ends id generation request) : (hub.serve request).2.Lost id generation since := by
  apply serve_keeps (fun later => later.Lost id generation since) hub request
  case register =>
    rintro other name outbox rfl
    have different : other ≠ id := by
      intro same
      exact goes (.inl (by simp [Request.registers, same]))
    rcases hub.register_cases other name outbox with
      ⟨_, _, result⟩ | ⟨_, _, result⟩ | ⟨_, result⟩ <;> rw [result]
    · exact lost.set (fun same => absurd same different) rfl
    · exact lost
    · exact lost.set (fun same => absurd same different) rfl
  case unregister =>
    rintro other given rfl
    rcases hub.unregister_cases other given with ⟨_, present, current, result⟩ | result <;>
      rw [result]
    · refine lost.purge (lost.ne_of_current present current fun same => goes ?_)
      exact .inr (.inl (by simp [Request.unregisters, same]))
    · exact lost
  case detach =>
    rintro other given undelivered rfl
    have unlike : ¬(other = id ∧ given = generation) := fun same =>
      goes (.inr (.inr (.inl (by simp [Request.detaches, same]))))
    rcases hub.detach_cases other given undelivered with
      ⟨_, result⟩ | ⟨connection, present, _, result⟩ | ⟨_, present, current, _, result⟩ |
        ⟨_, present, current, _, result⟩ <;> rw [result]
    · exact lost
    · refine lost.set (fun same before found => ?_) rfl
      obtain rfl := Option.some.inj (present.symm.trans (same ▸ found))
      exact connection.agreesButBacklog_deliverAll undelivered hub.outboxes
    · exact lost.purge (lost.ne_of_current present current unlike)
    · have different := lost.ne_of_current present current unlike
      exact lost.set (fun same => absurd same.symm different) rfl
  case expire =>
    rintro other given rfl
    rcases hub.expire_cases other given with ⟨_, present, current, _, result⟩ | result <;>
      rw [result]
    · refine lost.purge (lost.ne_of_current present current ?_)
      rintro ⟨rfl, rfl⟩
      exact goes (.inr (.inr (.inr (.inl rfl))))
    · exact lost
  case deliver => exact fun _ payload other lost => lost.deliverTo payload other
  case join =>
    intro other room _
    rcases hub.joinRoom_cases other room with ⟨_, result⟩ | ⟨_, _, _, _, result⟩ <;> rw [result]
    · exact lost
    · exact lost
  case leave => exact fun _ _ _ => lost
  case close => exact fun same => absurd (.inr (.inr (.inr (.inr same)))) goes
  case start => exact lost

/-- The end of its grace takes a lost connection out of the table. -/
theorem Lost.get?_expire (lost : hub.Lost id generation since) :
    (hub.expire id generation).connections.get? id = none := by
  obtain ⟨connection, present, carries, link⟩ := lost
  simp [expire, present, carries, Connection.isLive, link, get?_purge_self]

/-- A lost connection cannot be refused another transport. -/
theorem Lost.registers_eq_false (lost : hub.Lost id generation since) {request : Request}
    (apart : renews id (request, (hub.serve request).1) = false) :
    request.registers id = false := by
  cases request with
  | register other name outbox =>
      refine decide_eq_false fun same => ?_
      rw [same, register_of_known lost.known] at apart
      simp [renews] at apart
  | _ => rfl

theorem Lost.not_ends (lost : hub.Lost id generation since) {request : Request}
    (apart : renews id (request, (hub.serve request).1) = false)
    (remains : request.unregisters id generation = false)
    (once : request.detaches id generation = false) (early : request ≠ .expire id generation)
    (goesOn : request ≠ .shutdown) : ¬Ends id generation request := by
  rintro (registers | unregisters | detaches | ripe | closing)
  · exact Bool.false_ne_true ((lost.registers_eq_false apart).symm.trans registers)
  · exact Bool.false_ne_true (remains.symm.trans unregisters)
  · exact Bool.false_ne_true (once.symm.trans detaches)
  · exact early ripe
  · exact goesOn closing

/-- Its own leave and the end of its grace take a lost connection out of the table. -/
theorem Lost.get?_serve_of_ends (lost : hub.Lost id generation since) {request : Request}
    (ends : Ends id generation request)
    (apart : renews id (request, (hub.serve request).1) = false)
    (once : request.detaches id generation = false) :
    (hub.serve request).2.connections.get? id = none := by
  rcases ends with registers | unregisters | detaches | rfl | rfl
  · exact absurd ((lost.registers_eq_false apart).symm.trans registers) Bool.false_ne_true
  · cases request with
    | unregister other given =>
        obtain ⟨rfl, rfl⟩ := by simpa [Request.unregisters] using unregisters
        obtain ⟨connection, present, carries, _⟩ := lost
        simp [Hub.serve, unregister, present, carries, get?_purge_self]
    | _ => cases unregisters
  · exact absurd (once.symm.trans detaches) Bool.false_ne_true
  · exact lost.get?_expire
  · exact hub.get?_closeAll id

/-- A connection that is gone stays away until it is registered. -/
theorem get?_serve_of_gone (gone : hub.connections.get? id = none) {request : Request}
    (apart : renews id (request, (hub.serve request).1) = false) :
    (hub.serve request).2.connections.get? id = none := by
  cases registers : request.registers id with
  | false =>
      refine @get?_step_of_absent hub id gone (.serve request) fun name outbox same => ?_
      cases same
      simp [Request.registers] at registers
  | true =>
      cases request with
      | register other name outbox =>
          cases answer : (hub.serve (.register other name outbox)).1 with
          | ok accepted =>
              rw [answer] at apart
              exact absurd (of_decide_eq_true registers) (by simpa [renews] using apart)
          | error refusal =>
              rw [serve_of_refused answer]
              exact gone
      | _ => cases registers

/-- The loss of its latest transport leaves a connection waiting for the length of the
grace. -/
theorem detach_begins_grace (current : hub.Current id generation)
    (grace : hub.settings.reconnectGrace.isZero = false) (undelivered : List Payload) :
    ∃ connection, connection.generation = generation ∧
      connection.link = .detached hub.stamp ∧
      (hub.detach id generation undelivered).connections =
        hub.connections.set id connection ∧
      (hub.detach id generation undelivered).roster = hub.roster ∧
      (hub.detach id generation undelivered).now = hub.now ∧
      (hub.detach id generation undelivered).expiries = hub.expiries ++
        [⟨hub.now + hub.settings.reconnectGrace.nanoseconds, id, generation⟩] := by
  obtain ⟨connection, present, rfl⟩ := current
  refine ⟨{ connection with
    link := .detached hub.stamp
    backlog := (connection.backlog.restoreFront undelivered).2 }, rfl, rfl, ?_⟩
  simp [detach, present, grace, Connection.detach_eq]

/-! ## Rooms -/

/-- A request that takes somebody else out of the table leaves the rooms of a connection
alone. -/
theorem Consistent.mem_members_purge (consistent : hub.Consistent) {other : ConnectionId}
    (different : id ≠ other) (room : RoomName) :
    id ∈ (hub.purge other).roster.members room ↔ id ∈ hub.roster.members room := by
  cases present : hub.connections.get? other with
  | none => rw [purge_of_absent present]
  | some connection =>
      rw [purge_of_present present]
      exact (consistent.roster.mem_members_removeEverywhere other id room).trans
        (and_iff_left different)

/-- Nobody gets into a room but by joining it. -/
theorem Consistent.mem_members_of_purge (consistent : hub.Consistent) {other : ConnectionId}
    {room : RoomName} (member : id ∈ (hub.purge other).roster.members room) :
    id ∈ hub.roster.members room := by
  cases present : hub.connections.get? other with
  | none => rwa [purge_of_absent present] at member
  | some connection =>
      rw [purge_of_present present] at member
      exact ((consistent.roster.mem_members_removeEverywhere other id room).1 member).1

theorem roster_deliverToAll (hub : Hub) (payload : Payload) (ids : List ConnectionId) :
    (hub.deliverToAll payload ids).roster = hub.roster := by
  refine @deliverToAll_keeps (fun later => later.roster = hub.roster) payload
    (fun before id same => ?_) hub ids rfl
  cases present : before.connections.get? id with
  | none => rwa [deliverTo_of_absent present]
  | some connection => rwa [deliverTo_of_present present]

theorem roster_register (hub : Hub) (id : ConnectionId) (name : DisplayName)
    (outbox : OutboxId) : (hub.register id name outbox).2.roster = hub.roster := by
  rcases hub.register_cases id name outbox with
    ⟨_, _, result⟩ | ⟨_, _, result⟩ | ⟨_, result⟩ <;> rw [result]
  rfl

/-- A request joins one room, leaves one room, takes one connection out of the table in the
name of its generation, closes the hub, or leaves the roster as it is. -/
theorem roster_serve (hub : Hub) (request : Request) :
    let later := (hub.serve request).2
    ((∀ id room member, moved id room member (request, (hub.serve request).1) = member) ∧
        (later.roster = hub.roster ∨
          ∃ other connection, hub.connections.get? other = some connection ∧
            Ends other connection.generation request ∧ later = hub.purge other)) ∨
      (∃ other place what, request = .joinRoom other place ∧ (hub.serve request).1 = .ok .done ∧
        hub.roster.join other place = .ok (what, later.roster)) ∨
      (∃ other place, request = .leaveRoom other place ∧
        later.roster = (hub.roster.leave other place).2) ∨
      request = .shutdown := by
  cases request with
  | identify requested spare => exact .inl ⟨fun _ _ _ => rfl, .inl rfl⟩
  | register other name outbox =>
      exact .inl ⟨fun _ _ _ => rfl, .inl (hub.roster_register other name outbox)⟩
  | unregister other given =>
      refine .inl ⟨fun _ _ _ => rfl, ?_⟩
      rcases hub.unregister_cases other given with ⟨connection, present, rfl, result⟩ | result
      · exact .inr ⟨other, connection, present, .inr (.inl (by simp [Request.unregisters])), result⟩
      · exact .inl (congrArg roster result)
  | detach other given undelivered =>
      refine .inl ⟨fun _ _ _ => rfl, ?_⟩
      rcases hub.detach_cases other given undelivered with
        ⟨_, result⟩ | ⟨_, _, _, result⟩ | ⟨connection, present, rfl, _, result⟩ |
          ⟨_, _, _, _, result⟩
      · exact .inl (congrArg roster result)
      · exact .inl (by simp only [Hub.serve, result])
      · exact .inr ⟨other, connection, present,
          .inr (.inr (.inl (by simp [Request.detaches]))), result⟩
      · exact .inl (by simp only [Hub.serve, result])
  | expire other given =>
      refine .inl ⟨fun _ _ _ => rfl, ?_⟩
      rcases hub.expire_cases other given with ⟨connection, present, rfl, _, result⟩ | result
      · exact .inr ⟨other, connection, present, .inr (.inr (.inr (.inl rfl))), result⟩
      · exact .inl (congrArg roster result)
  | joinRoom other place =>
      rcases hub.joinRoom_cases other place with ⟨_, result⟩ | ⟨what, _, _, joined, result⟩ <;>
        dsimp only [Hub.serve] <;> rw [result]
      · exact .inl ⟨fun _ _ _ => rfl, .inl rfl⟩
      · exact .inr (.inl ⟨other, place, what, rfl, rfl, joined⟩)
  | leaveRoom other place => exact .inr (.inr (.inl ⟨other, place, rfl, rfl⟩))
  | inspect => exact .inl ⟨fun _ _ _ => rfl, .inl rfl⟩
  | shutdown => exact .inr (.inr (.inr rfl))
  | broadcast payload => exact .inl ⟨fun _ _ _ => rfl, .inl (hub.roster_deliverToAll payload _)⟩
  | sendToRoom place payload sender =>
      exact .inl ⟨fun _ _ _ => rfl, .inl (hub.roster_deliverToAll payload _)⟩
  | sendToName name payload =>
      exact .inl ⟨fun _ _ _ => rfl, .inl (hub.roster_deliverToAll payload _)⟩

/-- While a connection stays in the table, it is in the rooms that its own requests leave it
in. -/
theorem Consistent.mem_members_serve (consistent : hub.Consistent) {request : Request}
    (stays : id ∈ (hub.serve request).2.connections.keys) {room : RoomName} {member : Bool}
    (before : id ∈ hub.roster.members room ↔ member = true) :
    id ∈ (hub.serve request).2.roster.members room ↔
      moved id room member (request, (hub.serve request).1) = true := by
  rcases hub.roster_serve request with
    ⟨unmoved, same | ⟨other, connection, present, ends, result⟩⟩ |
      ⟨other, place, what, rfl, answer, joined⟩ | ⟨other, place, rfl, left⟩ | rfl
  · rw [unmoved, same]
    exact before
  · have different : id ≠ other := by
      rintro rfl
      exact Table.get?_eq_none_iff.1 (hub.get?_purge_self id) (result ▸ stays)
    rw [unmoved, result, consistent.mem_members_purge different]
    exact before
  · rw [answer, Roster.mem_members_join joined, before]
    simp only [moved, Bool.or_eq_true, Bool.and_eq_true, decide_eq_true_eq]
    rw [and_comm, eq_comm (a := id), eq_comm (a := room)]
  · simp only [left, Roster.mem_members_leave, before, moved, Bool.and_eq_true,
      ← Bool.decide_and, Bool.not_eq_true', decide_eq_false_iff_not]
    rw [and_comm (a := room = place), eq_comm (a := id), eq_comm (a := room)]
  · exact absurd stays (Table.get?_eq_none_iff.1 (hub.get?_closeAll id))

/-- A lost connection stays in the table until its wait ends. -/
theorem Lost.mem_members_serve (lost : hub.Lost id generation since)
    (consistent : hub.Consistent) {request : Request} (goes : ¬Ends id generation request)
    {room : RoomName} {member : Bool} (before : id ∈ hub.roster.members room ↔ member = true) :
    id ∈ (hub.serve request).2.roster.members room ↔
      moved id room member (request, (hub.serve request).1) = true :=
  consistent.mem_members_serve (lost.serve goes).known before

/-- Whoever is in a room was there before or has just joined it. -/
theorem Consistent.mem_members_of_serve (consistent : hub.Consistent) {request : Request}
    {room : RoomName} (member : id ∈ (hub.serve request).2.roster.members room) :
    id ∈ hub.roster.members room ∨
      request = .joinRoom id room ∧ (hub.serve request).1 = .ok .done := by
  rcases hub.roster_serve request with
    ⟨_, same | ⟨other, _, _, _, result⟩⟩ | ⟨other, place, what, request, answer, joined⟩ |
      ⟨other, place, _, left⟩ | closing
  · exact .inl (same ▸ member)
  · exact .inl (consistent.mem_members_of_purge (result ▸ member))
  · rcases (Roster.mem_members_join joined).1 member with earlier | ⟨rfl, rfl⟩
    · exact .inl earlier
    · exact .inr ⟨request, answer⟩
  · rw [left, Roster.mem_members_leave] at member
    exact .inl member.1
  · have nobody := consistent.closeAll_eq_empty.2.1
    rw [closing] at member
    simp [Hub.serve, Roster.members, nobody, Index.group] at member

/-! ## Graces -/

/-- A grace begins with the loss of the latest transport of a connection, and with
nothing else. -/
theorem expiries_serve (hub : Hub) (request : Request) :
    (hub.serve request).2.expiries = hub.expiries ∨
      ∃ id generation undelivered, request = .detach id generation undelivered ∧
        hub.settings.reconnectGrace.isZero = false ∧
        (hub.serve request).2.expiries = hub.expiries ++
          [⟨hub.now + hub.settings.reconnectGrace.nanoseconds, id, generation⟩] := by
  have purged (other : ConnectionId) : (hub.purge other).expiries = hub.expiries := by
    cases present : hub.connections.get? other with
    | none => rw [purge_of_absent present]
    | some connection => rw [purge_of_present present]
  by_cases loss : ∃ id generation undelivered, request = .detach id generation undelivered
  · obtain ⟨id, generation, undelivered, rfl⟩ := loss
    simp only [Hub.serve]
    rcases hub.detach_cases id generation undelivered with
      ⟨_, result⟩ | ⟨_, _, _, result⟩ | ⟨_, _, _, _, result⟩ | ⟨_, _, _, grace, result⟩ <;>
      rw [result]
    · exact .inl rfl
    · exact .inl rfl
    · exact .inl (purged id)
    · exact .inr ⟨id, generation, undelivered, rfl, grace, rfl⟩
  · refine .inl ?_
    apply serve_keeps (fun later => later.expiries = hub.expiries) hub request
    case register =>
      intro id name outbox _
      rcases hub.register_cases id name outbox with
        ⟨_, _, result⟩ | ⟨_, _, result⟩ | ⟨_, result⟩ <;> rw [result]
      rfl
    case unregister =>
      intro id generation _
      rcases hub.unregister_cases id generation with ⟨_, _, _, result⟩ | result <;> rw [result]
      exact purged id
    case detach =>
      exact fun id generation undelivered same => absurd ⟨id, generation, undelivered, same⟩ loss
    case expire =>
      intro id generation _
      rcases hub.expire_cases id generation with ⟨_, _, _, _, result⟩ | result <;> rw [result]
      exact purged id
    case deliver =>
      intro later payload id same
      cases present : later.connections.get? id with
      | none => rwa [deliverTo_of_absent present]
      | some connection => rwa [deliverTo_of_present present]
    case join =>
      intro id room _
      rcases hub.joinRoom_cases id room with ⟨_, result⟩ | ⟨_, _, _, _, result⟩ <;> rw [result]
    case leave => exact fun _ _ _ => rfl
    case close =>
      intro _
      unfold closeAll
      split <;> rfl
    case start => rfl

/-! ## Superseded transports -/

/-- A generation was given out, and no entry carries it any more. -/
structure Outdated (hub : Hub) (id : ConnectionId) (generation : Generation) : Prop where
  given : generation ≤ hub.lastGeneration
  superseded : ¬hub.Current id generation

/-- Generations are given out in increasing order. -/
theorem lastGeneration_le_step (hub : Hub) (event : HubEvent) :
    hub.lastGeneration ≤ (hub.step event).lastGeneration := by
  by_cases registration : ∃ other name outbox, event = .serve (.register other name outbox)
  · obtain ⟨other, name, outbox, rfl⟩ := registration
    simp only [step, serve]
    rcases hub.register_cases other name outbox with
      ⟨_, _, result⟩ | ⟨_, _, result⟩ | ⟨_, result⟩ <;> rw [result]
    · exact Nat.le_succ _
    · exact Nat.le_refl _
    · exact Nat.le_succ _
  · have inherits : hub.InheritsFrom (hub.step event) :=
      hub.inheritsFrom_step fun other name outbox same => registration ⟨other, name, outbox, same⟩
    exact Nat.le_of_eq inherits.1.symm

theorem Outdated.inherit (outdated : hub.Outdated id generation)
    (inherits : hub.InheritsFrom later) : later.Outdated id generation where
  given := inherits.1 ▸ outdated.given
  superseded := by
    rintro ⟨connection, present, carries⟩
    obtain ⟨before, there, same, _⟩ := inherits.2 id connection present
    exact outdated.superseded ⟨before, there, same.symm.trans carries⟩

/-- The entry of somebody else does not matter. -/
theorem Outdated.enter (outdated : hub.Outdated id generation) {other : ConnectionId}
    {entry : Connection} (different : id ≠ other)
    (latest : hub.lastGeneration ≤ later.lastGeneration)
    (connections : later.connections = hub.connections.set other entry) :
    later.Outdated id generation where
  given := Nat.le_trans outdated.given latest
  superseded := by
    rintro ⟨connection, present, carries⟩
    rw [connections, Table.get?_set_of_ne _ different] at present
    exact outdated.superseded ⟨connection, present, carries⟩

/-- The generation of a registration outdates all others of the connection. -/
theorem outdated_of_entered (given : generation ≤ hub.lastGeneration) {connection : Connection}
    (carries : connection.generation = hub.lastGeneration + 1)
    (latest : later.lastGeneration = hub.lastGeneration + 1)
    (present : later.connections.get? id = some connection) : later.Outdated id generation where
  given := latest ▸ Nat.le_succ_of_le given
  superseded := by
    rintro ⟨entry, found, same⟩
    obtain rfl := Option.some.inj (present.symm.trans found)
    rw [carries] at same
    exact absurd (same ▸ given) (Nat.not_succ_le_self _)

theorem outdated_register (given : generation ≤ hub.lastGeneration) {name : DisplayName}
    {outbox : OutboxId} {answer : Answer}
    (registered : (hub.register id name outbox).1 = .ok answer) :
    (hub.register id name outbox).2.Outdated id generation := by
  rcases hub.register_cases id name outbox with
    ⟨connection, _, result⟩ | ⟨_, _, result⟩ | ⟨_, result⟩ <;> rw [result] at registered ⊢
  · exact outdated_of_entered given (by rw [Connection.attach_eq]) rfl (Table.get?_set_self _ _ _)
  · cases registered
  · exact outdated_of_entered given rfl rfl (Table.get?_set_self _ _ _)

/-- No generation is given out again. -/
theorem Outdated.step (outdated : hub.Outdated id generation) (event : HubEvent) :
    (hub.step event).Outdated id generation := by
  by_cases registration : ∃ other name outbox, event = .serve (.register other name outbox)
  · obtain ⟨other, name, outbox, rfl⟩ := registration
    simp only [Hub.step, Hub.serve]
    cases registered : (hub.register other name outbox).1 with
    | error refusal =>
        have result : (hub.register other name outbox).2 = hub.release outbox :=
          @serve_of_refused hub (.register other name outbox) _ registered
        rw [result]
        exact outdated.inherit (hub.inheritsFrom_release outbox)
    | ok answer =>
        by_cases same : other = id
        · rw [same] at registered ⊢
          exact outdated_register outdated.given registered
        · rcases hub.register_cases other name outbox with
            ⟨_, _, result⟩ | ⟨_, _, result⟩ | ⟨_, result⟩ <;> rw [result] at registered ⊢
          · exact outdated.enter (Ne.symm same) (Nat.le_succ _) rfl
          · cases registered
          · exact outdated.enter (Ne.symm same) (Nat.le_succ _) rfl
  · exact outdated.inherit (hub.inheritsFrom_step fun other name outbox same =>
      registration ⟨other, name, outbox, same⟩)

end Hub
end Parley
