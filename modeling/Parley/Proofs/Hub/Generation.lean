import Parley.Proofs.Hub.Run

/-!
# Generations

Registrations give out generations in increasing order, and an entry carries the
one that was given out last for its id.  A request in the name of any other
generation finds it superseded: it can neither remove nor detach the connection,
and what it hands over is delivered like any other payload.
-/

namespace Parley

/-- Nothing but the transport and what waits for one differs, and there is no other
transport than before. -/
structure Connection.SamePeer (before after : Connection) : Prop where
  eq : after = { before with link := after.link, backlog := after.backlog }
  linked : ∀ outbox, after.link = .live outbox → before.link = .live outbox

namespace Connection.SamePeer

variable {before after : Connection}

theorem refl (connection : Connection) : connection.SamePeer connection :=
  ⟨rfl, fun _ link => link⟩

theorem trans {first second third : Connection} (left : first.SamePeer second)
    (right : second.SamePeer third) : first.SamePeer third :=
  ⟨by rw [right.eq, left.eq], fun outbox link => left.linked outbox (right.linked outbox link)⟩

theorem of_agreesButBacklog (agrees : AgreesButBacklog before after) : before.SamePeer after :=
  ⟨by rw [agrees], fun _ link => agrees.link_eq ▸ link⟩

/-- A connection that loses its transport is still the same peer. -/
theorem of_detach (connection : Connection) (undelivered : List Payload) (since : Stamp)
    (boxes : Outboxes) :
    connection.SamePeer (connection.detach undelivered since boxes).2.1 := by
  rw [detach_eq]
  exact ⟨rfl, fun outbox link => by cases link⟩

theorem name_eq (same : before.SamePeer after) : after.name = before.name := by rw [same.eq]

theorem generation_eq (same : before.SamePeer after) : after.generation = before.generation := by
  rw [same.eq]

theorem connectedAt_eq (same : before.SamePeer after) :
    after.connectedAt = before.connectedAt := by rw [same.eq]

end Connection.SamePeer

namespace Hub

/-- The id and the generation that an event gives out. -/
def granted? (hub : Hub) : HubEvent → Option (ConnectionId × Generation)
  | .serve (.register id name outbox) =>
      match (hub.register id name outbox).1 with
      | .ok (.registered generation) => some (id, generation)
      | _ => none
  | _ => none

/-- The ids and generations that a run gives out, in order. -/
def grants (hub : Hub) : List HubEvent → List (ConnectionId × Generation)
  | [] => []
  | event :: rest => (hub.granted? event).toList ++ (hub.step event).grants rest

/-- The generation given out last for an id. -/
def latest? (id : ConnectionId) (grants : List (ConnectionId × Generation)) :
    Option Generation :=
  (grants.filter fun grant => grant.1 = id).getLast?.map Prod.snd

theorem latest?_append_singleton (id other : ConnectionId) (generation : Generation)
    (earlier : List (ConnectionId × Generation)) :
    latest? id (earlier ++ [(other, generation)]) =
      if other = id then some generation else latest? id earlier := by
  unfold latest?
  by_cases same : other = id <;> simp [List.filter_append, same]

/-! ## Entries keep their generations -/

/-- No generation was given out, and every entry is that of a peer that was there before. -/
structure Retains (earlier later : Hub) : Prop where
  generation : later.lastGeneration = earlier.lastGeneration
  entries : ∀ id after, later.connections.get? id = some after →
    ∃ before, earlier.connections.get? id = some before ∧ before.SamePeer after

/-- Entries may leave. -/
theorem Retains.subset {earlier later : Hub}
    (generation : later.lastGeneration = earlier.lastGeneration)
    (fewer : ∀ id entry, later.connections.get? id = some entry →
      earlier.connections.get? id = some entry) : earlier.Retains later :=
  ⟨generation, fun id entry found => ⟨entry, fewer id entry found, .refl entry⟩⟩

theorem Retains.congr {earlier later : Hub}
    (generation : later.lastGeneration = earlier.lastGeneration)
    (connections : later.connections = earlier.connections) : earlier.Retains later :=
  .subset generation fun _ _ found => connections ▸ found

theorem Retains.refl (hub : Hub) : hub.Retains hub := .congr rfl rfl

theorem Retains.trans {first second third : Hub} (left : first.Retains second)
    (right : second.Retains third) : first.Retains third := by
  refine ⟨right.generation.trans left.generation, fun id after found => ?_⟩
  obtain ⟨middle, there, same⟩ := right.entries id after found
  obtain ⟨before, origin, earlier⟩ := left.entries id middle there
  exact ⟨before, origin, earlier.trans same⟩

/-- An entry may be revised as long as it is the same peer. -/
theorem Retains.set {earlier later : Hub} {id : ConnectionId} {before revised : Connection}
    (present : earlier.connections.get? id = some before) (same : before.SamePeer revised)
    (generation : later.lastGeneration = earlier.lastGeneration)
    (connections : later.connections = earlier.connections.set id revised) :
    earlier.Retains later := by
  refine ⟨generation, fun other after found => ?_⟩
  rw [connections, Table.get?_set] at found
  split at found
  · rename_i equal
    obtain rfl := Option.some.inj found
    exact ⟨before, equal ▸ present, same⟩
  · exact ⟨after, found, .refl after⟩

theorem retains_deliverTo (hub : Hub) (payload : Payload) (id : ConnectionId) :
    hub.Retains (hub.deliverTo payload id) := by
  cases present : hub.connections.get? id with
  | none =>
      rw [deliverTo_of_absent present]
      exact .refl hub
  | some connection =>
      rw [deliverTo_of_present present]
      have agrees := connection.agreesButBacklog_deliver payload hub.outboxes
      exact .set present (.of_agreesButBacklog agrees) rfl rfl

theorem retains_purge (hub : Hub) (id : ConnectionId) : hub.Retains (hub.purge id) := by
  cases present : hub.connections.get? id with
  | none =>
      rw [purge_of_absent present]
      exact .refl hub
  | some connection =>
      rw [purge_of_present present]
      refine .subset rfl fun other entry found => ?_
      rw [Table.get?_erase] at found
      split at found
      · cases found
      · exact found

theorem retains_closeAll (hub : Hub) : hub.Retains hub.closeAll := by
  unfold closeAll
  split
  · exact .refl hub
  · exact .subset rfl fun id entry found => by simp at found

theorem retains_detach (hub : Hub) (id : ConnectionId) (generation : Generation)
    (undelivered : List Payload) : hub.Retains (hub.detach id generation undelivered) := by
  rcases hub.detach_cases id generation undelivered with
    ⟨_, result⟩ | ⟨connection, present, _, result⟩ | ⟨_, _, _, _, result⟩ |
      ⟨connection, present, _, _, result⟩ <;> rw [result]
  · exact .refl hub
  · have agrees := connection.agreesButBacklog_deliverAll undelivered hub.outboxes
    exact .set present (.of_agreesButBacklog agrees) rfl rfl
  · exact hub.retains_purge id
  · exact .set present (.of_detach connection undelivered hub.stamp hub.outboxes) rfl rfl

/-- Only a registration changes more of an entry than its transport and its backlog. -/
theorem retains_serve (hub : Hub) {request : Request}
    (other : ∀ id name outbox, request ≠ .register id name outbox) :
    hub.Retains (hub.serve request).2 := by
  apply serve_keeps hub.Retains hub request
  case register => exact fun id name outbox same => absurd same (other id name outbox)
  case unregister =>
    intro id generation _
    rcases hub.unregister_cases id generation with ⟨_, _, _, result⟩ | result <;> rw [result]
    · exact hub.retains_purge id
    · exact .refl hub
  case detach => exact fun id generation undelivered _ => hub.retains_detach id generation _
  case expire =>
    intro id generation _
    rcases hub.expire_cases id generation with ⟨_, _, _, _, result⟩ | result <;> rw [result]
    · exact hub.retains_purge id
    · exact .refl hub
  case deliver =>
    exact fun later payload id earlier => earlier.trans (later.retains_deliverTo payload id)
  case join =>
    intro id room _
    rcases hub.joinRoom_cases id room with ⟨_, result⟩ | ⟨_, _, _, _, result⟩ <;> rw [result]
    · exact .refl hub
    · exact .congr rfl rfl
  case leave => exact fun _ _ _ => .congr rfl rfl
  case close => exact fun _ => hub.retains_closeAll
  case start => exact .refl hub

/-- Only a registration enters a connection or gives out a generation. -/
theorem retains_step (hub : Hub) {event : HubEvent}
    (other : ∀ id name outbox, event ≠ .serve (.register id name outbox)) :
    hub.Retains (hub.step event) := by
  cases event with
  | serve request =>
      exact hub.retains_serve fun id name outbox same => other id name outbox (by rw [same])
  | stop => exact hub.retains_closeAll
  | bring outbox capacity =>
      rcases hub.bring_cases outbox capacity with result | ⟨_, result⟩ <;> rw [result]
      · exact .refl hub
      · exact .congr rfl rfl
  | act outbox act => exact .congr rfl rfl
  | elapse moment => exact .congr rfl rfl

/-- A connection that was there before with the same generation, and with the transport
that it is attached to. -/
def Continues (hub : Hub) (id : ConnectionId) (connection : Connection) : Prop :=
  ∃ before, hub.connections.get? id = some before ∧
    connection.generation = before.generation ∧
    ∀ outbox, connection.link = .live outbox → before.link = .live outbox

/-- Every entry was there before with the same generation. -/
def InheritsFrom (earlier later : Hub) : Prop :=
  later.lastGeneration = earlier.lastGeneration ∧
    ∀ id connection, later.connections.get? id = some connection → earlier.Continues id connection

/-- A peer that was there before has the generation that it had. -/
theorem Retains.inheritsFrom {earlier later : Hub} (retains : earlier.Retains later) :
    earlier.InheritsFrom later := by
  refine ⟨retains.generation, fun id connection present => ?_⟩
  obtain ⟨before, there, same⟩ := retains.entries id connection present
  exact ⟨before, there, same.generation_eq, same.linked⟩

theorem InheritsFrom.congr {earlier later : Hub}
    (generation : later.lastGeneration = earlier.lastGeneration)
    (connections : later.connections = earlier.connections) : earlier.InheritsFrom later :=
  (Retains.congr generation connections).inheritsFrom

theorem InheritsFrom.refl (hub : Hub) : hub.InheritsFrom hub := .congr rfl rfl

theorem inheritsFrom_deliverTo (hub : Hub) (payload : Payload) (id : ConnectionId) :
    hub.InheritsFrom (hub.deliverTo payload id) :=
  (hub.retains_deliverTo payload id).inheritsFrom

theorem inheritsFrom_release (hub : Hub) (outbox : OutboxId) :
    hub.InheritsFrom (hub.release outbox) :=
  .congr rfl rfl

theorem inheritsFrom_purge (hub : Hub) (id : ConnectionId) : hub.InheritsFrom (hub.purge id) :=
  (hub.retains_purge id).inheritsFrom

theorem inheritsFrom_closeAll (hub : Hub) : hub.InheritsFrom hub.closeAll :=
  hub.retains_closeAll.inheritsFrom

theorem inheritsFrom_detach (hub : Hub) (id : ConnectionId) (generation : Generation)
    (undelivered : List Payload) : hub.InheritsFrom (hub.detach id generation undelivered) :=
  (hub.retains_detach id generation undelivered).inheritsFrom

theorem inheritsFrom_serve (hub : Hub) {request : Request}
    (other : ∀ id name outbox, request ≠ .register id name outbox) :
    hub.InheritsFrom (hub.serve request).2 :=
  (hub.retains_serve other).inheritsFrom

theorem inheritsFrom_step (hub : Hub) {event : HubEvent}
    (other : ∀ id name outbox, event ≠ .serve (.register id name outbox)) :
    hub.InheritsFrom (hub.step event) :=
  (hub.retains_step other).inheritsFrom

/-- Only its own registration attaches a connection to another transport. -/
theorem link_serve {hub : Hub} {request : Request} {id : ConnectionId}
    {connection : Connection} {outbox : OutboxId}
    (present : (hub.serve request).2.connections.get? id = some connection)
    (link : connection.link = .live outbox) :
    (∃ before, hub.connections.get? id = some before ∧ before.link = .live outbox) ∨
      ∃ name, request = .register id name outbox := by
  by_cases registration : ∃ other name brought, request = .register other name brought
  · obtain ⟨other, name, brought, rfl⟩ := registration
    -- whoever registers, the entry is a new one of its own or it was there before
    have entered (entry : Connection) (attached : entry.link = .live brought)
        (found : (hub.connections.set other entry).get? id = some connection) :
        (∃ before, hub.connections.get? id = some before ∧ before.link = .live outbox) ∨
          ∃ again, Request.register other name brought = .register id again outbox := by
      rw [Table.get?_set] at found
      split at found
      · rename_i same
        obtain rfl := Option.some.inj found
        obtain rfl := Link.live.inj (link.symm.trans attached)
        exact .inr ⟨name, by rw [same]⟩
      · exact .inl ⟨connection, found, link⟩
    simp only [serve] at present
    rcases hub.register_cases other name brought with
      ⟨before, _, result⟩ | ⟨_, _, result⟩ | ⟨_, result⟩ <;> rw [result] at present
    · exact entered _ (by rw [Connection.attach_eq]) present
    · exact .inl ⟨connection, present, link⟩
    · exact entered _ rfl present
  · have inherits : hub.InheritsFrom (hub.serve request).2 :=
      hub.inheritsFrom_serve fun other name brought same => registration ⟨other, name, brought, same⟩
    obtain ⟨before, there, _, linked⟩ := inherits.2 id connection present
    exact .inl ⟨before, there, linked outbox link⟩

/-! ## Generations increase -/

/-- The generations given out so far increase up to the last one, and every entry
carries the one that was given out last for its id. -/
structure Granted (grants : List (ConnectionId × Generation)) (hub : Hub) : Prop where
  increasing : (grants.map Prod.snd).Pairwise (· < ·)
  bounded : ∀ grant ∈ grants, grant.2 ≤ hub.lastGeneration
  latest : ∀ id connection, hub.connections.get? id = some connection →
    latest? id grants = some connection.generation

theorem mem_of_latest? {id : ConnectionId} {generation : Generation}
    {grants : List (ConnectionId × Generation)} (latest : latest? id grants = some generation) :
    (id, generation) ∈ grants := by
  obtain ⟨⟨other, given⟩, last, rfl⟩ := Option.map_eq_some_iff.1 latest
  have member := List.mem_of_getLast? last
  rw [List.mem_filter, decide_eq_true_eq] at member
  obtain ⟨present, rfl⟩ := member
  exact present

/-- No entry carries a generation that is still to be given out. -/
theorem Granted.le {grants : List (ConnectionId × Generation)} {hub : Hub}
    (granted : Granted grants hub) {id : ConnectionId} {connection : Connection}
    (present : hub.connections.get? id = some connection) :
    connection.generation ≤ hub.lastGeneration :=
  granted.bounded _ (mem_of_latest? (granted.latest id connection present))

theorem Granted.new (settings : Settings) (startedAt : Stamp) :
    Granted [] (Hub.new settings startedAt) where
  increasing := by simp
  bounded grant member := by cases member
  latest id connection present := by simp [Hub.new] at present

theorem Granted.inherit {grants : List (ConnectionId × Generation)} {hub later : Hub}
    (granted : Granted grants hub) (inherits : hub.InheritsFrom later) :
    Granted grants later where
  increasing := granted.increasing
  bounded grant member := by
    rw [inherits.1]
    exact granted.bounded grant member
  latest id connection present := by
    obtain ⟨before, there, same, _⟩ := inherits.2 id connection present
    rw [same]
    exact granted.latest id before there

/-- The next generation is given out with an entry that carries it. -/
theorem Granted.grant {grants : List (ConnectionId × Generation)} {hub later : Hub}
    (granted : Granted grants hub) (id : ConnectionId) {connection : Connection}
    (carries : connection.generation = hub.lastGeneration + 1)
    (generation : later.lastGeneration = hub.lastGeneration + 1)
    (connections : later.connections = hub.connections.set id connection) :
    Granted (grants ++ [(id, hub.lastGeneration + 1)]) later where
  increasing := by
    rw [List.map_append, List.pairwise_append]
    refine ⟨granted.increasing, by simp, fun earlier member last equal => ?_⟩
    obtain ⟨grant, present, rfl⟩ := List.mem_map.1 member
    have below := granted.bounded grant present
    simp only [List.map_cons, List.map_nil, List.mem_singleton] at equal
    rw [equal]
    exact Nat.lt_succ_of_le below
  bounded grant member := by
    rw [generation]
    rcases List.mem_append.1 member with earlier | last
    · exact Nat.le_succ_of_le (granted.bounded grant earlier)
    · obtain rfl := List.mem_singleton.1 last
      exact Nat.le_refl _
  latest other entry present := by
    rw [latest?_append_singleton]
    rw [connections, Table.get?_set] at present
    by_cases same : other = id
    · simp only [same, if_true] at present ⊢
      obtain rfl := Option.some.inj present
      rw [carries]
    · rw [if_neg same] at present
      rw [if_neg fun equal => same equal.symm]
      exact granted.latest other entry present

theorem Granted.register {grants : List (ConnectionId × Generation)} {hub : Hub}
    (granted : Granted grants hub) (id : ConnectionId) (name : DisplayName)
    (outbox : OutboxId) :
    Granted (grants ++ (hub.granted? (.serve (.register id name outbox))).toList)
      (hub.register id name outbox).2 := by
  rcases hub.register_cases id name outbox with
    ⟨connection, _, result⟩ | ⟨limit, _, result⟩ | ⟨_, result⟩ <;>
    simp only [granted?, result]
  · exact granted.grant id (by rw [Connection.attach_eq]) rfl rfl
  · simpa using granted.inherit (hub.inheritsFrom_release outbox)
  · exact granted.grant id rfl rfl rfl

theorem Granted.step {grants : List (ConnectionId × Generation)} {hub : Hub}
    (granted : Granted grants hub) (event : HubEvent) :
    Granted (grants ++ (hub.granted? event).toList) (hub.step event) := by
  by_cases registration : ∃ id name outbox, event = .serve (.register id name outbox)
  · obtain ⟨id, name, outbox, rfl⟩ := registration
    exact granted.register id name outbox
  · have other (id : ConnectionId) (name : DisplayName) (outbox : OutboxId) :
        event ≠ .serve (.register id name outbox) := fun same => registration ⟨id, name, outbox, same⟩
    have nothing : hub.granted? event = none := by
      unfold granted?
      split
      · rename_i id name outbox
        exact absurd rfl (other id name outbox)
      · rfl
    simpa [nothing] using granted.inherit (hub.inheritsFrom_step other)

theorem Granted.run {grants : List (ConnectionId × Generation)} {hub : Hub}
    (granted : Granted grants hub) (events : List HubEvent) :
    Granted (grants ++ hub.grants events) (hub.run events) := by
  induction events generalizing grants hub with
  | nil => simpa [Hub.grants] using granted
  | cons event rest induction =>
      rw [Hub.grants, ← List.append_assoc]
      exact induction (granted.step event)

/-- Only its own registration enters a connection. -/
theorem get?_step_of_absent {hub : Hub} {id : ConnectionId}
    (absent : hub.connections.get? id = none) {event : HubEvent}
    (other : ∀ name outbox, event ≠ .serve (.register id name outbox)) :
    (hub.step event).connections.get? id = none := by
  by_cases registration : ∃ other name outbox, event = .serve (.register other name outbox)
  · obtain ⟨entered, name, outbox, rfl⟩ := registration
    have different : id ≠ entered := by
      rintro rfl
      exact other name outbox rfl
    simp only [step, serve]
    rcases hub.register_cases entered name outbox with
      ⟨_, _, result⟩ | ⟨_, _, result⟩ | ⟨_, result⟩ <;> rw [result]
    · exact (Table.get?_set_of_ne _ different _).trans absent
    · exact absent
    · exact (Table.get?_set_of_ne _ different _).trans absent
  · have inherits : hub.InheritsFrom (hub.step event) :=
      hub.inheritsFrom_step fun other name outbox same => registration ⟨other, name, outbox, same⟩
    cases found : (hub.step event).connections.get? id with
    | none => rfl
    | some entry =>
        obtain ⟨before, there, _⟩ := inherits.2 id entry found
        rw [absent] at there
        cases there

/-! ## Superseded transports -/

/-- The generation of the latest transport of a connection. -/
def Current (hub : Hub) (id : ConnectionId) (generation : Generation) : Prop :=
  ∃ connection, hub.connections.get? id = some connection ∧ connection.generation = generation

theorem unregister_of_not_current {hub : Hub} {id : ConnectionId} {generation : Generation}
    (superseded : ¬hub.Current id generation) : hub.unregister id generation = hub := by
  rcases hub.unregister_cases id generation with ⟨connection, present, same, _⟩ | result
  · exact absurd ⟨connection, present, same⟩ superseded
  · exact result

theorem expire_of_not_current {hub : Hub} {id : ConnectionId} {generation : Generation}
    (superseded : ¬hub.Current id generation) : hub.expire id generation = hub := by
  rcases hub.expire_cases id generation with ⟨connection, present, same, _⟩ | result
  · exact absurd ⟨connection, present, same⟩ superseded
  · exact result

theorem foldl_deliverTo_of_absent {hub : Hub} {id : ConnectionId}
    (absent : hub.connections.get? id = none) (payloads : List Payload) :
    payloads.foldl (fun hub payload => hub.deliverTo payload id) hub = hub := by
  induction payloads with
  | nil => rfl
  | cons payload rest induction => rw [List.foldl_cons, deliverTo_of_absent absent, induction]

/-- Several payloads for one connection, delivered one after the other. -/
theorem foldl_deliverTo {hub : Hub} {id : ConnectionId} {connection : Connection}
    (present : hub.connections.get? id = some connection) (payloads : List Payload) :
    payloads.foldl (fun hub payload => hub.deliverTo payload id) hub =
      { hub with
        connections :=
          hub.connections.set id (connection.deliverAll payloads hub.outboxes).2.1
        outboxes := (connection.deliverAll payloads hub.outboxes).2.2 } := by
  induction payloads generalizing hub connection with
  | nil => simp [Table.set_of_get?_eq_some present]
  | cons payload rest induction =>
      rw [List.foldl_cons, deliverTo_of_present present, induction (Table.get?_set_self _ _ _)]
      simp only [Table.set_set, Connection.snd_deliverAll_cons]

/-- A superseded transport only has what it could not write delivered. -/
theorem detach_of_not_current {hub : Hub} {id : ConnectionId} {generation : Generation}
    (superseded : ¬hub.Current id generation) (undelivered : List Payload) :
    hub.detach id generation undelivered =
      undelivered.foldl (fun hub payload => hub.deliverTo payload id) hub := by
  rcases hub.detach_cases id generation undelivered with
    ⟨absent, result⟩ | ⟨connection, present, _, result⟩ | ⟨connection, present, same, _⟩ |
      ⟨connection, present, same, _⟩
  · rw [result, foldl_deliverTo_of_absent absent]
  · rw [result, foldl_deliverTo present]
  · exact absurd ⟨connection, present, same⟩ superseded
  · exact absurd ⟨connection, present, same⟩ superseded

/-- What deliveries to one connection leave alone. -/
structure OnlyDelivers (hub : Hub) (id : ConnectionId) (later : Hub) : Prop where
  roster : later.roster = hub.roster
  expiries : later.expiries = hub.expiries
  others : ∀ other, other ≠ id → later.connections.get? other = hub.connections.get? other
  entry : ∀ connection, hub.connections.get? id = some connection →
    ∃ revised, later.connections.get? id = some revised ∧
      Connection.AgreesButBacklog connection revised
  elsewhere : ∀ outbox,
    (∀ connection, hub.connections.get? id = some connection → connection.link ≠ .live outbox) →
    later.outboxes.get? outbox = hub.outboxes.get? outbox

theorem onlyDelivers_foldl (hub : Hub) (id : ConnectionId) (payloads : List Payload) :
    hub.OnlyDelivers id (payloads.foldl (fun hub payload => hub.deliverTo payload id) hub) := by
  cases present : hub.connections.get? id with
  | none =>
      rw [foldl_deliverTo_of_absent present]
      exact ⟨rfl, rfl, fun _ _ => rfl, fun _ found => absurd (present.symm.trans found) (by simp),
        fun _ _ => rfl⟩
  | some connection =>
      rw [foldl_deliverTo present]
      refine ⟨rfl, rfl, fun other different => Table.get?_set_of_ne _ different _,
        fun before found => ?_, fun outbox elsewhere => ?_⟩
      · obtain rfl := Option.some.inj (present.symm.trans found)
        exact ⟨_, Table.get?_set_self _ _ _, connection.agreesButBacklog_deliverAll payloads _⟩
      · exact connection.get?_deliverAll_of_ne payloads _ (elsewhere connection present)

/-! ## Leaving the table -/

/-- The events that take a connection out of the table: the end of its latest
transport when nothing is kept for it, the end of its grace while it is detached,
and the end of the hub. -/
def Removes (hub : Hub) (id : ConnectionId) (connection : Connection) : HubEvent → Prop
  | .serve (.unregister other generation) => other = id ∧ generation = connection.generation
  | .serve (.detach other generation _) =>
      other = id ∧ generation = connection.generation ∧
        hub.settings.reconnectGrace.isZero = true
  | .serve (.expire other generation) =>
      other = id ∧ generation = connection.generation ∧ connection.isLive = false
  | .serve .shutdown | .stop => True
  | _ => False

theorem get?_deliverTo_eq_none_iff (hub : Hub) (payload : Payload) (id other : ConnectionId) :
    (hub.deliverTo payload id).connections.get? other = none ↔
      hub.connections.get? other = none := by
  cases present : hub.connections.get? id with
  | none => rw [deliverTo_of_absent present]
  | some connection =>
      rw [deliverTo_of_present present]
      dsimp only
      rw [Table.get?_set]
      by_cases same : other = id <;> simp [same, present]

theorem get?_purge_of_ne (hub : Hub) {id other : ConnectionId} (different : other ≠ id) :
    (hub.purge id).connections.get? other = hub.connections.get? other := by
  cases present : hub.connections.get? id with
  | none => rw [purge_of_absent present]
  | some connection =>
      rw [purge_of_present present]
      exact Table.get?_erase_of_ne _ different

theorem get?_purge_self (hub : Hub) (id : ConnectionId) :
    (hub.purge id).connections.get? id = none := by
  cases present : hub.connections.get? id with
  | none => rw [purge_of_absent present, present]
  | some connection =>
      rw [purge_of_present present]
      exact Table.get?_erase_self _ id

/-- No other request takes a connection out of the table. -/
theorem get?_serve_ne_none {hub : Hub} {id : ConnectionId} {connection : Connection}
    (present : hub.connections.get? id = some connection) {request : Request}
    (spares : ¬hub.Removes id connection (.serve request)) :
    (hub.serve request).2.connections.get? id ≠ none := by
  have there : hub.connections.get? id ≠ none := by simp [present]
  have spared {other : ConnectionId} {entry : Connection}
      (found : hub.connections.get? other = some entry)
      (reason : other = id → entry = connection → False) :
      (hub.purge other).connections.get? id ≠ none := by
    have different : id ≠ other := by
      rintro rfl
      exact reason rfl (Option.some.inj (found.symm.trans present))
    rwa [hub.get?_purge_of_ne different]
  have revised (other : ConnectionId) (entry : Connection) :
      (hub.connections.set other entry).get? id ≠ none := by
    rw [Table.get?_set]
    split
    · simp
    · exact there
  apply serve_keeps (fun later => later.connections.get? id ≠ none) hub request
  case register =>
    intro other name outbox _
    rcases hub.register_cases other name outbox with
      ⟨_, _, result⟩ | ⟨_, _, result⟩ | ⟨_, result⟩ <;> rw [result]
    · exact revised other _
    · exact there
    · exact revised other _
  case unregister =>
    intro other generation same
    rcases hub.unregister_cases other generation with ⟨entry, found, current, result⟩ | result <;>
      rw [result]
    · refine spared found fun sameId sameEntry => spares ?_
      rw [same, ← current, sameEntry]
      exact ⟨sameId, rfl⟩
    · exact there
  case detach =>
    intro other generation undelivered same
    rcases hub.detach_cases other generation undelivered with
      ⟨_, result⟩ | ⟨_, _, _, result⟩ | ⟨entry, found, current, grace, result⟩ |
        ⟨_, _, _, _, result⟩ <;> rw [result]
    · exact there
    · exact revised other _
    · refine spared found fun sameId sameEntry => spares ?_
      rw [same, ← current, sameEntry]
      exact ⟨sameId, rfl, grace⟩
    · exact revised other _
  case expire =>
    intro other generation same
    rcases hub.expire_cases other generation with ⟨entry, found, current, dead, result⟩ | result <;>
      rw [result]
    · refine spared found fun sameId sameEntry => spares ?_
      rw [same, ← current]
      rw [sameEntry] at dead ⊢
      exact ⟨sameId, rfl, dead⟩
    · exact there
  case deliver =>
    intro later payload other kept
    rwa [ne_eq, get?_deliverTo_eq_none_iff]
  case join =>
    intro other room _
    rcases hub.joinRoom_cases other room with ⟨_, result⟩ | ⟨_, _, _, _, result⟩ <;> rw [result]
    · exact there
    · exact there
  case leave => exact fun _ _ _ => there
  case close =>
    intro same
    rw [same] at spares
    exact absurd trivial spares
  case start => exact there

theorem get?_closeAll (hub : Hub) (id : ConnectionId) :
    hub.closeAll.connections.get? id = none := by
  unfold closeAll
  split
  · rename_i nothing
    exact Table.get?_eq_none_of_isEmpty nothing id
  · rfl

/-- A connection leaves the table by exactly the events that remove it. -/
theorem get?_step_eq_none_iff {hub : Hub} {id : ConnectionId} {connection : Connection}
    (present : hub.connections.get? id = some connection) (event : HubEvent) :
    (hub.step event).connections.get? id = none ↔ hub.Removes id connection event := by
  constructor
  · intro gone
    refine Classical.byContradiction fun spares => ?_
    cases event with
    | serve request => exact get?_serve_ne_none present spares gone
    | stop => exact spares trivial
    | bring outbox capacity =>
        rcases hub.bring_cases outbox capacity with result | ⟨_, result⟩ <;>
          simp [result, present] at gone
    | act outbox act => simp [step, present] at gone
    | elapse moment => simp [step, present] at gone
  · intro removes
    cases event with
    | serve request =>
        cases request with
        | unregister other generation =>
            obtain ⟨rfl, rfl⟩ := removes
            simp [step, serve, unregister, present, get?_purge_self]
        | detach other generation undelivered =>
            obtain ⟨rfl, rfl, grace⟩ := removes
            simp [step, serve, detach, present, grace, get?_purge_self]
        | expire other generation =>
            obtain ⟨rfl, rfl, dead⟩ := removes
            simp [step, serve, expire, present, dead, get?_purge_self]
        | shutdown => exact hub.get?_closeAll id
        | _ => exact removes.elim
    | stop => exact hub.get?_closeAll id
    | _ => exact removes.elim

/-- A teardown that comes late harms no reconnection.  Along every run (1) the
generations that successive registrations give out increase, (2) every entry carries
the one that was given out last for its id, (3) under a generation that is not the
current one of an id, unregistering and expiring have no effect at all and detaching
only delivers what is handed over, in order, and (4) a connection leaves the table by
the end of its latest transport without a grace, by the end of its grace, or with the
hub, and by nothing else. -/
theorem late_teardown_is_harmless (settings : Settings) (startedAt : Stamp)
    (events : List HubEvent) :
    let start := Hub.new settings startedAt
    let hub := start.run events
    ((start.grants events).map Prod.snd).Pairwise (· < ·) ∧
      (∀ id connection, hub.connections.get? id = some connection →
        latest? id (start.grants events) = some connection.generation) ∧
      (∀ id generation, ¬hub.Current id generation →
        (hub.serve (.unregister id generation)).2 = hub ∧
          (hub.serve (.expire id generation)).2 = hub ∧
          ∀ undelivered,
            (hub.serve (.detach id generation undelivered)).2 =
                undelivered.foldl (fun hub payload => hub.deliverTo payload id) hub ∧
              hub.OnlyDelivers id (hub.serve (.detach id generation undelivered)).2) ∧
      (∀ id connection event, hub.connections.get? id = some connection →
        ((hub.step event).connections.get? id = none ↔ hub.Removes id connection event)) := by
  intro start hub
  have granted : Granted (start.grants events) hub := (Granted.new settings startedAt).run events
  refine ⟨granted.increasing, granted.latest, fun id generation superseded => ?_,
    fun id connection event present => get?_step_eq_none_iff present event⟩
  refine ⟨unregister_of_not_current superseded, expire_of_not_current superseded,
    fun undelivered => ?_⟩
  have delivers : (hub.serve (.detach id generation undelivered)).2 =
      undelivered.foldl (fun hub payload => hub.deliverTo payload id) hub :=
    detach_of_not_current superseded undelivered
  refine ⟨delivers, ?_⟩
  rw [delivers]
  exact hub.onlyDelivers_foldl id undelivered

end Hub
end Parley
