import Parley.Proofs.Hub.Delivery

/-!
# Fan-out

A message goes to some of the connections of a hub.  `HandsTo` says what it does to
each of them, and that it does nothing else; this leaves a single hub that can
follow, so the order in which the recipients are served cannot matter.
-/

namespace Parley

namespace Hub

/-- A message has reached its recipients, each of them once, and nobody else. -/
structure HandsTo (payload : Payload) (recipients : ConnectionId → Prop) (hub later : Hub) :
    Prop where
  /-- An open outbox with room takes the payload at its end. -/
  queued : ∀ id connection outbox box, recipients id →
    hub.connections.get? id = some connection → connection.link = .live outbox →
    hub.outboxes.get? outbox = some box → box.isOpen = true → box.held.length < box.capacity →
    later.connections.get? id = some connection ∧
      later.outboxes.get? outbox = some { box with held := box.held ++ [payload] }
  /-- An open outbox without room drops it. -/
  dropped : ∀ id connection outbox box, recipients id →
    hub.connections.get? id = some connection → connection.link = .live outbox →
    hub.outboxes.get? outbox = some box → box.isOpen = true → box.capacity ≤ box.held.length →
    later.connections.get? id = some connection ∧ later.outboxes.get? outbox = some box
  /-- Without an open outbox it is pushed to the backlog. -/
  kept : ∀ id connection, recipients id → hub.connections.get? id = some connection →
    connection.isOpen hub.outboxes = false →
    later.connections.get? id =
        some { connection with backlog := (connection.backlog.push payload).2 } ∧
      ∀ outbox, connection.link = .live outbox →
        later.outboxes.get? outbox = hub.outboxes.get? outbox
  spared : ∀ id, ¬recipients id → later.connections.get? id = hub.connections.get? id
  elsewhere : ∀ outbox, (∀ id connection, recipients id →
      hub.connections.get? id = some connection → connection.link ≠ .live outbox) →
    later.outboxes.get? outbox = hub.outboxes.get? outbox
  ids : later.connections.keys = hub.connections.keys
  outboxes : later.outboxes.keys = hub.outboxes.keys
  rest : later = { hub with connections := later.connections, outboxes := later.outboxes }

variable {hub : Hub} {payload : Payload} {recipients : ConnectionId → Prop}

/-- What a message does to a recipient is settled by the link and the outbox before it. -/
theorem HandsTo.recipient_eq {first second : Hub} (left : HandsTo payload recipients hub first)
    (right : HandsTo payload recipients hub second) {id : ConnectionId} {connection : Connection}
    (meant : recipients id) (present : hub.connections.get? id = some connection) :
    first.connections.get? id = second.connections.get? id ∧
      ∀ outbox, connection.link = .live outbox →
        first.outboxes.get? outbox = second.outboxes.get? outbox := by
  have closed (noOutbox : connection.isOpen hub.outboxes = false) :
      first.connections.get? id = second.connections.get? id ∧
        ∀ outbox, connection.link = .live outbox →
          first.outboxes.get? outbox = second.outboxes.get? outbox := by
    obtain ⟨leftEntry, leftBox⟩ := left.kept id connection meant present noOutbox
    obtain ⟨rightEntry, rightBox⟩ := right.kept id connection meant present noOutbox
    exact ⟨leftEntry.trans rightEntry.symm, fun outbox attached =>
      (leftBox outbox attached).trans (rightBox outbox attached).symm⟩
  cases attached : connection.link with
  | detached since =>
      refine ⟨(closed ?_).1, fun _ impossible => by cases impossible⟩
      simp [Connection.isOpen, attached]
  | live outbox =>
      suffices both : first.connections.get? id = second.connections.get? id ∧
          first.outboxes.get? outbox = second.outboxes.get? outbox by
        refine ⟨both.1, fun other same => ?_⟩
        cases same
        exact both.2
      cases found : hub.outboxes.get? outbox with
      | none =>
          have noOutbox : connection.isOpen hub.outboxes = false := by
            simp [Connection.isOpen, attached, found]
          exact ⟨(closed noOutbox).1, (closed noOutbox).2 outbox attached⟩
      | some box =>
          cases listening : box.isOpen with
          | false =>
              have noOutbox : connection.isOpen hub.outboxes = false := by
                simp [Connection.isOpen, attached, found, listening]
              exact ⟨(closed noOutbox).1, (closed noOutbox).2 outbox attached⟩
          | true =>
              by_cases room : box.held.length < box.capacity
              · obtain ⟨leftEntry, leftBox⟩ :=
                  left.queued id connection outbox box meant present attached found listening room
                obtain ⟨rightEntry, rightBox⟩ :=
                  right.queued id connection outbox box meant present attached found listening room
                exact ⟨leftEntry.trans rightEntry.symm, leftBox.trans rightBox.symm⟩
              · have full := Nat.le_of_not_lt room
                obtain ⟨leftEntry, leftBox⟩ :=
                  left.dropped id connection outbox box meant present attached found listening full
                obtain ⟨rightEntry, rightBox⟩ :=
                  right.dropped id connection outbox box meant present attached found listening full
                exact ⟨leftEntry.trans rightEntry.symm, leftBox.trans rightBox.symm⟩

/-- Only one hub can follow. -/
theorem HandsTo.unique {first second : Hub} (left : HandsTo payload recipients hub first)
    (right : HandsTo payload recipients hub second) : first = second := by
  have connections : first.connections = second.connections := by
    refine Table.eq_of_get?_eq (left.ids.trans right.ids.symm) fun id => ?_
    by_cases meant : recipients id
    · cases present : hub.connections.get? id with
      | some connection => exact (left.recipient_eq right meant present).1
      | none =>
          have absent {later : Hub} (same : later.connections.keys = hub.connections.keys) :
              later.connections.get? id = none := by
            rw [Table.get?_eq_none_iff] at present ⊢
            rwa [same]
          rw [absent left.ids, absent right.ids]
    · rw [left.spared id meant, right.spared id meant]
  have outboxes : first.outboxes = second.outboxes := by
    refine Table.eq_of_get?_eq (left.outboxes.trans right.outboxes.symm) fun outbox => ?_
    by_cases attached : ∃ id connection, recipients id ∧
        hub.connections.get? id = some connection ∧ connection.link = .live outbox
    · obtain ⟨id, connection, meant, present, link⟩ := attached
      exact (left.recipient_eq right meant present).2 outbox link
    · have nobody (id : ConnectionId) (connection : Connection) (meant : recipients id)
          (present : hub.connections.get? id = some connection) :
          connection.link ≠ .live outbox :=
        fun link => attached ⟨id, connection, meant, present, link⟩
      rw [left.elsewhere outbox nobody, right.elsewhere outbox nobody]
  rw [left.rest, right.rest, connections, outboxes]

/-! ## Deliveries to several connections -/

/-- A delivery makes no connection, no outbox and nothing else new. -/
theorem rest_deliverTo (hub : Hub) (payload : Payload) (id : ConnectionId) :
    (hub.deliverTo payload id).connections.keys = hub.connections.keys ∧
      (hub.deliverTo payload id).outboxes.keys = hub.outboxes.keys ∧
      hub.deliverTo payload id =
        { hub with
          connections := (hub.deliverTo payload id).connections
          outboxes := (hub.deliverTo payload id).outboxes } := by
  cases present : hub.connections.get? id with
  | none => simp [deliverTo_of_absent present]
  | some connection =>
      rw [deliverTo_of_present present]
      refine ⟨Table.keys_set_of_mem (Table.mem_keys_iff.2 ⟨connection, present⟩) _, ?_, rfl⟩
      rcases connection.deliver_cases payload hub.outboxes with
        ⟨_, box, _, found, _, result⟩ | ⟨_, _, _, _, _, result⟩ | ⟨_, result⟩ <;> rw [result]
      exact Table.keys_set_of_mem (Table.mem_keys_iff.2 ⟨box, found⟩) _

theorem rest_deliverToAll (hub : Hub) (payload : Payload) (ids : List ConnectionId) :
    (hub.deliverToAll payload ids).connections.keys = hub.connections.keys ∧
      (hub.deliverToAll payload ids).outboxes.keys = hub.outboxes.keys ∧
      hub.deliverToAll payload ids =
        { hub with
          connections := (hub.deliverToAll payload ids).connections
          outboxes := (hub.deliverToAll payload ids).outboxes } := by
  refine @deliverToAll_keeps (fun later => later.connections.keys = hub.connections.keys ∧
    later.outboxes.keys = hub.outboxes.keys ∧
    later = { hub with connections := later.connections, outboxes := later.outboxes })
    payload (fun later id kept => ?_) hub ids ⟨rfl, rfl, rfl⟩
  obtain ⟨sameIds, sameOutboxes, same⟩ := later.rest_deliverTo payload id
  refine ⟨sameIds.trans kept.1, sameOutboxes.trans kept.2.1, ?_⟩
  rw [same, kept.2.2]

/-- Deliveries reach no outbox but those of the recipients. -/
theorem get?_outboxes_deliverToAll {outbox : OutboxId} {ids : List ConnectionId}
    (nobody : ∀ id ∈ ids, ∀ connection, hub.connections.get? id = some connection →
      connection.link ≠ .live outbox) (payload : Payload) :
    (hub.deliverToAll payload ids).outboxes.get? outbox = hub.outboxes.get? outbox := by
  induction ids generalizing hub with
  | nil => rfl
  | cons first rest induction =>
      have later : (hub.deliverTo payload first).outboxes.get? outbox =
          hub.outboxes.get? outbox := by
        cases present : hub.connections.get? first with
        | none => rw [deliverTo_of_absent present]
        | some connection =>
            rw [deliverTo_of_present present]
            exact connection.get?_deliver_of_ne payload _
              (nobody first List.mem_cons_self connection present)
      refine (induction fun id member connection present link => ?_).trans later
      obtain ⟨before, there, _, linked⟩ :=
        (hub.inheritsFrom_deliverTo payload first).2 id connection present
      exact nobody id (List.mem_cons_of_mem first member) before there (linked outbox link)

/-- Deliveries to different connections hand the payload to each of them. -/
theorem handsTo_deliverToAll (separate : hub.Separate) (payload : Payload)
    {ids : List ConnectionId} (distinct : ids.Nodup) :
    HandsTo payload (· ∈ ids) hub (hub.deliverToAll payload ids) := by
  have receives {id : ConnectionId} {connection : Connection} (meant : id ∈ ids)
      (present : hub.connections.get? id = some connection) :
      Receives id connection [payload] hub (hub.deliverToAll payload ids) := by
    have received := receives_deliverToAll separate present payload distinct
    rwa [if_pos meant] at received
  obtain ⟨sameIds, sameOutboxes, same⟩ := hub.rest_deliverToAll payload ids
  refine ⟨?queued, ?dropped, ?kept, ?spared, ?elsewhere, sameIds, sameOutboxes, same⟩
  case queued =>
    intro id connection outbox box meant present attached found listening room
    have result := Connection.deliver_of_accepted attached found
      (Outbox.answer_eq_accepted_iff.2 ⟨listening, room⟩) payload
    have received := receives meant present
    refine ⟨received.entry.trans ?_, (received.outbox outbox attached).trans ?_⟩ <;>
      rw [Connection.snd_deliverAll_cons, result, Connection.deliverAll_nil]
    exact Table.get?_set_self _ outbox _
  case dropped =>
    intro id connection outbox box meant present attached found listening full
    have result := Connection.deliver_of_full attached found
      (Outbox.answer_eq_full_iff.2 ⟨listening, full⟩) payload
    have received := receives meant present
    refine ⟨received.entry.trans ?_, (received.outbox outbox attached).trans ?_⟩ <;>
      rw [Connection.snd_deliverAll_cons, result, Connection.deliverAll_nil]
    exact found
  case kept =>
    intro id connection meant present noOutbox
    have result := Connection.deliver_of_not_isOpen noOutbox payload
    have received := receives meant present
    refine ⟨received.entry.trans ?_, fun outbox attached =>
      (received.outbox outbox attached).trans ?_⟩ <;>
      rw [Connection.snd_deliverAll_cons, result, Connection.deliverAll_nil]
    rfl
  case spared =>
    intro id other
    cases present : hub.connections.get? id with
    | some connection =>
        exact (sameFor_deliverToAll separate present payload other).entry.trans present
    | none =>
        rw [Table.get?_eq_none_iff] at present ⊢
        rwa [sameIds]
  case elsewhere =>
    intro outbox nobody
    exact get?_outboxes_deliverToAll (fun id member connection present =>
      nobody id connection member present) payload

/-- The order in which the recipients of a message are served does not matter. -/
theorem deliverToAll_perm (separate : hub.Separate) (payload : Payload)
    {left right : List ConnectionId} (distinct : left.Nodup) (perm : right.Perm left) :
    hub.deliverToAll payload right = hub.deliverToAll payload left := by
  have either : (· ∈ right) = (· ∈ left) := funext fun _ => propext perm.mem_iff
  have reordered := handsTo_deliverToAll separate payload (perm.nodup_iff.2 distinct)
  rw [either] at reordered
  exact reordered.unique (handsTo_deliverToAll separate payload distinct)

/-! ## Display names -/

/-- The display name that an event gives a connection. -/
def nameGiven? (id : ConnectionId) : HubEvent → Option DisplayName
  | .serve (.register other name _) => if other = id then some name else none
  | _ => none

theorem nameGiven?_eq_none {event : HubEvent}
    (noRegister : ∀ id name outbox, event ≠ .serve (.register id name outbox))
    (id : ConnectionId) : nameGiven? id event = none := by
  unfold nameGiven?
  split
  · rename_i other name outbox
    exact absurd rfl (noRegister other name outbox)
  · rfl

/-- The display name of the latest registration of a connection. -/
def latestName? (id : ConnectionId) (events : List HubEvent) : Option DisplayName :=
  (events.filterMap (nameGiven? id)).getLast?

theorem latestName?_append_singleton (id : ConnectionId) (earlier : List HubEvent)
    (event : HubEvent) :
    latestName? id (earlier ++ [event]) = (nameGiven? id event).or (latestName? id earlier) := by
  unfold latestName?
  cases given : nameGiven? id event <;> simp [List.filterMap_append, given]

/-- Every connection bears the name that it was given last. -/
def Named (names : ConnectionId → Option DisplayName) (hub : Hub) : Prop :=
  ∀ id connection, hub.connections.get? id = some connection → names id = some connection.name

variable {names : ConnectionId → Option DisplayName}

/-- Peers that were there before keep their names. -/
theorem Named.retained {later : Hub} (named : Named names hub) (retains : hub.Retains later) :
    Named names later := by
  intro id after found
  obtain ⟨before, there, same⟩ := retains.entries id after found
  rw [same.name_eq]
  exact named id before there

/-- A registration gives its connection a name, unless it is refused, which leaves the
connection out of the table. -/
theorem Named.register (named : Named names hub) (id : ConnectionId) (name : DisplayName)
    (outbox : OutboxId) :
    Named (fun other => if id = other then some name else names other)
      (hub.register id name outbox).2 := by
  have entered {later : Hub} {revised : Connection} (sameName : revised.name = name)
      (connections : later.connections = hub.connections.set id revised) :
      Named (fun other => if id = other then some name else names other) later := by
    intro other entry found
    rw [connections, Table.get?_set] at found
    split at found
    · rename_i same
      obtain rfl := Option.some.inj found
      simp [same, sameName]
    · rename_i different
      exact (if_neg (Ne.symm different)).trans (named other entry found)
  rcases hub.register_cases id name outbox with
    ⟨connection, _, result⟩ | ⟨_, absent, result⟩ | ⟨_, result⟩ <;> rw [result]
  · refine entered ?_ rfl
    rw [Connection.attach_eq]
  · intro other entry found
    have different : id ≠ other := by
      rintro rfl
      exact absurd (absent.symm.trans found) (by simp)
    exact (if_neg different).trans (named other entry found)
  · exact entered rfl rfl

theorem Named.step (named : Named names hub) (event : HubEvent) :
    Named (fun id => (nameGiven? id event).or (names id)) (hub.step event) := by
  by_cases registration : ∃ id name outbox, event = .serve (.register id name outbox)
  · obtain ⟨id, name, outbox, rfl⟩ := registration
    have given : (fun other => if id = other then some name else names other) =
        fun other => (nameGiven? other (.serve (.register id name outbox))).or (names other) := by
      funext other
      by_cases same : id = other <;> simp [nameGiven?, same]
    rw [← given]
    exact named.register id name outbox
  · have noRegister (id : ConnectionId) (name : DisplayName) (outbox : OutboxId) :
        event ≠ .serve (.register id name outbox) :=
      fun same => registration ⟨id, name, outbox, same⟩
    simp only [nameGiven?_eq_none noRegister, Option.none_or]
    exact named.retained (hub.retains_step noRegister)

/-- Along a run every connection bears the name of its latest registration. -/
theorem Named.run {earlier : List HubEvent} (named : Named (latestName? · earlier) hub)
    (events : List HubEvent) : Named (latestName? · (earlier ++ events)) (hub.run events) := by
  induction events generalizing hub earlier with
  | nil => rwa [List.append_nil]
  | cons event rest induction =>
      rw [← List.singleton_append, ← List.append_assoc]
      refine induction ?_
      simp only [latestName?_append_singleton]
      exact named.step event

theorem Named.new (settings : Settings) (startedAt : Stamp) :
    Named (latestName? · []) (Hub.new settings startedAt) :=
  fun _ _ present => by cases present

/-! ## Messages -/

/-- A message is handed to exactly the connections that it is meant for.  In every hub
that a run leads to, as long as different connections have different outboxes, a
broadcast reaches every connection; a message to a room reaches the members of the room,
all of them known, without the sender, and has no effect when there is no such room; a
message to a name reaches the connections whose latest registration gave that name.
Each of them is handed the payload once, and in whatever order they are served. -/
theorem fan_out_is_exact (settings : Settings) (startedAt : Stamp) (events : List HubEvent)
    (separate : ((Hub.new settings startedAt).run events).Separate) (payload : Payload) :
    let hub := (Hub.new settings startedAt).run events
    (HandsTo payload (· ∈ hub.connections.keys) hub (hub.serve (.broadcast payload)).2 ∧
        ∀ ids : List ConnectionId, ids.Perm hub.connections.keys →
          hub.deliverToAll payload ids = (hub.serve (.broadcast payload)).2) ∧
      (∀ room sender,
        HandsTo payload (fun id => id ∈ hub.roster.members room ∧ some id ≠ sender) hub
            (hub.serve (.sendToRoom room payload sender)).2 ∧
          (∀ id, id ∈ hub.roster.members room → id ∈ hub.connections.keys) ∧
          (hub.roster.containsRoom room = false →
            (hub.serve (.sendToRoom room payload sender)).2 = hub) ∧
          ∀ ids : List ConnectionId, ids.Perm (hub.roster.members room) →
            hub.deliverToAll payload (ids.filter fun id => some id ≠ sender) =
              (hub.serve (.sendToRoom room payload sender)).2) ∧
      ∀ name,
        HandsTo payload (fun id => id ∈ hub.connections.keys ∧ latestName? id events = some name)
            hub (hub.serve (.sendToName name payload)).2 ∧
          ∀ ids : List ConnectionId, ids.Perm (hub.nameAudience name) →
            hub.deliverToAll payload ids = (hub.serve (.sendToName name payload)).2 := by
  intro hub
  have consistent : hub.Consistent := (Consistent.new settings startedAt).run events
  have named : Named (latestName? · events) hub := (Named.new settings startedAt).run events
  have hands {audience : List ConnectionId} {recipients : ConnectionId → Prop}
      (distinct : audience.Nodup) (meant : ∀ id, id ∈ audience ↔ recipients id) :
      HandsTo payload recipients hub (hub.deliverToAll payload audience) := by
    have handed := handsTo_deliverToAll separate payload distinct
    rwa [funext fun id => propext (meant id)] at handed
  refine ⟨⟨?everybody, ?anyOrder⟩, fun room sender => ⟨?members, ?known, ?nobody, ?anyMembers⟩,
    fun name => ⟨?named, ?anyNames⟩⟩
  case everybody => exact handsTo_deliverToAll separate payload (nodup_keys _)
  case anyOrder => exact fun ids perm => deliverToAll_perm separate payload (nodup_keys _) perm
  case members =>
    refine hands (consistent.nodup_roomAudience room sender) fun id => ?_
    simp [roomAudience]
  case known =>
    exact fun id member => Table.contains_iff_mem_keys.1 (consistent.known id room member)
  case nobody =>
    intro noRoom
    have noMembers : hub.roster.members room = [] := by
      have absent : hub.roster.rooms.get? room = none := by
        simpa [Roster.containsRoom, Table.contains] using noRoom
      exact consistent.roster.rooms_full.get?_eq_none_iff.1 absent
    simp [serve, roomAudience, noMembers, deliverToAll]
  case anyMembers =>
    intro ids perm
    exact deliverToAll_perm separate payload (consistent.nodup_roomAudience room sender)
      (perm.filter _)
  case named =>
    refine hands (hub.nodup_nameAudience name) fun id => ?_
    rw [mem_nameAudience_iff, Table.mem_keys_iff]
    constructor
    · rintro ⟨connection, present, rfl⟩
      exact ⟨⟨connection, present⟩, named id connection present⟩
    · rintro ⟨⟨connection, present⟩, latest⟩
      exact ⟨connection, present, Option.some.inj ((named id connection present).symm.trans latest)⟩
  case anyNames =>
    exact fun ids perm => deliverToAll_perm separate payload (hub.nodup_nameAudience name) perm

/-- A broadcast to an outbox that is full, one with room and a connection without a
transport. -/
theorem fan_out_to_full_open_and_detached :
    let settings : Settings := { backlogCapacity := 2 }
    let bob : ConnectionId := ⟨"bob", by decide⟩
    let alice : ConnectionId := ⟨"alice", by decide⟩
    let carol : ConnectionId := ⟨"carol", by decide⟩
    let events : List HubEvent := [.bring 0 1, .serve (.register bob .default 0),
      .serve (.broadcast "old"), .bring 1 2, .serve (.register alice .default 1), .bring 2 2,
      .serve (.register carol .default 2), .serve (.detach carol 3 [])]
    let hub := (Hub.new settings 0).run events
    let later := (hub.serve (.broadcast "news")).2
    hub.Separate ∧
      later.outboxes.get? 0 = some { capacity := 1, held := ["old"] } ∧
      later.outboxes.get? 1 = some { capacity := 2, held := ["news"] } ∧
      (later.connections.get? carol).map (·.backlog.held) = some ["news"] := by
  intro settings bob alice carol events hub later
  let entry (id : ConnectionId) (generation : Generation) (link : Link) : Connection :=
    { id, name := .default, generation, link, backlog := { capacity := 2 }, connectedAt := 0 }
  have separate : hub.Separate := by decide
  have hands := (fan_out_is_exact settings 0 events separate "news").1.1
  have full := hands.dropped bob (entry bob 1 (.live 0)) 0 { capacity := 1, held := ["old"] }
    (by decide) (by decide) rfl (by decide) rfl (by decide)
  have room := hands.queued alice (entry alice 2 (.live 1)) 1 { capacity := 2 }
    (by decide) (by decide) rfl (by decide) rfl (by decide)
  have lost := hands.kept carol (entry carol 3 (.detached 0)) (by decide) (by decide) rfl
  exact ⟨separate, full.2, room.2, by rw [lost.1]; rfl⟩

end Hub
end Parley
