import Parley.Proofs.Hub.Attached

/-!
# Who holds an outbox

A hub offers payloads to an outbox through the connection that is attached to it.  When
it takes a connection off its outbox it lets go of the outbox, so an outbox that was
registered is attached or released, and none is forgotten.
-/

namespace Parley

/-- The hub has let go of an outbox. -/
def Outboxes.Released (boxes : Outboxes) (outbox : OutboxId) : Prop :=
  ∃ box, boxes.get? outbox = some box ∧ box.released = true

namespace Outboxes

variable {before after : Outboxes} {outbox : OutboxId}

theorem Released.extend (released : before.Released outbox) (growth : before.Extends after) :
    after.Released outbox := by
  obtain ⟨box, found, gave⟩ := released
  obtain ⟨later, there, grew⟩ := growth.exists found
  exact ⟨later, there, grew.released gave⟩

theorem released_release {box : Outbox} (found : before.get? outbox = some box) :
    (before.release outbox).Released outbox :=
  ⟨box.release, by rw [get?_release_self, found]; rfl, rfl⟩

end Outboxes

/-- A transport never takes a release back. -/
theorem OutboxAct.released_apply (act : OutboxAct) {box : Outbox} (released : box.released = true) :
    (act.apply box).released = true := by
  cases act with
  | take count => exact released
  | refuse => exact released
  | abandon => exact released
  | confirm confirmation => exact (Reader.fed_confirm confirmation box).released released

namespace Hub

/-- The hub holds an outbox no longer: it has let go of it, and no connection is
attached to it. -/
structure LetGo (hub : Hub) (outbox : OutboxId) : Prop where
  released : hub.outboxes.Released outbox
  unattached : outbox ∉ hub.attached

/-- An outbox is attached, or the hub has let go of it. -/
structure Accounted (hub : Hub) (outbox : OutboxId) : Prop where
  exists_box : ∃ box, hub.outboxes.get? outbox = some box
  held : outbox ∈ hub.attached ∨ hub.outboxes.Released outbox

variable {hub later : Hub} {outbox : OutboxId}

theorem letGo_release {box : Outbox} (found : hub.outboxes.get? outbox = some box)
    (spare : outbox ∉ hub.attached) : (hub.release outbox).LetGo outbox where
  released := Outboxes.released_release found
  unattached := spare

/-- Without connections, what is accounted for has been let go of. -/
theorem Accounted.letGo (accounted : hub.Accounted outbox) (empty : hub.connections = .empty) :
    hub.LetGo outbox := by
  have spare : outbox ∉ hub.attached := by
    intro attached
    obtain ⟨id, connection, present, _⟩ := mem_attached_iff.1 attached
    rw [empty] at present
    cases present
  exact ⟨accounted.held.resolve_left spare, spare⟩

theorem Accounted.of_released (released : hub.outboxes.Released outbox) :
    hub.Accounted outbox where
  exists_box := by
    obtain ⟨box, found, _⟩ := released
    exact ⟨box, found⟩
  held := .inr released

/-- It is enough to look at the connection that an outbox is attached to. -/
theorem Accounted.extend (accounted : hub.Accounted outbox)
    (growth : hub.outboxes.Extends later.outboxes)
    (keeps : ∀ id connection, hub.connections.get? id = some connection →
      connection.link = .live outbox →
      outbox ∈ later.attached ∨ later.outboxes.Released outbox) : later.Accounted outbox where
  exists_box := by
    obtain ⟨box, found⟩ := accounted.exists_box
    obtain ⟨grown, there, _⟩ := growth.exists found
    exact ⟨grown, there⟩
  held := by
    rcases accounted.held with attached | released
    · obtain ⟨id, connection, present, link⟩ := mem_attached_iff.1 attached
      exact keeps id connection present link
    · exact .inr (released.extend growth)

/-- Connections that stay keep their outboxes. -/
theorem Accounted.congr (accounted : hub.Accounted outbox)
    (growth : hub.outboxes.Extends later.outboxes)
    (connections : later.connections = hub.connections) : later.Accounted outbox :=
  accounted.extend growth fun id connection present link =>
    .inl (mem_attached_iff.2 ⟨id, connection, connections ▸ present, link⟩)

/-- An entry may be revised or entered, as long as it keeps its outbox or the hub lets go
of it. -/
theorem Accounted.set (accounted : hub.Accounted outbox) {id : ConnectionId}
    {revised : Connection} (growth : hub.outboxes.Extends later.outboxes)
    (connections : later.connections = hub.connections.set id revised)
    (own : ∀ before, hub.connections.get? id = some before → before.link = .live outbox →
      revised.link = .live outbox ∨ later.outboxes.Released outbox) :
    later.Accounted outbox := by
  refine accounted.extend growth fun other connection present link => ?_
  by_cases same : other = id
  · subst same
    refine (own connection present link).imp_left fun attached => mem_attached_iff.2 ?_
    exact ⟨other, revised, by rw [connections, Table.get?_set_self], attached⟩
  · refine .inl (mem_attached_iff.2 ⟨other, connection, ?_, link⟩)
    rw [connections, Table.get?_set_of_ne _ same]
    exact present

/-- Taking a connection off its outbox lets go of it. -/
theorem Accounted.released_releaseLink (accounted : hub.Accounted outbox)
    {boxes : Outboxes} (growth : hub.outboxes.Extends boxes) {link : Link}
    (attached : link = .live outbox) : (Connection.releaseLink link boxes).Released outbox := by
  obtain ⟨box, found⟩ := accounted.exists_box
  obtain ⟨grown, there, _⟩ := growth.exists found
  rw [attached]
  exact Outboxes.released_release there

theorem Accounted.release (accounted : hub.Accounted outbox) (other : OutboxId) :
    (hub.release other).Accounted outbox :=
  accounted.congr (hub.outboxes.extends_release other) rfl

theorem Accounted.deliverTo (accounted : hub.Accounted outbox) (payload : Payload)
    (id : ConnectionId) : (hub.deliverTo payload id).Accounted outbox := by
  have growth := hub.extends_deliverTo payload id
  cases present : hub.connections.get? id with
  | none =>
      rw [deliverTo_of_absent present]
      exact accounted
  | some connection =>
      rw [deliverTo_of_present present] at growth ⊢
      refine accounted.set growth rfl fun before found link => .inl ?_
      obtain rfl := Option.some.inj (present.symm.trans found)
      exact (connection.agreesButBacklog_deliver payload hub.outboxes).link_eq.trans link

theorem Accounted.purge (accounted : hub.Accounted outbox) (id : ConnectionId) :
    (hub.purge id).Accounted outbox := by
  refine accounted.extend (hub.extends_purge id) fun other connection present link => ?_
  by_cases same : other = id
  · subst same
    rw [purge_of_present present]
    exact .inr (accounted.released_releaseLink (.refl _) link)
  · refine .inl (mem_attached_iff.2 ⟨other, connection, ?_, link⟩)
    rw [hub.get?_purge_of_ne same]
    exact present

theorem Accounted.register (accounted : hub.Accounted outbox) (id : ConnectionId)
    (name : DisplayName) (brought : OutboxId) :
    (hub.register id name brought).2.Accounted outbox := by
  have growth := hub.extends_serve (.register id name brought)
  simp only [serve] at growth
  rcases hub.register_cases id name brought with
    ⟨connection, present, result⟩ | ⟨_, _, result⟩ | ⟨absent, result⟩ <;> rw [result] at growth ⊢
  · refine accounted.set growth rfl fun before found link => .inr ?_
    obtain rfl := Option.some.inj (present.symm.trans found)
    exact accounted.released_releaseLink
      (Connection.extends_replay brought connection.backlog.held hub.outboxes) link
  · exact accounted.release brought
  · refine accounted.set growth rfl fun before found => ?_
    rw [absent] at found
    cases found

/-- The outbox that a registration brings is attached, or the hub lets go of it. -/
theorem accounted_register (found : ∃ box, hub.outboxes.get? outbox = some box)
    (id : ConnectionId) (name : DisplayName) :
    (hub.register id name outbox).2.Accounted outbox := by
  have growth := hub.extends_serve (.register id name outbox)
  simp only [serve] at growth
  obtain ⟨box, there⟩ := found
  obtain ⟨grown, still, _⟩ := growth.exists there
  refine ⟨⟨grown, still⟩, ?_⟩
  have entered {entry : Connection} (link : entry.link = .live outbox) {later : Hub}
      (connections : later.connections = hub.connections.set id entry) :
      outbox ∈ later.attached :=
    mem_attached_iff.2 ⟨id, entry, by rw [connections, Table.get?_set_self], link⟩
  rcases hub.register_cases id name outbox with
    ⟨connection, _, result⟩ | ⟨_, _, result⟩ | ⟨_, result⟩ <;> rw [result]
  · exact .inl (entered (by rw [Connection.attach_eq]) rfl)
  · exact .inr (Outboxes.released_release there)
  · exact .inl (entered rfl rfl)

theorem Accounted.detach (accounted : hub.Accounted outbox) (id : ConnectionId)
    (generation : Generation) (undelivered : List Payload) :
    (hub.detach id generation undelivered).Accounted outbox := by
  have growth := hub.extends_serve (.detach id generation undelivered)
  simp only [serve] at growth
  rcases hub.detach_cases id generation undelivered with
    ⟨_, result⟩ | ⟨connection, present, _, result⟩ | ⟨_, _, _, _, result⟩ |
      ⟨connection, present, _, _, result⟩ <;> rw [result] at growth ⊢
  · exact accounted
  · refine accounted.set growth rfl fun before found link => .inl ?_
    obtain rfl := Option.some.inj (present.symm.trans found)
    exact (connection.agreesButBacklog_deliverAll undelivered hub.outboxes).link_eq.trans link
  · exact accounted.purge id
  · refine accounted.set growth rfl fun before found link => .inr ?_
    obtain rfl := Option.some.inj (present.symm.trans found)
    exact accounted.released_releaseLink (.refl _) link

theorem released_releaseLinks {connections : List Connection} {connection : Connection}
    (member : connection ∈ connections) (attached : connection.link = .live outbox)
    {boxes : Outboxes} (found : ∃ box, boxes.get? outbox = some box) :
    (connections.foldl
      (fun boxes connection => Connection.releaseLink connection.link boxes) boxes).Released
        outbox := by
  induction connections generalizing boxes with
  | nil => cases member
  | cons first rest induction =>
      obtain ⟨box, there⟩ := found
      rcases List.mem_cons.1 member with rfl | later
      · have released : (Connection.releaseLink connection.link boxes).Released outbox := by
          rw [attached]
          exact Outboxes.released_release there
        exact released.extend (letsGo_releaseLinks rest _).extends
      · obtain ⟨grown, still, _⟩ :=
          (Connection.extends_releaseLink first.link boxes).exists there
        exact induction later ⟨grown, still⟩

/-- Closing all connections lets go of their outboxes. -/
theorem Accounted.closeAll (accounted : hub.Accounted outbox) :
    hub.closeAll.Accounted outbox := by
  refine accounted.extend hub.extends_closeAll fun id connection present link => .inr ?_
  have member : connection ∈ hub.connections.values :=
    List.mem_map.2 ⟨(id, connection), Table.mem_entries_iff.2 present, rfl⟩
  unfold Hub.closeAll
  split
  · rename_i nothing
    rw [Table.get?_eq_none_of_isEmpty nothing] at present
    cases present
  · exact released_releaseLinks member link accounted.exists_box

/-- No request forgets an outbox. -/
theorem Accounted.serve (accounted : hub.Accounted outbox) (request : Request) :
    (hub.serve request).2.Accounted outbox := by
  apply serve_keeps (fun later => later.Accounted outbox) hub request
  case register => exact fun id name brought _ => accounted.register id name brought
  case unregister =>
    intro id generation _
    rcases hub.unregister_cases id generation with ⟨_, _, _, result⟩ | result <;> rw [result]
    · exact accounted.purge id
    · exact accounted
  case detach => exact fun id generation undelivered _ => accounted.detach id generation undelivered
  case expire =>
    intro id generation _
    rcases hub.expire_cases id generation with ⟨_, _, _, _, result⟩ | result <;> rw [result]
    · exact accounted.purge id
    · exact accounted
  case deliver => exact fun _ payload id accounted => accounted.deliverTo payload id
  case join =>
    intro id room _
    rcases hub.joinRoom_cases id room with ⟨_, result⟩ | ⟨_, _, _, _, result⟩ <;> rw [result]
    · exact accounted
    · exact accounted.congr (.refl _) rfl
  case leave => exact fun _ _ _ => accounted.congr (.refl _) rfl
  case close => exact fun _ => accounted.closeAll
  case start => exact accounted

/-- No event makes an outbox vanish or takes a release back. -/
theorem get?_step {box : Outbox} (found : hub.outboxes.get? outbox = some box)
    (event : HubEvent) :
    ∃ after, (hub.step event).outboxes.get? outbox = some after ∧
      (box.released = true → after.released = true) := by
  cases event with
  | serve request =>
      obtain ⟨after, there, grew⟩ := (hub.extends_serve request).exists found
      exact ⟨after, there, grew.released⟩
  | stop =>
      obtain ⟨after, there, grew⟩ := hub.extends_closeAll.exists found
      exact ⟨after, there, grew.released⟩
  | bring other capacity =>
      rcases hub.bring_cases other capacity with result | ⟨absent, result⟩ <;> rw [result]
      · exact ⟨box, found, id⟩
      · have different : outbox ≠ other := by
          rintro rfl
          rw [absent] at found
          cases found
        exact ⟨box, (Table.get?_set_of_ne _ different _).trans found, id⟩
  | act other act =>
      simp only [Hub.step, Table.get?_modify]
      split
      · rename_i same
        rw [← same, found]
        exact ⟨act.apply box, rfl, act.released_apply⟩
      · exact ⟨box, found, id⟩
  | elapse moment => exact ⟨box, found, id⟩

theorem released_step (released : hub.outboxes.Released outbox) (event : HubEvent) :
    (hub.step event).outboxes.Released outbox := by
  obtain ⟨box, found, gone⟩ := released
  obtain ⟨after, there, kept⟩ := get?_step found event
  exact ⟨after, there, kept gone⟩

theorem Accounted.step (accounted : hub.Accounted outbox) (event : HubEvent) :
    (hub.step event).Accounted outbox := by
  -- an event that leaves the connections alone leaves the outbox with its holder
  have remains (connections : (hub.step event).connections = hub.connections) :
      (hub.step event).Accounted outbox := by
    obtain ⟨box, found⟩ := accounted.exists_box
    obtain ⟨after, there, _⟩ := get?_step found event
    refine ⟨⟨after, there⟩, accounted.held.imp (fun attached => ?_) (released_step · event)⟩
    obtain ⟨id, connection, present, link⟩ := mem_attached_iff.1 attached
    exact mem_attached_iff.2 ⟨id, connection, connections ▸ present, link⟩
  cases event with
  | serve request => exact accounted.serve request
  | stop => exact accounted.closeAll
  | bring other capacity =>
      refine remains ?_
      rcases hub.bring_cases other capacity with result | ⟨_, result⟩ <;> rw [result]
  | act other act => exact remains rfl
  | elapse moment => exact remains rfl

end Hub
end Parley
