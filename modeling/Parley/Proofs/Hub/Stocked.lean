import Parley.Proofs.Hub.Generation
import Parley.Proofs.Hub.Queue

/-!
# What waits for whom

Payloads wait in the outboxes of transports and in the backlogs of connections.  When
every payload that a hub is asked to hand out suits the connection that it is meant
for, every payload that waits anywhere suits the connection that it waits for: the hub
moves payloads, but it neither makes nor changes any.
-/

namespace Parley

/-- The payloads that a request may bring to a connection. -/
def Request.brings (id : ConnectionId) : Request → List Payload
  | .broadcast payload => [payload]
  | .sendToRoom _ payload _ => [payload]
  | .sendToName _ payload => [payload]
  | .detach other _ undelivered => if other = id then undelivered else []
  | _ => []

variable {owner : OutboxId → Option ConnectionId} {suits : ConnectionId → Payload → Prop}

/-! ## Outboxes -/

namespace Outboxes

/-- Every outbox belongs to a connection and holds what suits it. -/
def Stocked (owner : OutboxId → Option ConnectionId) (suits : ConnectionId → Payload → Prop)
    (boxes : Outboxes) : Prop :=
  ∀ key box, boxes.get? key = some box →
    ∃ id, owner key = some id ∧ ∀ payload ∈ box.held, suits id payload

variable {boxes : Outboxes}

theorem Stocked.set (stocked : boxes.Stocked owner suits) {key : OutboxId} {id : ConnectionId}
    (own : owner key = some id) {box : Outbox} (held : ∀ payload ∈ box.held, suits id payload) :
    Outboxes.Stocked owner suits (boxes.set key box) := by
  intro other found present
  rw [Table.get?_set] at present
  split at present
  · rename_i same
    obtain rfl := Option.some.inj present
    exact ⟨id, same ▸ own, held⟩
  · exact stocked other found present

/-- What a stocked outbox holds suits its owner. -/
theorem Stocked.held (stocked : boxes.Stocked owner suits) {key : OutboxId} {id : ConnectionId}
    (own : owner key = some id) {box : Outbox} (found : boxes.get? key = some box) :
    ∀ payload ∈ box.held, suits id payload := by
  obtain ⟨other, owned, held⟩ := stocked key box found
  rw [own] at owned
  cases owned
  exact held

theorem Stocked.offer (stocked : boxes.Stocked owner suits) {key : OutboxId} {id : ConnectionId}
    (own : owner key = some id) {payload : Payload} (fit : suits id payload) :
    (boxes.offer key payload).2.Stocked owner suits := by
  unfold Outboxes.offer
  cases found : boxes.get? key with
  | none => exact stocked
  | some box =>
      refine stocked.set own fun other member => ?_
      rw [Outbox.held_offer] at member
      split at member
      · rcases List.mem_append.1 member with earlier | last
        · exact stocked.held own found other earlier
        · exact List.mem_singleton.1 last ▸ fit
      · exact stocked.held own found other member

/-- Letting go of outboxes takes nothing in and nothing out. -/
theorem Stocked.letsGo (stocked : boxes.Stocked owner suits) {later : Outboxes}
    (letsGo : boxes.LetsGo later) : later.Stocked owner suits := by
  intro key box present
  rcases letsGo key with same | released
  · exact stocked key box (same ▸ present)
  · rw [released] at present
    obtain ⟨before, found, rfl⟩ := Option.map_eq_some_iff.1 present
    exact stocked key before found

end Outboxes

/-! ## Connections -/

namespace Connection

/-- The backlog holds what suits the connection, whose own outbox it is attached to. -/
structure Stocked (owner : OutboxId → Option ConnectionId) (suits : ConnectionId → Payload → Prop)
    (id : ConnectionId) (connection : Connection) : Prop where
  backlog : ∀ payload ∈ connection.backlog.held, suits id payload
  own : ∀ key, connection.link = .live key → owner key = some id

variable {connection : Connection} {id : ConnectionId} {boxes : Outboxes}

/-- A restored backlog holds what came in front and what was there. -/
theorem mem_restoreFront {backlog : Backlog} {payloads : List Payload} {payload : Payload}
    (member : payload ∈ (backlog.restoreFront payloads).2.held) :
    payload ∈ payloads ∨ payload ∈ backlog.held :=
  List.mem_append.1 (List.mem_of_mem_drop member)

theorem Stocked.keep (stocked : connection.Stocked owner suits id) {payload : Payload}
    (fit : suits id payload) : (connection.keep payload).2.Stocked owner suits id := by
  refine ⟨fun other member => ?_, stocked.own⟩
  have kept : other ∈ connection.backlog.held ∨ other = payload := by
    simp only [Connection.keep, Backlog.push] at member
    split at member
    · exact .inl member
    · split at member
      · rcases List.mem_append.1 member with earlier | last
        · exact .inl (List.mem_of_mem_drop earlier)
        · exact .inr (List.mem_singleton.1 last)
      · rcases List.mem_append.1 member with earlier | last
        · exact .inl earlier
        · exact .inr (List.mem_singleton.1 last)
  rcases kept with earlier | rfl
  · exact stocked.backlog other earlier
  · exact fit

theorem Stocked.deliver (stocked : connection.Stocked owner suits id)
    (boxed : boxes.Stocked owner suits) {payload : Payload} (fit : suits id payload) :
    (connection.deliver payload boxes).2.1.Stocked owner suits id ∧
      (connection.deliver payload boxes).2.2.Stocked owner suits := by
  unfold Connection.deliver
  cases link : connection.link with
  | detached since => exact ⟨stocked.keep fit, boxed⟩
  | live key =>
      have offered := boxed.offer (stocked.own key link) fit
      dsimp only
      generalize boxes.offer key payload = result at offered
      obtain ⟨offer, later⟩ := result
      cases offer with
      | accepted => exact ⟨stocked, offered⟩
      | full => exact ⟨stocked, offered⟩
      | refused => exact ⟨stocked.keep fit, offered⟩

theorem Stocked.deliverAll (stocked : connection.Stocked owner suits id)
    (boxed : boxes.Stocked owner suits) {payloads : List Payload}
    (fit : ∀ payload ∈ payloads, suits id payload) :
    (connection.deliverAll payloads boxes).2.1.Stocked owner suits id ∧
      (connection.deliverAll payloads boxes).2.2.Stocked owner suits := by
  induction payloads generalizing connection boxes with
  | nil => exact ⟨stocked, boxed⟩
  | cons payload rest induction =>
      obtain ⟨first, offered⟩ := stocked.deliver boxed (fit payload List.mem_cons_self)
      exact induction first offered fun other member => fit other (List.mem_cons_of_mem _ member)

/-- A replay leaves over a part of what it was given. -/
theorem Stocked.replay {key : OutboxId} (own : owner key = some id) {payloads : List Payload}
    (boxed : boxes.Stocked owner suits) (fit : ∀ payload ∈ payloads, suits id payload) :
    (∀ payload ∈ (Connection.replay key payloads boxes).2.1, suits id payload) ∧
      (Connection.replay key payloads boxes).2.2.Stocked owner suits := by
  induction payloads generalizing boxes with
  | nil => exact ⟨fit, boxed⟩
  | cons payload rest induction =>
      have offered := boxed.offer own (fit payload List.mem_cons_self)
      unfold Connection.replay
      generalize boxes.offer key payload = result at offered
      obtain ⟨offer, later⟩ := result
      cases offer with
      | accepted =>
          exact induction offered fun other member => fit other (List.mem_cons_of_mem _ member)
      | full => exact ⟨fit, offered⟩
      | refused => exact ⟨fit, offered⟩

theorem Stocked.attach (stocked : connection.Stocked owner suits id)
    (boxed : boxes.Stocked owner suits) (name : DisplayName) {key : OutboxId}
    (own : owner key = some id) (generation : Generation) :
    (connection.attach name key generation boxes).2.1.Stocked owner suits id ∧
      (connection.attach name key generation boxes).2.2.Stocked owner suits := by
  obtain ⟨left, replayed⟩ := Stocked.replay own boxed stocked.backlog
  refine ⟨⟨fun payload member => ?_, fun other link => ?_⟩,
    replayed.letsGo (letsGo_releaseLink connection.link _)⟩
  · rw [attach_eq] at member
    rcases mem_restoreFront member with returned | earlier
    · exact left payload returned
    · cases earlier
  · cases link
    exact own

theorem Stocked.detach (stocked : connection.Stocked owner suits id)
    (boxed : boxes.Stocked owner suits) {undelivered : List Payload}
    (fit : ∀ payload ∈ undelivered, suits id payload) (since : Stamp) :
    (connection.detach undelivered since boxes).2.1.Stocked owner suits id ∧
      (connection.detach undelivered since boxes).2.2.Stocked owner suits := by
  rw [detach_eq]
  refine ⟨⟨fun payload member => ?_, fun key link => by cases link⟩,
    boxed.letsGo (letsGo_releaseLink connection.link boxes)⟩
  rcases mem_restoreFront member with returned | earlier
  · exact fit payload returned
  · exact stocked.backlog payload earlier

theorem Stocked.new (name : DisplayName) (generation : Generation) {key : OutboxId}
    (own : owner key = some id) (capacity : Nat) (connectedAt : Stamp) :
    (Connection.new id name generation key capacity connectedAt).Stocked owner suits id where
  backlog payload member := by cases member
  own other link := by
    cases link
    exact own

end Connection

/-! ## Hubs -/

/-- All that waits in a hub suits the connection that it waits for. -/
structure Hub.Stocked (owner : OutboxId → Option ConnectionId)
    (suits : ConnectionId → Payload → Prop) (hub : Hub) : Prop where
  entries : ∀ id connection, hub.connections.get? id = some connection →
    connection.Stocked owner suits id
  outboxes : hub.outboxes.Stocked owner suits

namespace Hub

variable {hub : Hub}

theorem Stocked.new (settings : Settings) (startedAt : Stamp) :
    (Hub.new settings startedAt).Stocked owner suits where
  entries id connection present := by cases present
  outboxes key box present := by cases present

/-- More outboxes may get an owner. -/
theorem Stocked.mono (stocked : hub.Stocked owner suits) {later : OutboxId → Option ConnectionId}
    (kept : ∀ key id, owner key = some id → later key = some id) : hub.Stocked later suits where
  entries id connection present :=
    ⟨(stocked.entries id connection present).backlog, fun key link =>
      kept key id ((stocked.entries id connection present).own key link)⟩
  outboxes key box present := by
    obtain ⟨id, own, held⟩ := stocked.outboxes key box present
    exact ⟨id, kept key id own, held⟩

/-- An entry may be revised or entered. -/
theorem Stocked.set {later : Hub} (stocked : hub.Stocked owner suits) {id : ConnectionId}
    {connection : Connection}
    (revised : connection.Stocked owner suits id ∧ later.outboxes.Stocked owner suits)
    (connections : later.connections = hub.connections.set id connection) :
    later.Stocked owner suits where
  entries other entry present := by
    rw [connections, Table.get?_set] at present
    split at present
    · rename_i same
      obtain rfl := Option.some.inj present
      exact same ▸ revised.1
    · exact stocked.entries other entry present
  outboxes := revised.2

/-- Entries may leave, and the hub may let go of outboxes. -/
theorem Stocked.subset {later : Hub} (stocked : hub.Stocked owner suits)
    (fewer : ∀ id connection, later.connections.get? id = some connection →
      hub.connections.get? id = some connection)
    (letsGo : hub.outboxes.LetsGo later.outboxes) : later.Stocked owner suits where
  entries id connection present := stocked.entries id connection (fewer id connection present)
  outboxes := stocked.outboxes.letsGo letsGo

theorem Stocked.deliverTo (stocked : hub.Stocked owner suits) {id : ConnectionId}
    {payload : Payload} (fit : suits id payload) :
    (hub.deliverTo payload id).Stocked owner suits := by
  cases present : hub.connections.get? id with
  | none =>
      rw [deliverTo_of_absent present]
      exact stocked
  | some connection =>
      rw [deliverTo_of_present present]
      exact stocked.set ((stocked.entries id connection present).deliver stocked.outboxes fit) rfl

theorem Stocked.deliverToAll (stocked : hub.Stocked owner suits) {payload : Payload}
    (fit : ∀ id, suits id payload) (ids : List ConnectionId) :
    (hub.deliverToAll payload ids).Stocked owner suits :=
  deliverToAll_keeps (fun _ id stocked => stocked.deliverTo (fit id)) hub ids stocked

theorem Stocked.purge (stocked : hub.Stocked owner suits) (id : ConnectionId) :
    (hub.purge id).Stocked owner suits := by
  cases present : hub.connections.get? id with
  | none =>
      rw [purge_of_absent present]
      exact stocked
  | some connection =>
      rw [purge_of_present present]
      refine stocked.subset (fun other entry found => ?_) (Connection.letsGo_releaseLink _ _)
      rw [Table.get?_erase] at found
      split at found
      · cases found
      · exact found

theorem Stocked.register (stocked : hub.Stocked owner suits) {id : ConnectionId}
    (name : DisplayName) {key : OutboxId} (own : owner key = some id) :
    (hub.register id name key).2.Stocked owner suits := by
  rcases hub.register_cases id name key with
    ⟨connection, present, result⟩ | ⟨_, _, result⟩ | ⟨_, result⟩ <;> rw [result]
  · exact stocked.set
      ((stocked.entries id connection present).attach stocked.outboxes name own _) rfl
  · exact stocked.subset (fun _ _ present => present) (Outboxes.letsGo_release _ _)
  · exact stocked.set ⟨.new name _ own _ _, stocked.outboxes⟩ rfl

theorem Stocked.detach (stocked : hub.Stocked owner suits) {id : ConnectionId}
    (generation : Generation) {undelivered : List Payload}
    (fit : ∀ payload ∈ undelivered, suits id payload) :
    (hub.detach id generation undelivered).Stocked owner suits := by
  rcases hub.detach_cases id generation undelivered with
    ⟨_, result⟩ | ⟨connection, present, _, result⟩ | ⟨_, _, _, _, result⟩ |
      ⟨connection, present, _, _, result⟩ <;> rw [result]
  · exact stocked
  · exact stocked.set
      ((stocked.entries id connection present).deliverAll stocked.outboxes fit) rfl
  · exact stocked.purge id
  · exact stocked.set
      ((stocked.entries id connection present).detach stocked.outboxes fit _) rfl

theorem Stocked.closeAll (stocked : hub.Stocked owner suits) :
    hub.closeAll.Stocked owner suits := by
  refine stocked.subset (fun id connection present => ?_) hub.letsGo_closeAll
  rw [get?_closeAll] at present
  cases present

/-- Every request leaves a hub stocked with what suits, when all that it brings does and
a registration is for the owner of the outbox. -/
theorem Stocked.serve (stocked : hub.Stocked owner suits) (request : Request)
    (brings : ∀ id, ∀ payload ∈ request.brings id, suits id payload)
    (registers : ∀ id name key, request = .register id name key → owner key = some id) :
    (hub.serve request).2.Stocked owner suits := by
  cases request with
  | identify requested spare => exact stocked
  | register id name key => exact stocked.register name (registers id name key rfl)
  | unregister id generation =>
      simp only [Hub.serve]
      rcases hub.unregister_cases id generation with ⟨_, _, _, result⟩ | result <;> rw [result]
      · exact stocked.purge id
      · exact stocked
  | detach id generation undelivered =>
      exact stocked.detach generation fun payload member =>
        brings id payload (by simpa [Request.brings] using member)
  | expire id generation =>
      simp only [Hub.serve]
      rcases hub.expire_cases id generation with ⟨_, _, _, _, result⟩ | result <;> rw [result]
      · exact stocked.purge id
      · exact stocked
  | broadcast payload =>
      exact stocked.deliverToAll (fun id => brings id payload List.mem_cons_self) _
  | joinRoom id room =>
      simp only [Hub.serve]
      rcases hub.joinRoom_cases id room with ⟨_, result⟩ | ⟨_, _, _, _, result⟩ <;> rw [result]
      · exact stocked
      · exact ⟨stocked.entries, stocked.outboxes⟩
  | leaveRoom id room => exact ⟨stocked.entries, stocked.outboxes⟩
  | sendToRoom room payload sender =>
      exact stocked.deliverToAll (fun id => brings id payload List.mem_cons_self) _
  | sendToName name payload =>
      exact stocked.deliverToAll (fun id => brings id payload List.mem_cons_self) _
  | inspect => exact stocked
  | shutdown => exact stocked.closeAll

end Hub
end Parley
