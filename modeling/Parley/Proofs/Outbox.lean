import Parley.Outbox
import Parley.Proofs.Table

/-!
# What the hub does to outboxes

The hub only ever adds payloads at the back of an outbox whose consumer listens and
lets go of it; it never takes a payload out and never changes what the consumer does.
-/

namespace Parley

/-- A later state of an outbox whose consumer did nothing in between. -/
structure Outbox.Extends (before after : Outbox) : Prop where
  capacity : after.capacity = before.capacity
  consumer : after.consumer = before.consumer
  held : before.held <+: after.held
  refused : before.isOpen = false → after.held = before.held
  released : before.released = true → after.released = true

namespace Outbox

theorem Extends.refl (box : Outbox) : box.Extends box :=
  ⟨rfl, rfl, List.prefix_rfl, fun _ => rfl, id⟩

/-- The hub does not open or close an outbox. -/
theorem Extends.isOpen {before after : Outbox} (growth : before.Extends after) :
    after.isOpen = before.isOpen := by
  unfold Outbox.isOpen
  rw [growth.consumer]

theorem Extends.trans {first second third : Outbox} (left : first.Extends second)
    (right : second.Extends third) : first.Extends third :=
  ⟨right.capacity.trans left.capacity, right.consumer.trans left.consumer,
    left.held.trans right.held,
    fun closed => (right.refused (left.isOpen.trans closed)).trans (left.refused closed),
    right.released ∘ left.released⟩

/-- A later state of an outbox that nobody added to once the hub had let go of it. -/
structure Fed (before after : Outbox) : Prop extends before.Extends after where
  unreleased : before.released = true → after.held = before.held

theorem Fed.refl (box : Outbox) : box.Fed box :=
  ⟨.refl box, fun _ => rfl⟩

theorem Fed.trans {first second third : Outbox} (left : first.Fed second)
    (right : second.Fed third) : first.Fed third :=
  ⟨left.toExtends.trans right.toExtends, fun released =>
    (right.unreleased (left.released released)).trans (left.unreleased released)⟩

/-- What was added stands behind what was held. -/
theorem Extends.held_append_drop {before after : Outbox} (growth : before.Extends after) :
    before.held ++ after.held.drop before.held.length = after.held := by
  obtain ⟨added, grown⟩ := growth.held
  rw [← grown, List.drop_left]

/-- What an offer does to an outbox. -/
theorem offer_eq (box : Outbox) (payload : Payload) :
    box.offer payload =
      (box.answer, if box.answer = .accepted then { box with held := box.held ++ [payload] }
        else box) := by
  unfold offer
  cases box.answer <;> rfl

theorem extends_offer (box : Outbox) (payload : Payload) :
    box.Extends (box.offer payload).2 := by
  rw [offer_eq]
  by_cases accepted : box.answer = .accepted
  · simp only [accepted, if_true]
    refine ⟨rfl, rfl, List.prefix_append _ _, fun closed => ?_, id⟩
    rw [(answer_eq_accepted_iff.1 accepted).1] at closed
    cases closed
  · simp only [accepted, if_false]
    exact .refl box

theorem extends_release (box : Outbox) : box.Extends box.release :=
  ⟨rfl, rfl, List.prefix_rfl, fun _ => rfl, fun _ => rfl⟩

theorem fed_offer (box : Outbox) (linked : box.released = false) (payload : Payload) :
    box.Fed (box.offer payload).2 :=
  ⟨box.extends_offer payload, fun released => by simp [linked] at released⟩

theorem fed_release (box : Outbox) : box.Fed box.release :=
  ⟨box.extends_release, fun _ => rfl⟩

/-- An outbox refuses exactly when its consumer does not listen. -/
theorem answer_eq_refused_iff {box : Outbox} : box.answer = .refused ↔ box.isOpen = false := by
  unfold answer
  cases box.isOpen
  · simp
  · by_cases fits : box.held.length < box.capacity <;> simp [fits]

/-- A payload is dropped exactly when somebody listens and there is no room. -/
theorem answer_eq_full_iff {box : Outbox} :
    box.answer = .full ↔ box.isOpen = true ∧ box.capacity ≤ box.held.length := by
  unfold answer
  cases box.isOpen
  · simp
  · by_cases fits : box.held.length < box.capacity
    · simp [fits]
    · simp [fits, Nat.le_of_not_lt fits]

/-- The number of payloads that an outbox would still accept. -/
def slots (box : Outbox) : Nat := if box.isOpen then box.room else 0

theorem slots_of_accepted {box : Outbox} (accepted : box.answer = .accepted)
    (payload : Payload) :
    box.slots = { box with held := box.held ++ [payload] }.slots + 1 := by
  obtain ⟨listening, room⟩ := answer_eq_accepted_iff.1 accepted
  have still : { box with held := box.held ++ [payload] }.isOpen = true := listening
  rw [slots, slots, if_pos listening, if_pos still]
  simp only [Outbox.room, List.length_append, List.length_singleton]
  omega

theorem slots_of_not_accepted {box : Outbox} (refused : box.answer ≠ .accepted) :
    box.slots = 0 := by
  rw [ne_eq, answer_eq_accepted_iff, not_and, Nat.not_lt] at refused
  unfold slots Outbox.room
  split
  · rename_i listening
    exact Nat.sub_eq_zero_of_le (refused listening)
  · rfl

theorem isClosed_eq_false_iff {box : Outbox} :
    box.isClosed = false ↔ box.released = false ∧ box.answer ≠ .refused := by
  rw [ne_eq, answer_eq_refused_iff]
  simp [isClosed]

end Outbox

namespace Outboxes

/-- Later states of all outboxes whose consumers did nothing in between. -/
def Extends (before after : Outboxes) : Prop :=
  ∀ id, Option.Rel Outbox.Extends (before.get? id) (after.get? id)

theorem Extends.refl (boxes : Outboxes) : boxes.Extends boxes := by
  intro id
  cases boxes.get? id with
  | none => exact .none
  | some box => exact .some (.refl box)

theorem Extends.trans {first second third : Outboxes} (left : first.Extends second)
    (right : second.Extends third) : first.Extends third := by
  intro id
  have growth := left id
  have further := right id
  generalize first.get? id = before at growth
  generalize second.get? id = middle at growth further
  cases growth with
  | none => exact further
  | some growth =>
      generalize third.get? id = after at further
      cases further with
      | some further => exact .some (growth.trans further)

/-- An outbox that exists goes on existing. -/
theorem Extends.exists {before after : Outboxes} (growth : before.Extends after)
    {id : OutboxId} {box : Outbox} (present : before.get? id = some box) :
    ∃ later, after.get? id = some later ∧ box.Extends later := by
  have related := growth id
  rw [present] at related
  generalize after.get? id = found at related ⊢
  cases related with
  | some extended => exact ⟨_, rfl, extended⟩

/-- An outbox that does not exist does not come into being. -/
theorem Extends.none {before after : Outboxes} (growth : before.Extends after)
    {id : OutboxId} (absent : before.get? id = none) : after.get? id = none := by
  have related := growth id
  rw [absent] at related
  generalize after.get? id = found at related ⊢
  cases related with
  | none => rfl

/-- An offer concerns one outbox only. -/
theorem get?_offer_of_ne (boxes : Outboxes) {id other : OutboxId} (different : other ≠ id)
    (payload : Payload) : (boxes.offer id payload).2.get? other = boxes.get? other := by
  unfold offer
  cases boxes.get? id with
  | none => rfl
  | some box => exact boxes.get?_set_of_ne different _

theorem extends_offer (boxes : Outboxes) (id : OutboxId) (payload : Payload) :
    boxes.Extends (boxes.offer id payload).2 := by
  intro other
  by_cases same : other = id
  · subst same
    unfold offer
    cases present : boxes.get? other with
    | none =>
        rw [present]
        exact .none
    | some box =>
        rw [Table.get?_set_self]
        exact .some (box.extends_offer payload)
  · rw [boxes.get?_offer_of_ne same]
    exact Extends.refl boxes other

/-- Letting go of an outbox concerns that outbox only. -/
theorem get?_release_of_ne (boxes : Outboxes) {id other : OutboxId} (different : other ≠ id) :
    (boxes.release id).get? other = boxes.get? other := by
  simp [release, Table.get?_modify, different]

theorem get?_release_self (boxes : Outboxes) (id : OutboxId) :
    (boxes.release id).get? id = (boxes.get? id).map Outbox.release := by
  simp [release, Table.get?_modify]

/-- The hub lets go of some outboxes and does nothing else to any. -/
def LetsGo (before after : Outboxes) : Prop :=
  ∀ id, after.get? id = before.get? id ∨ after.get? id = (before.get? id).map Outbox.release

theorem LetsGo.refl (boxes : Outboxes) : boxes.LetsGo boxes := fun _ => .inl rfl

theorem LetsGo.trans {first second third : Outboxes} (left : first.LetsGo second)
    (right : second.LetsGo third) : first.LetsGo third := by
  intro id
  rcases left id with same | released <;> rcases right id with again | later
  · exact .inl (again.trans same)
  · exact .inr (same ▸ later)
  · exact .inr (again.trans released)
  · refine .inr ?_
    rw [later, released, Option.map_map]
    rfl

theorem LetsGo.extends {before after : Outboxes} (letsGo : before.LetsGo after) :
    before.Extends after := by
  intro id
  rcases letsGo id with same | released
  · rw [same]
    exact Extends.refl before id
  · rw [released]
    cases before.get? id with
    | none => exact .none
    | some box => exact .some box.extends_release

/-- Nothing is added when the hub lets go. -/
theorem LetsGo.fed {before after : Outboxes} (letsGo : before.LetsGo after) {id : OutboxId}
    {box : Outbox} (found : before.get? id = some box) :
    ∃ later, after.get? id = some later ∧ box.Fed later := by
  have either := letsGo id
  rw [found] at either
  rcases either with same | released
  · exact ⟨box, same, .refl box⟩
  · exact ⟨box.release, released, box.fed_release⟩

theorem letsGo_release (boxes : Outboxes) (id : OutboxId) : boxes.LetsGo (boxes.release id) := by
  intro other
  unfold release
  rw [Table.get?_modify]
  split
  · rename_i same
    exact .inr (by rw [same])
  · exact .inl rfl

theorem extends_release (boxes : Outboxes) (id : OutboxId) :
    boxes.Extends (boxes.release id) :=
  (boxes.letsGo_release id).extends

end Outboxes
end Parley
