import Parley.Proofs.Hub.Settled

/-!
# What a connection has in store

The payloads in the outbox of the transport, followed by the backlog.  A delivery adds
to them at the end only, and without losses nothing leaves them.
-/

namespace Parley

/-- Whether a payload was neither dropped nor kept at the expense of another one. -/
def Delivery.isKept : Delivery → Bool
  | .queued => true
  | .droppedFull => false
  | .backlogged evicted => !evicted

namespace Connection

/-- The payloads for the current transport, and behind them those for the next. -/
def stored (connection : Connection) (boxes : Outboxes) : List Payload :=
  (match connection.link with
    | .live outbox => (boxes.get? outbox).elim [] Outbox.held
    | .detached _ => []) ++
    connection.backlog.held

/-- Only the outbox of the transport matters. -/
theorem stored_congr {connection : Connection} {left right : Outboxes}
    (same : ∀ outbox, connection.link = .live outbox → left.get? outbox = right.get? outbox) :
    connection.stored left = connection.stored right := by
  unfold stored
  cases link : connection.link with
  | detached since => rfl
  | live outbox =>
      dsimp only
      rw [same outbox link]

theorem stored_of_live {connection : Connection} {outbox : OutboxId} {boxes : Outboxes}
    {box : Outbox} (link : connection.link = .live outbox)
    (found : boxes.get? outbox = some box) :
    connection.stored boxes = box.held ++ connection.backlog.held := by
  simp [stored, link, found]

theorem stored_of_detached {connection : Connection} {since : Stamp}
    (link : connection.link = .detached since) (boxes : Outboxes) :
    connection.stored boxes = connection.backlog.held := by
  simp [stored, link]

/-- A delivery without a loss adds the payload at the end. -/
theorem stored_deliver {connection : Connection} {boxes : Outboxes}
    (caughtUp : connection.CaughtUp boxes) {payload : Payload}
    (kept : (connection.deliver payload boxes).1.isKept = true) :
    (connection.deliver payload boxes).2.1.stored (connection.deliver payload boxes).2.2 =
      connection.stored boxes ++ [payload] := by
  rcases connection.deliver_cases payload boxes with
    ⟨outbox, box, link, found, accepted, result⟩ | ⟨_, _, _, _, _, result⟩ | ⟨_, result⟩ <;>
    rw [result] at kept ⊢
  · have nothing : connection.backlog.held = [] := caughtUp.held_of_queued (by rw [result])
    have after := Table.get?_set_self boxes outbox { box with held := box.held ++ [payload] }
    rw [stored_of_live link found, stored_of_live link after, nothing, List.append_nil,
      List.append_nil]
  · cases kept
  · have unevicted : (connection.backlog.push payload).1 = false := by
      simpa [keep, Delivery.isKept] using kept
    simp only [stored, keep, Backlog.held_push_of_kept unevicted, List.append_assoc]

/-- A delivery adds nothing but its payload, and that at the end. -/
theorem stored_deliver_sublist {connection : Connection} {boxes : Outboxes}
    (caughtUp : connection.CaughtUp boxes) (fits : connection.backlog.Fits) (payload : Payload) :
    ((connection.deliver payload boxes).2.1.stored (connection.deliver payload boxes).2.2).Sublist
      (connection.stored boxes ++ [payload]) := by
  rcases connection.deliver_cases payload boxes with
    ⟨_, _, _, _, _, result⟩ | ⟨_, _, _, _, _, result⟩ | ⟨_, result⟩
  · have added := stored_deliver caughtUp (by rw [result]; rfl)
    exact added ▸ .refl _
  · rw [result]
    exact List.sublist_append_left _ _
  · rw [result]
    simp only [stored, keep, Backlog.held_push fits, List.append_assoc]
    exact (List.drop_sublist _ _).append_left _

theorem stored_deliverAll_sublist {connection : Connection} {boxes : Outboxes}
    (caughtUp : connection.CaughtUp boxes) (fits : connection.backlog.Fits)
    (payloads : List Payload) :
    ((connection.deliverAll payloads boxes).2.1.stored
      (connection.deliverAll payloads boxes).2.2).Sublist
        (connection.stored boxes ++ payloads) := by
  induction payloads generalizing connection boxes with
  | nil => exact List.sublist_append_left _ _
  | cons payload rest induction =>
      have first := stored_deliver_sublist caughtUp fits payload
      have later := induction (caughtUp.deliver payload) (fits_deliver fits payload boxes)
      rw [snd_deliverAll_cons, ← List.singleton_append, ← List.append_assoc]
      exact later.trans (first.append_right rest)

/-- Deliveries without losses add the payloads at the end, in order. -/
theorem stored_deliverAll {connection : Connection} {boxes : Outboxes}
    (caughtUp : connection.CaughtUp boxes) {payloads : List Payload}
    (kept : ∀ delivery ∈ (connection.deliverAll payloads boxes).1, delivery.isKept = true) :
    (connection.deliverAll payloads boxes).2.1.stored (connection.deliverAll payloads boxes).2.2 =
      connection.stored boxes ++ payloads := by
  induction payloads generalizing connection boxes with
  | nil => exact (List.append_nil _).symm
  | cons payload rest induction =>
      have first : (connection.deliver payload boxes).1.isKept = true :=
        kept _ List.mem_cons_self
      have later : ∀ delivery ∈ ((connection.deliver payload boxes).2.1.deliverAll rest
          (connection.deliver payload boxes).2.2).1, delivery.isKept = true :=
        fun delivery member => kept delivery (List.mem_cons_of_mem _ member)
      rw [snd_deliverAll_cons, induction (caughtUp.deliver payload) later,
        stored_deliver caughtUp first, List.append_assoc, List.singleton_append]

/-- A delivery adds to the outbox of the transport, unless that is closed. -/
theorem get?_deliver_self {connection : Connection} {outbox : OutboxId} {boxes : Outboxes}
    {box : Outbox} (link : connection.link = .live outbox)
    (found : boxes.get? outbox = some box) (payload : Payload) :
    ∃ added, (connection.deliver payload boxes).2.2.get? outbox =
        some { box with held := box.held ++ added } ∧
      (box.isOpen = false → added = []) := by
  have unchanged : box = { box with held := box.held ++ [] } := by rw [List.append_nil]
  rcases connection.deliver_cases payload boxes with
    ⟨other, entry, attached, there, accepted, result⟩ | ⟨_, _, _, _, _, result⟩ | ⟨_, result⟩ <;>
    rw [result]
  · obtain rfl := Link.live.inj (link.symm.trans attached)
    obtain rfl := Option.some.inj (found.symm.trans there)
    refine ⟨[payload], Table.get?_set_self _ _ _, fun closed => ?_⟩
    rw [(Outbox.answer_eq_accepted_iff.1 accepted).1] at closed
    cases closed
  · exact ⟨[], unchanged ▸ found, fun _ => rfl⟩
  · exact ⟨[], unchanged ▸ found, fun _ => rfl⟩

theorem get?_deliverAll_self {connection : Connection} {outbox : OutboxId} {boxes : Outboxes}
    {box : Outbox} (link : connection.link = .live outbox)
    (found : boxes.get? outbox = some box) (payloads : List Payload) :
    ∃ added, (connection.deliverAll payloads boxes).2.2.get? outbox =
        some { box with held := box.held ++ added } ∧
      (box.isOpen = false → added = []) := by
  induction payloads generalizing connection boxes box with
  | nil =>
      refine ⟨[], ?_, fun _ => rfl⟩
      rw [List.append_nil]
      exact found
  | cons payload rest induction =>
      have agrees := connection.agreesButBacklog_deliver payload boxes
      obtain ⟨first, grown, closedFirst⟩ := get?_deliver_self link found payload
      obtain ⟨second, result, closedSecond⟩ := induction (agrees.link_eq.trans link) grown
      refine ⟨first ++ second, ?_, fun closed => ?_⟩
      · rw [snd_deliverAll_cons, result, List.append_assoc]
      · rw [closedFirst closed, closedSecond closed, List.append_nil]

end Connection
end Parley
