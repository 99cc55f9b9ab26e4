import Parley.Connection
import Parley.Proofs.Backlog
import Parley.Proofs.Outbox

/-!
# What becomes of a connection

A payload given to a connection goes to the outbox of its transport, is dropped
there when it is full, or waits in the backlog.  A delivery changes nothing else,
and a new transport gets the backlog before anything else.
-/

namespace Parley
namespace Connection

/-- Whether the outbox of its transport accepts payloads. -/
def isOpen (connection : Connection) (boxes : Outboxes) : Bool :=
  match connection.link with
  | .live outbox => (boxes.get? outbox).any Outbox.isOpen
  | .detached _ => false

theorem outbox?_eq_some_iff {connection : Connection} {outbox : OutboxId} :
    connection.outbox? = some outbox ↔ connection.link = .live outbox := by
  unfold outbox?
  cases connection.link <;> simp

/-- Nothing but the backlog differs. -/
def AgreesButBacklog (before after : Connection) : Prop :=
  after = { before with backlog := after.backlog }

namespace AgreesButBacklog

variable {before after : Connection}

theorem refl (connection : Connection) : AgreesButBacklog connection connection := rfl

theorem trans {first second third : Connection} (left : AgreesButBacklog first second)
    (right : AgreesButBacklog second third) : AgreesButBacklog first third := by
  unfold AgreesButBacklog at *
  rw [right, left]

theorem id_eq (agrees : AgreesButBacklog before after) : after.id = before.id := by rw [agrees]

theorem generation_eq (agrees : AgreesButBacklog before after) :
    after.generation = before.generation := by rw [agrees]

theorem link_eq (agrees : AgreesButBacklog before after) : after.link = before.link := by
  rw [agrees]

end AgreesButBacklog

/-- An open outbox with room takes a payload. -/
theorem deliver_of_accepted {connection : Connection} {outbox : OutboxId} {box : Outbox}
    {boxes : Outboxes} (attached : connection.link = .live outbox)
    (present : boxes.get? outbox = some box) (accepted : box.answer = .accepted)
    (payload : Payload) :
    connection.deliver payload boxes =
      (.queued, connection, boxes.set outbox { box with held := box.held ++ [payload] }) := by
  simp [deliver, attached, Outboxes.offer, present, Outbox.offer_eq, accepted]

/-- A full outbox drops it. -/
theorem deliver_of_full {connection : Connection} {outbox : OutboxId} {box : Outbox}
    {boxes : Outboxes} (attached : connection.link = .live outbox)
    (present : boxes.get? outbox = some box) (full : box.answer = .full) (payload : Payload) :
    connection.deliver payload boxes = (.droppedFull, connection, boxes) := by
  simp [deliver, attached, Outboxes.offer, present, Outbox.offer_eq, full,
    Table.set_of_get?_eq_some present]

/-- Without an open outbox it goes to the backlog. -/
theorem deliver_of_not_isOpen {connection : Connection} {boxes : Outboxes}
    (closed : connection.isOpen boxes = false) (payload : Payload) :
    connection.deliver payload boxes =
      ((connection.keep payload).1, (connection.keep payload).2, boxes) := by
  unfold deliver
  cases attached : connection.link with
  | detached since => rfl
  | live outbox =>
      cases present : boxes.get? outbox with
      | none => simp [Outboxes.offer, present]
      | some box =>
          have refused : box.answer = .refused := by
            rw [Outbox.answer_eq_refused_iff]
            simpa [isOpen, attached, present] using closed
          simp [Outboxes.offer, present, Outbox.offer_eq, refused,
            Table.set_of_get?_eq_some present]

/-- The three ways of a delivery: an open outbox with room takes the payload, a full
one drops it, and without an open outbox it goes to the backlog. -/
theorem deliver_cases (connection : Connection) (payload : Payload) (boxes : Outboxes) :
    (∃ outbox box, connection.link = .live outbox ∧ boxes.get? outbox = some box ∧
        box.answer = .accepted ∧
        connection.deliver payload boxes =
          (.queued, connection, boxes.set outbox { box with held := box.held ++ [payload] })) ∨
      (∃ outbox box, connection.link = .live outbox ∧ boxes.get? outbox = some box ∧
        box.answer = .full ∧ connection.deliver payload boxes = (.droppedFull, connection, boxes)) ∨
      (connection.isOpen boxes = false ∧
        connection.deliver payload boxes =
          ((connection.keep payload).1, (connection.keep payload).2, boxes)) := by
  have closed (shut : connection.isOpen boxes = false) := deliver_of_not_isOpen shut payload
  cases attached : connection.link with
  | detached since =>
      have shut : connection.isOpen boxes = false := by simp [isOpen, attached]
      exact .inr (.inr ⟨shut, closed shut⟩)
  | live outbox =>
      cases present : boxes.get? outbox with
      | none =>
          have shut : connection.isOpen boxes = false := by simp [isOpen, attached, present]
          exact .inr (.inr ⟨shut, closed shut⟩)
      | some box =>
          cases answer : box.answer with
          | accepted =>
              exact .inl ⟨outbox, box, rfl, present, answer,
                deliver_of_accepted attached present answer payload⟩
          | full =>
              exact .inr (.inl ⟨outbox, box, rfl, present, answer,
                deliver_of_full attached present answer payload⟩)
          | refused =>
              have shut : connection.isOpen boxes = false := by
                simp [isOpen, attached, present, Outbox.answer_eq_refused_iff.1 answer]
              exact .inr (.inr ⟨shut, closed shut⟩)

/-- A payload is dropped exactly when the outbox of the transport is full. -/
theorem deliver_eq_droppedFull_iff {connection : Connection} {payload : Payload}
    {boxes : Outboxes} :
    (connection.deliver payload boxes).1 = .droppedFull ↔
      ∃ outbox box, connection.link = .live outbox ∧ boxes.get? outbox = some box ∧
        box.answer = .full := by
  constructor
  · intro dropped
    rcases connection.deliver_cases payload boxes with
      ⟨_, _, _, _, _, result⟩ | ⟨outbox, box, attached, present, full, _⟩ | ⟨_, result⟩
    · simp [result] at dropped
    · exact ⟨outbox, box, attached, present, full⟩
    · simp [result, keep] at dropped
  · rintro ⟨outbox, box, attached, present, full⟩
    rw [deliver_of_full attached present full]

/-- A delivery changes at most the backlog of the connection. -/
theorem agreesButBacklog_deliver (connection : Connection) (payload : Payload)
    (boxes : Outboxes) :
    AgreesButBacklog connection (connection.deliver payload boxes).2.1 := by
  rcases connection.deliver_cases payload boxes with
    ⟨_, _, _, _, _, result⟩ | ⟨_, _, _, _, _, result⟩ | ⟨_, result⟩ <;>
    rw [result] <;> rfl

/-- A delivery reaches no outbox but that of the transport. -/
theorem get?_deliver_of_ne (connection : Connection) (payload : Payload) (boxes : Outboxes)
    {other : OutboxId} (different : connection.link ≠ .live other) :
    (connection.deliver payload boxes).2.2.get? other = boxes.get? other := by
  rcases connection.deliver_cases payload boxes with
    ⟨outbox, _, attached, _, _, result⟩ | ⟨_, _, _, _, _, result⟩ | ⟨_, result⟩ <;>
    rw [result]
  refine Table.get?_set_of_ne _ (fun same => different ?_) _
  rw [attached, same]

theorem extends_deliver (connection : Connection) (payload : Payload) (boxes : Outboxes) :
    boxes.Extends (connection.deliver payload boxes).2.2 := by
  rcases connection.deliver_cases payload boxes with
    ⟨outbox, box, _, present, accepted, result⟩ | ⟨_, _, _, _, _, result⟩ | ⟨_, result⟩
  · have offered : boxes.set outbox { box with held := box.held ++ [payload] } =
        (boxes.offer outbox payload).2 := by
      simp [Outboxes.offer, present, Outbox.offer_eq, accepted]
    rw [result, offered]
    exact boxes.extends_offer outbox payload
  · rw [result]
    exact .refl boxes
  · rw [result]
    exact .refl boxes

/-- A delivery keeps the backlog within its capacity. -/
theorem fits_deliver {connection : Connection} (fits : connection.backlog.Fits)
    (payload : Payload) (boxes : Outboxes) :
    (connection.deliver payload boxes).2.1.backlog.Fits := by
  rcases connection.deliver_cases payload boxes with
    ⟨_, _, _, _, _, result⟩ | ⟨_, _, _, _, _, result⟩ | ⟨_, result⟩ <;> rw [result]
  · exact fits
  · exact fits
  · exact fits.push payload

theorem capacity_deliver (connection : Connection) (payload : Payload) (boxes : Outboxes) :
    (connection.deliver payload boxes).2.1.backlog.capacity = connection.backlog.capacity := by
  rcases connection.deliver_cases payload boxes with
    ⟨_, _, _, _, _, result⟩ | ⟨_, _, _, _, _, result⟩ | ⟨_, result⟩ <;> rw [result]
  exact Backlog.capacity_push _ _

/-! ## Several payloads -/

@[simp]
theorem deliverAll_nil (connection : Connection) (boxes : Outboxes) :
    connection.deliverAll [] boxes = ([], connection, boxes) := rfl

/-- What several deliveries leave is what the others leave after the first. -/
theorem snd_deliverAll_cons (connection : Connection) (payload : Payload)
    (rest : List Payload) (boxes : Outboxes) :
    (connection.deliverAll (payload :: rest) boxes).2 =
      ((connection.deliver payload boxes).2.1.deliverAll rest
        (connection.deliver payload boxes).2.2).2 := rfl

/-- What one delivery after the other keeps, all of them keep. -/
theorem deliverAll_keeps {Kept : Connection → Outboxes → Prop}
    (deliverKeeps : ∀ connection payload boxes, Kept connection boxes →
      Kept (connection.deliver payload boxes).2.1 (connection.deliver payload boxes).2.2)
    (payloads : List Payload) {connection : Connection} {boxes : Outboxes}
    (start : Kept connection boxes) :
    Kept (connection.deliverAll payloads boxes).2.1
      (connection.deliverAll payloads boxes).2.2 := by
  induction payloads generalizing connection boxes with
  | nil => exact start
  | cons payload rest induction =>
      exact induction (deliverKeeps connection payload boxes start)

theorem agreesButBacklog_deliverAll (connection : Connection) (payloads : List Payload)
    (boxes : Outboxes) :
    AgreesButBacklog connection (connection.deliverAll payloads boxes).2.1 :=
  deliverAll_keeps
    (fun later payload boxes (agrees : AgreesButBacklog connection later) =>
      agrees.trans (later.agreesButBacklog_deliver payload boxes))
    payloads (.refl connection)

theorem extends_deliverAll (connection : Connection) (payloads : List Payload)
    (boxes : Outboxes) : boxes.Extends (connection.deliverAll payloads boxes).2.2 :=
  deliverAll_keeps
    (fun connection payload later (growth : boxes.Extends later) =>
      growth.trans (connection.extends_deliver payload later))
    payloads (.refl boxes)

theorem fits_deliverAll {connection : Connection} (fits : connection.backlog.Fits)
    (payloads : List Payload) (boxes : Outboxes) :
    (connection.deliverAll payloads boxes).2.1.backlog.Fits :=
  @deliverAll_keeps (fun later _ => later.backlog.Fits)
    (fun _ payload boxes fits => fits_deliver fits payload boxes) payloads connection boxes fits

theorem capacity_deliverAll (connection : Connection) (payloads : List Payload)
    (boxes : Outboxes) :
    (connection.deliverAll payloads boxes).2.1.backlog.capacity = connection.backlog.capacity :=
  @deliverAll_keeps (fun later _ => later.backlog.capacity = connection.backlog.capacity)
    (fun later payload boxes same => (later.capacity_deliver payload boxes).trans same)
    payloads connection boxes rfl

/-- Several deliveries reach no outbox but that of the transport. -/
theorem get?_deliverAll_of_ne (connection : Connection) (payloads : List Payload)
    (boxes : Outboxes) {other : OutboxId} (different : connection.link ≠ .live other) :
    (connection.deliverAll payloads boxes).2.2.get? other = boxes.get? other := by
  induction payloads generalizing connection boxes with
  | nil => rfl
  | cons payload rest induction =>
      rw [snd_deliverAll_cons, induction, get?_deliver_of_ne _ _ _ different]
      rw [(connection.agreesButBacklog_deliver payload boxes).link_eq]
      exact different

/-! ## Transports -/

/-- Offering payloads one after the other only adds to outboxes. -/
theorem extends_replay (outbox : OutboxId) (payloads : List Payload) (boxes : Outboxes) :
    boxes.Extends (replay outbox payloads boxes).2.2 := by
  induction payloads generalizing boxes with
  | nil => exact .refl boxes
  | cons payload rest induction =>
      have first := boxes.extends_offer outbox payload
      unfold replay
      generalize boxes.offer outbox payload = result at first
      obtain ⟨offer, later⟩ := result
      cases offer with
      | accepted => exact first.trans (induction later)
      | full => exact first
      | refused => exact first

theorem letsGo_releaseLink (link : Link) (boxes : Outboxes) :
    boxes.LetsGo (releaseLink link boxes) := by
  cases link with
  | live outbox => exact boxes.letsGo_release outbox
  | detached since => exact .refl boxes

theorem extends_releaseLink (link : Link) (boxes : Outboxes) :
    boxes.Extends (releaseLink link boxes) :=
  (letsGo_releaseLink link boxes).extends

/-- Letting go of a transport concerns its outbox only. -/
theorem get?_releaseLink_of_ne {link : Link} (boxes : Outboxes) {other : OutboxId}
    (different : link ≠ .live other) :
    (releaseLink link boxes).get? other = boxes.get? other := by
  cases link with
  | live outbox => exact boxes.get?_release_of_ne fun same => different (by rw [same])
  | detached since => rfl

/-- The outbox of a transport is let go of. -/
theorem get?_releaseLink_self {link : Link} (boxes : Outboxes) {outbox : OutboxId}
    (attached : link = .live outbox) :
    (releaseLink link boxes).get? outbox = (boxes.get? outbox).map Outbox.release := by
  rw [attached]
  exact boxes.get?_release_self outbox

/-- Letting go of a transport does not depend on other outboxes. -/
theorem get?_releaseLink_set_of_ne (link : Link) (boxes : Outboxes) {outbox other : OutboxId}
    (different : other ≠ outbox) (box : Outbox) :
    (releaseLink link (boxes.set outbox box)).get? other = (releaseLink link boxes).get? other := by
  by_cases attached : link = .live other
  · rw [get?_releaseLink_self _ attached, get?_releaseLink_self _ attached,
      Table.get?_set_of_ne _ different]
  · rw [get?_releaseLink_of_ne _ attached, get?_releaseLink_of_ne _ attached,
      Table.get?_set_of_ne _ different]

theorem extends_attach (connection : Connection) (name : DisplayName) (outbox : OutboxId)
    (generation : Generation) (boxes : Outboxes) :
    boxes.Extends (connection.attach name outbox generation boxes).2.2 :=
  (extends_replay outbox connection.backlog.held boxes).trans
    (extends_releaseLink connection.link _)

/-- Replaying concerns the outbox of the new transport only. -/
theorem get?_replay_of_ne {outbox other : OutboxId} (different : other ≠ outbox)
    (payloads : List Payload) (boxes : Outboxes) :
    (replay outbox payloads boxes).2.2.get? other = boxes.get? other := by
  induction payloads generalizing boxes with
  | nil => rfl
  | cons payload rest induction =>
      have first := boxes.get?_offer_of_ne different payload
      unfold replay
      generalize boxes.offer outbox payload = result at first
      obtain ⟨offer, later⟩ := result
      cases offer with
      | accepted => exact (induction later).trans first
      | full => exact first
      | refused => exact first

/-- An outbox takes over as many payloads as it has slots for, the oldest first, and the
others are left over in their order. -/
theorem replay_eq {outbox : OutboxId} {box : Outbox} {boxes : Outboxes}
    (present : boxes.get? outbox = some box) (payloads : List Payload) :
    replay outbox payloads boxes =
      (min box.slots payloads.length, payloads.drop box.slots,
        boxes.set outbox { box with held := box.held ++ payloads.take box.slots }) := by
  have nothing (held : List Payload) (same : held = box.held) :
      boxes.set outbox { box with held } = boxes := by
    rw [same]
    exact Table.set_of_get?_eq_some present
  induction payloads generalizing box boxes with
  | nil => simp [replay, nothing]
  | cons payload rest induction =>
      unfold replay
      by_cases accepted : box.answer = .accepted
      · let grown : Outbox := { box with held := box.held ++ [payload] }
        have offered : boxes.offer outbox payload = (.accepted, boxes.set outbox grown) := by
          simp [Outboxes.offer, present, Outbox.offer_eq, accepted, grown]
        have later := induction (Table.get?_set_self boxes outbox grown)
          fun held same => by rw [Table.set_set, same]
        have slots : box.slots = grown.slots + 1 := Outbox.slots_of_accepted accepted payload
        rw [offered]
        dsimp only
        rw [later, slots, Table.set_set]
        simp [grown, Nat.succ_min_succ]
      · have slots : box.slots = 0 := Outbox.slots_of_not_accepted accepted
        have offered : boxes.offer outbox payload = (box.answer, boxes) := by
          simp [Outboxes.offer, present, Outbox.offer_eq, accepted, nothing]
        rw [offered, slots]
        cases answer : box.answer with
        | accepted => exact absurd answer accepted
        | full => simp [nothing]
        | refused => simp [nothing]

/-- An outbox with enough room takes over all payloads in order. -/
theorem replay_of_fits {outbox : OutboxId} {box : Outbox} {boxes : Outboxes}
    (present : boxes.get? outbox = some box) (listening : box.isOpen = true)
    {payloads : List Payload} (fits : box.held.length + payloads.length ≤ box.capacity) :
    (replay outbox payloads boxes).2.1 = [] ∧
      (replay outbox payloads boxes).2.2.get? outbox =
        some { box with held := box.held ++ payloads } := by
  have enough : payloads.length ≤ box.slots := by
    rw [Outbox.slots, if_pos listening, Outbox.room]
    omega
  rw [replay_eq present, Table.get?_set_self, List.take_of_length_le enough]
  exact ⟨List.drop_of_length_le enough, rfl⟩

/-- An attachment concerns the outboxes of the two transports only. -/
theorem get?_attach_of_ne (connection : Connection) (name : DisplayName) {outbox : OutboxId}
    (generation : Generation) (boxes : Outboxes) {other : OutboxId} (different : other ≠ outbox)
    (elsewhere : connection.link ≠ .live other) :
    (connection.attach name outbox generation boxes).2.2.get? other = boxes.get? other :=
  (get?_releaseLink_of_ne _ elsewhere).trans (get?_replay_of_ne different _ boxes)

/-- What an attachment makes of a connection: name, generation and transport are
the new ones, and the backlog keeps what was not replayed. -/
theorem attach_eq (connection : Connection) (name : DisplayName) (outbox : OutboxId)
    (generation : Generation) (boxes : Outboxes) :
    (connection.attach name outbox generation boxes).2.1 =
      { connection with
        name
        generation
        link := .live outbox
        backlog := (connection.backlog.take.2.restoreFront
          (replay outbox connection.backlog.held boxes).2.1).2 } := rfl

/-- An attachment moves as much of the backlog into the new outbox as there are slots for,
the oldest payloads first, and loses nothing of what is left. -/
theorem attach_of_present (connection : Connection) (name : DisplayName) {outbox : OutboxId}
    (generation : Generation) {boxes : Outboxes} {box : Outbox}
    (present : boxes.get? outbox = some box) (fits : connection.backlog.Fits) :
    connection.attach name outbox generation boxes =
      (min box.slots connection.backlog.held.length,
        { connection with
          name
          generation
          link := .live outbox
          backlog :=
            { connection.backlog with held := connection.backlog.held.drop box.slots } },
        releaseLink connection.link (boxes.set outbox
          { box with held := box.held ++ connection.backlog.held.take box.slots })) := by
  have room : (connection.backlog.held.drop box.slots).length ≤ connection.backlog.capacity := by
    rw [List.length_drop]
    exact Nat.le_trans (Nat.sub_le _ _) fits
  simp only [attach, Backlog.take, replay_eq present, Backlog.restoreFront, List.append_nil,
    Backlog.newest_of_length_le room]

/-- What a detachment makes of a connection: it has no transport, and the backlog
begins with what could not be written. -/
theorem detach_eq (connection : Connection) (undelivered : List Payload) (since : Stamp)
    (boxes : Outboxes) :
    connection.detach undelivered since boxes =
      ((connection.backlog.restoreFront undelivered).1,
        { connection with
          link := .detached since
          backlog := (connection.backlog.restoreFront undelivered).2 },
        releaseLink connection.link boxes) := rfl

end Connection
end Parley
