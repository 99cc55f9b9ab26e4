import Parley.Table

/-!
# Outboxes

An outbox is the bounded queue between the hub and one transport.  The hub
offers payloads at the back, the transport takes them from the front.  Either
side may leave first: the hub releases an outbox it will never offer to again,
and the consumer refuses what it no longer wants.
-/

namespace Parley

/-- A message as it travels from the hub to a peer. -/
abbrev Payload := String

/-- Names an outbox. -/
abbrev OutboxId := Nat

/-- What the consumer of an outbox does. -/
inductive Consumer
  /-- Takes payloads. -/
  | listening
  /-- Accepts nothing new; what is held can still be taken. -/
  | refusing
  /-- Takes nothing any more. -/
  | gone
  deriving DecidableEq, Repr

/-- A bounded queue of payloads. -/
structure Outbox where
  capacity : Nat
  /-- The payloads held, oldest first. -/
  held : List Payload := []
  consumer : Consumer := .listening
  /-- Whether the hub has let go of the outbox. -/
  released : Bool := false
  deriving DecidableEq, Repr

/-- What becomes of an offered payload. -/
inductive Offer
  | accepted
  | full
  | refused
  deriving DecidableEq, Repr

namespace Outbox

/-- Whether the consumer still accepts payloads. -/
def isOpen (box : Outbox) : Bool := box.consumer = .listening

/-- Whether nobody will add to the outbox any more. -/
def isClosed (box : Outbox) : Bool := box.released || !box.isOpen

/-- The number of payloads that still fit. -/
def room (box : Outbox) : Nat := box.capacity - box.held.length

/-- How the outbox answers an offer. -/
def answer (box : Outbox) : Offer :=
  if !box.isOpen then .refused
  else if box.held.length < box.capacity then .accepted
  else .full

/-- Offer a payload; only an accepted one is held. -/
def offer (box : Outbox) (payload : Payload) : Offer × Outbox :=
  match box.answer with
  | .accepted => (.accepted, { box with held := box.held ++ [payload] })
  | refusal => (refusal, box)

/-- An accepted payload stands behind all others; any other payload leaves no
trace. -/
theorem held_offer (box : Outbox) (payload : Payload) :
    (box.offer payload).2.held =
      if box.answer = .accepted then box.held ++ [payload] else box.held := by
  unfold offer
  cases box.answer <;> rfl

/-- An offer is answered as `answer` tells. -/
@[simp]
theorem fst_offer (box : Outbox) (payload : Payload) :
    (box.offer payload).1 = box.answer := by
  unfold offer
  cases equal : box.answer <;> rfl

/-- A payload is accepted exactly when somebody listens and there is room. -/
theorem answer_eq_accepted_iff {box : Outbox} :
    box.answer = .accepted ↔ box.isOpen = true ∧ box.held.length < box.capacity := by
  unfold answer
  cases open? : box.isOpen
  · simp
  · by_cases fits : box.held.length < box.capacity <;> simp [fits]

/-- The hub lets go of the outbox. -/
def release (box : Outbox) : Outbox := { box with released := true }

/-- The consumer accepts nothing new. -/
def refuse (box : Outbox) : Outbox :=
  { box with consumer := if box.consumer = .listening then .refusing else box.consumer }

/-- The consumer leaves, and what is held is lost. -/
def abandon (box : Outbox) : Outbox := { box with consumer := .gone, held := [] }

/-- What a consumer sees that takes up to `limit` payloads, or all of them: the
payloads, and whether it ran dry with nothing more to come. -/
structure Taken where
  payloads : List Payload
  ended : Bool
  deriving DecidableEq, Repr

/-- Take up to `limit` payloads, or all of them; `none` when the consumer is
gone. -/
def take? (box : Outbox) (limit : Option Nat) : Option (Taken × Outbox) :=
  if box.consumer = .gone then none
  else
    match limit with
    | none => some (⟨box.held, box.isClosed⟩, { box with held := [] })
    | some count =>
        let ranDry := box.held.length < count
        some (⟨box.held.take count, ranDry && box.isClosed⟩,
          { box with held := box.held.drop count })

end Outbox

/-- All outboxes, by name. -/
abbrev Outboxes := Table OutboxId Outbox

namespace Outboxes

/-- Offer a payload to an outbox; one that does not exist refuses it. -/
def offer (boxes : Outboxes) (id : OutboxId) (payload : Payload) : Offer × Outboxes :=
  match boxes.get? id with
  | none => (.refused, boxes)
  | some box => ((box.offer payload).1, boxes.set id (box.offer payload).2)

/-- Let go of an outbox. -/
def release (boxes : Outboxes) (id : OutboxId) : Outboxes :=
  boxes.modify id Outbox.release

end Outboxes
end Parley
