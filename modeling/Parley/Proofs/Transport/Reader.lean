import Parley.Proofs.Frame.Command
import Parley.Proofs.Outbox
import Parley.Transport.Reader

/-!
# What a reader asks for and confirms

A command asks the hub for something and never brings or gives up a transport.  What
its outcome adds to the peer's own outbox is at most one confirmation.
-/

namespace Parley

/-- Whether a request tells the end of a transport of a connection. -/
def Request.departs (id : ConnectionId) : Request → Bool
  | .unregister other _ => other = id
  | .detach other _ _ => other = id
  | _ => false

/-- A request of a peer hands over no outbox and ends no transport, and when its
outcome is not waited for there is nothing to confirm. -/
theorem Dispatch.requestOf_spec {sender : ConnectionId} {command : Command} {request : Request}
    (accepted : requestOf sender command = .ok request) :
    request.outbox? = none ∧ (∀ id, request.departs id = false) ∧
      (request.awaited = false → conclude command (.ok .done) = .ok none) := by
  cases command with
  | joinRoom room =>
      obtain ⟨name, -, rfl⟩ := map_eq_ok_iff.1 accepted
      exact ⟨rfl, fun _ => rfl, fun given => by cases given⟩
  | leaveRoom room =>
      obtain ⟨name, -, rfl⟩ := map_eq_ok_iff.1 accepted
      exact ⟨rfl, fun _ => rfl, fun given => by cases given⟩
  | roomMessage room body =>
      obtain ⟨name, -, rfl⟩ := map_eq_ok_iff.1 accepted
      exact ⟨rfl, fun _ => rfl, fun _ => rfl⟩
  | privateMessage recipient body =>
      obtain ⟨name, -, rfl⟩ := map_eq_ok_iff.1 accepted
      exact ⟨rfl, fun _ => rfl, fun _ => rfl⟩
  | broadcast body =>
      cases accepted
      exact ⟨rfl, fun _ => rfl, fun _ => rfl⟩

namespace Reader

theorem fed_confirm (confirmation : Confirmation) (box : Outbox) :
    box.Fed (confirm confirmation box) := by
  unfold confirm
  cases released : box.released with
  | true => exact .refl box
  | false => exact box.fed_offer released confirmation.encode

/-- What the outcome of a command adds to the peer's own outbox. -/
def confirmed (command : Command) (outcome : Outcome) (box : Outbox) : List Payload :=
  match Dispatch.conclude command outcome with
  | .ok (some confirmation) =>
      if box.released = false ∧ box.answer = .accepted then [confirmation.encode] else []
  | _ => []

variable (settings : Settings) (now : Moment) (command : Command) (outcome : Outcome)
  (box : Outbox)

/-- What the outcome of a command hands to the peer's own outbox.  Nothing is handed to
an outbox that is closed: the transport that the peer asked on has ended. -/
def offered (command : Command) (outcome : Outcome) (box : Outbox) : List Payload :=
  match Dispatch.conclude command outcome with
  | .ok (some confirmation) => if box.isClosed then [] else [confirmation.encode]
  | _ => []

/-- What does not find the outbox full is added to it. -/
theorem offered_eq_confirmed (room : offered command outcome box ≠ [] → box.answer ≠ .full) :
    offered command outcome box = confirmed command outcome box := by
  unfold offered confirmed at *
  split
  · rename_i confirmation concluded
    simp only [concluded] at room
    cases closed : box.isClosed with
    | true =>
        refine (if_neg fun both => ?_).symm
        have unclosed := Outbox.isClosed_eq_false_iff.2 ⟨both.1, by simp [both.2]⟩
        rw [closed] at unclosed
        cases unclosed
    | false =>
        obtain ⟨linked, heard⟩ := Outbox.isClosed_eq_false_iff.1 closed
        have notFull := room (by simp [closed])
        have accepted : box.answer = .accepted := by
          cases answer : box.answer with
          | accepted => rfl
          | full => exact absurd answer notFull
          | refused => exact absurd answer heard
        simp [linked, accepted]
  · rfl

theorem confirm_eq (confirmation : Confirmation) (box : Outbox) :
    confirm confirmation box =
      { box with
        held := box.held ++ if box.released = false ∧ box.answer = .accepted then
          [confirmation.encode] else [] } := by
  obtain ⟨capacity, held, consumer, released⟩ := box
  cases released with
  | true => simp [confirm]
  | false =>
      by_cases accepted : Outbox.answer ⟨capacity, held, consumer, false⟩ = .accepted <;>
        simp [confirm, Outbox.offer_eq, accepted]

/-- A command's outcome adds at most one confirmation at the back of the outbox. -/
theorem snd_conclude_eq :
    (conclude settings now command outcome box).2 =
      { box with held := box.held ++ confirmed command outcome box } := by
  unfold conclude confirmed
  cases Dispatch.conclude command outcome with
  | error cause => simp only [List.append_nil]
  | ok confirmation? =>
      cases confirmation? with
      | none => simp only [List.append_nil]
      | some confirmation => exact confirm_eq confirmation box

theorem fed_conclude : box.Fed (conclude settings now command outcome box).2 := by
  unfold conclude
  cases Dispatch.conclude command outcome with
  | error cause => exact .refl box
  | ok confirmation? =>
      cases confirmation? with
      | none => exact .refl box
      | some confirmation => exact fed_confirm confirmation box

/-- Nothing is confirmed into a closed outbox. -/
theorem confirmed_of_closed (closed : box.isOpen = false) : confirmed command outcome box = [] := by
  have refused : box.answer ≠ .accepted := fun accepted => by
    rw [(Outbox.answer_eq_accepted_iff.1 accepted).1] at closed
    cases closed
  unfold confirmed
  split
  · exact if_neg fun both => refused both.2
  · rfl

theorem conclude_of_nothing (nothing : Dispatch.conclude command outcome = .ok none) :
    conclude settings now command outcome box = (listen settings now, box) := by
  simp [conclude, nothing]

theorem conclude_of_stopped :
    conclude settings now command (.error .stopped) box = (.ended .hubClosed, box) := by
  cases command <;> rfl

/-- Only a hub that is gone ends a reader. -/
theorem conclude_ne_hubClosed (alive : outcome ≠ .error .stopped) :
    (conclude settings now command outcome box).1 ≠ .ended .hubClosed := by
  unfold conclude
  split
  · simp [listen]
  · simp [listen]
  · rename_i cause concluded
    have mild : cause.isFatal = false := by
      unfold Dispatch.conclude at concluded
      split at concluded <;> cases concluded
      rename_i refusal _ _
      cases refusal <;> simp_all [DispatchError.ofRefusal, DispatchError.isFatal]
    simp [mild, listen]

end Reader

end Parley
