import Parley.Proofs.Hub.Run

/-!
# Payloads with other texts

Two lists of payloads are alike when they have the same number of payloads, and are the
same list where the payloads are shown to somebody.  No queue looks at the texts that it
holds: alike outboxes answer an offer alike and stay alike, and so do the backlogs of
connections and what is replayed from them.
-/

namespace Parley

/-- As many payloads, and the very same ones where they are shown. -/
structure Alike (shown : Prop) (left right : List Payload) : Prop where
  length : left.length = right.length
  same : shown → left = right

namespace Alike

variable {shown : Prop} {left right : List Payload}

theorem refl (payloads : List Payload) : Alike shown payloads payloads :=
  ⟨rfl, fun _ => rfl⟩

theorem singleton {first second : Payload} (same : shown → first = second) :
    Alike shown [first] [second] :=
  ⟨rfl, fun told => by rw [same told]⟩

theorem append {before after : List Payload} (front : Alike shown left right)
    (back : Alike shown before after) : Alike shown (left ++ before) (right ++ after) :=
  ⟨by rw [List.length_append, List.length_append, front.length, back.length],
    fun told => by rw [front.same told, back.same told]⟩

theorem drop (alike : Alike shown left right) (count : Nat) :
    Alike shown (left.drop count) (right.drop count) :=
  ⟨by rw [List.length_drop, List.length_drop, alike.length],
    fun told => by rw [alike.same told]⟩

theorem newest (alike : Alike shown left right) (capacity : Nat) :
    Alike shown (Backlog.newest capacity left) (Backlog.newest capacity right) := by
  unfold Backlog.newest
  rw [alike.length]
  exact alike.drop _

/-- Alike lists are both empty, or alike in their first payload and in the others. -/
theorem cases (alike : Alike shown left right) :
    (left = [] ∧ right = []) ∨
      ∃ first second before after, left = first :: before ∧ right = second :: after ∧
        (shown → first = second) ∧ Alike shown before after := by
  obtain ⟨length, same⟩ := alike
  cases left with
  | nil => exact .inl ⟨rfl, List.eq_nil_of_length_eq_zero length.symm⟩
  | cons first before =>
      cases right with
      | nil => cases length
      | cons second after =>
          exact .inr ⟨first, second, before, after, rfl, rfl,
            fun told => (List.cons.inj (same told)).1, Nat.succ.inj length,
            fun told => (List.cons.inj (same told)).2⟩

end Alike

/-! ## Outboxes -/

/-- An outbox that differs in the texts of its payloads, if they are not shown. -/
def Outbox.Alike (shown : Prop) (left right : Outbox) : Prop :=
  ∃ held, right = { left with held } ∧ Parley.Alike shown left.held held

namespace Outbox.Alike

variable {shown : Prop} {left right : Outbox}

theorem refl (box : Outbox) : Alike shown box box := ⟨box.held, rfl, .refl box.held⟩

/-- Where the payloads are shown, the outboxes are the same. -/
theorem eq (alike : Alike shown left right) (told : shown) : left = right := by
  obtain ⟨held, rfl, alike⟩ := alike
  rw [← alike.same told]

theorem answer_eq (alike : Alike shown left right) : left.answer = right.answer := by
  obtain ⟨held, rfl, alike⟩ := alike
  unfold answer
  rw [alike.length]
  rfl

theorem offer (alike : Alike shown left right) {first second : Payload}
    (same : shown → first = second) :
    Alike shown (left.offer first).2 (right.offer second).2 := by
  rw [offer_eq, offer_eq, ← alike.answer_eq]
  obtain ⟨held, rfl, alike⟩ := alike
  by_cases accepted : left.answer = .accepted
  · simp only [accepted, if_true]
    exact ⟨_, rfl, alike.append (.singleton same)⟩
  · simp only [accepted, if_false]
    exact ⟨held, rfl, alike⟩

theorem release (alike : Alike shown left right) : Alike shown left.release right.release := by
  obtain ⟨held, rfl, alike⟩ := alike
  exact ⟨held, rfl, alike⟩

/-- What a transport does with alike outboxes leaves alike outboxes. -/
theorem apply (alike : Alike shown left right) (act : OutboxAct) :
    Alike shown (act.apply left) (act.apply right) := by
  cases act with
  | take count =>
      obtain ⟨held, rfl, alike⟩ := alike
      exact ⟨held.drop count, rfl, alike.drop count⟩
  | refuse =>
      obtain ⟨held, rfl, alike⟩ := alike
      exact ⟨held, rfl, alike⟩
  | abandon =>
      obtain ⟨held, rfl, -⟩ := alike
      exact ⟨[], rfl, .refl []⟩
  | confirm confirmation =>
      have offered := alike.offer fun _ => Eq.refl confirmation.encode
      obtain ⟨held, rfl, alike⟩ := alike
      simp only [OutboxAct.apply, Reader.confirm]
      split
      · exact ⟨held, rfl, alike⟩
      · exact offered

end Outbox.Alike

/-- Outboxes that differ in the texts of payloads that are not shown. -/
abbrev Outboxes.Alike (shown : OutboxId → Prop) : Outboxes → Outboxes → Prop :=
  Table.Corresponds fun outbox => Outbox.Alike (shown outbox)

namespace Outboxes.Alike

variable {shown : OutboxId → Prop} {left right : Outboxes}

/-- An offer is answered alike, whatever its text. -/
theorem offer (alike : Alike shown left right) {outbox : OutboxId} {first second : Payload}
    (same : shown outbox → first = second) :
    (left.offer outbox first).1 = (right.offer outbox second).1 ∧
      Alike shown (left.offer outbox first).2 (right.offer outbox second).2 := by
  unfold Outboxes.offer
  cases present : left.get? outbox with
  | none =>
      rw [Table.Corresponds.get?_eq_none alike present]
      exact ⟨rfl, alike⟩
  | some box =>
      obtain ⟨other, found, boxes⟩ := Table.Corresponds.exists_get? alike present
      rw [found]
      refine ⟨?_, Table.Corresponds.set alike (boxes.offer same)⟩
      rw [Outbox.fst_offer, Outbox.fst_offer, boxes.answer_eq]

theorem release (alike : Alike shown left right) (outbox : OutboxId) :
    Alike shown (left.release outbox) (right.release outbox) :=
  Table.Corresponds.modify alike fun _ _ boxes => boxes.release

theorem releaseLink (alike : Alike shown left right) (link : Link) :
    Alike shown (Connection.releaseLink link left) (Connection.releaseLink link right) := by
  cases link with
  | live outbox => exact alike.release outbox
  | detached since => exact alike

theorem releaseLinks (alike : Alike shown left right) (links : List Link) :
    Alike shown (links.foldl (fun boxes link => Connection.releaseLink link boxes) left)
      (links.foldl (fun boxes link => Connection.releaseLink link boxes) right) := by
  induction links generalizing left right with
  | nil => exact alike
  | cons link rest induction => exact induction (alike.releaseLink link)

end Outboxes.Alike

/-! ## Connections -/

/-- A connection that differs in the texts of its backlog, if they are not shown. -/
def Connection.Alike (shown : Prop) (left right : Connection) : Prop :=
  ∃ held, right = { left with backlog := { left.backlog with held } } ∧
    Parley.Alike shown left.backlog.held held

namespace Connection.Alike

variable {shown : Prop} {shownBoxes : OutboxId → Prop} {left right : Connection}
  {boxes others : Outboxes}

theorem refl (connection : Connection) : Alike shown connection connection :=
  ⟨connection.backlog.held, rfl, .refl _⟩

theorem eq (alike : Alike shown left right) (told : shown) : left = right := by
  obtain ⟨held, rfl, alike⟩ := alike
  rw [← alike.same told]

theorem generation_eq (alike : Alike shown left right) : right.generation = left.generation := by
  obtain ⟨held, rfl, -⟩ := alike
  rfl

theorem link_eq (alike : Alike shown left right) : right.link = left.link := by
  obtain ⟨held, rfl, -⟩ := alike
  rfl

theorem isLive_eq (alike : Alike shown left right) : right.isLive = left.isLive := by
  obtain ⟨held, rfl, -⟩ := alike
  rfl

theorem keep (alike : Alike shown left right) {first second : Payload}
    (same : shown → first = second) :
    Alike shown (left.keep first).2 (right.keep second).2 := by
  obtain ⟨held, rfl, alike⟩ := alike
  have grown := alike.append (.singleton same)
  unfold Connection.keep Backlog.push
  dsimp only
  rw [← alike.length]
  split
  · exact ⟨held, rfl, alike⟩
  · split
    · exact ⟨_, rfl, (alike.drop 1).append (.singleton same)⟩
    · exact ⟨_, rfl, grown⟩

/-- Alike connections are given a payload alike, whatever its text, as long as the outbox
of a connection shows no more than the connection may. -/
theorem deliver (alike : Alike shown left right) (boxesAlike : Outboxes.Alike shownBoxes boxes others)
    (wired : ∀ outbox, left.link = .live outbox → shownBoxes outbox → shown)
    {first second : Payload} (same : shown → first = second) :
    Alike shown (left.deliver first boxes).2.1 (right.deliver second others).2.1 ∧
      Outboxes.Alike shownBoxes (left.deliver first boxes).2.2
        (right.deliver second others).2.2 := by
  have kept := alike.keep same
  unfold Connection.deliver
  rw [alike.link_eq]
  cases attached : left.link with
  | detached since => exact ⟨kept, boxesAlike⟩
  | live outbox =>
      obtain ⟨answers, offered⟩ :=
        boxesAlike.offer fun told => same (wired outbox attached told)
      dsimp only
      generalize boxes.offer outbox first = here at answers offered
      generalize others.offer outbox second = there at answers offered
      obtain ⟨answer, later⟩ := here
      obtain ⟨answer', later'⟩ := there
      obtain rfl : answer = answer' := answers
      cases answer with
      | accepted => exact ⟨alike, offered⟩
      | full => exact ⟨alike, offered⟩
      | refused => exact ⟨kept, offered⟩

theorem deliverAll (alike : Alike shown left right)
    (boxesAlike : Outboxes.Alike shownBoxes boxes others)
    (wired : ∀ outbox, left.link = .live outbox → shownBoxes outbox → shown)
    {payloads texts : List Payload} (same : Parley.Alike shown payloads texts) :
    Alike shown (left.deliverAll payloads boxes).2.1 (right.deliverAll texts others).2.1 ∧
      Outboxes.Alike shownBoxes (left.deliverAll payloads boxes).2.2
        (right.deliverAll texts others).2.2 := by
  induction payloads generalizing texts left right boxes others with
  | nil =>
      obtain rfl : texts = [] := List.eq_nil_of_length_eq_zero same.length.symm
      exact ⟨alike, boxesAlike⟩
  | cons first rest induction =>
      rcases same.cases with ⟨impossible, -⟩ | ⟨_, second, _, after, split, rfl, equal, others⟩
      · cases impossible
      · cases split
        obtain ⟨connections, outboxes⟩ := alike.deliver boxesAlike wired equal
        refine induction connections outboxes (fun outbox attached => wired outbox ?_) others
        rw [← (left.agreesButBacklog_deliver first boxes).link_eq]
        exact attached

/-- Of alike backlogs the same number is replayed. -/
theorem replay (boxesAlike : Outboxes.Alike shownBoxes boxes others) {outbox : OutboxId}
    (wired : shownBoxes outbox → shown) {payloads texts : List Payload}
    (same : Parley.Alike shown payloads texts) :
    Parley.Alike shown (Connection.replay outbox payloads boxes).2.1
        (Connection.replay outbox texts others).2.1 ∧
      Outboxes.Alike shownBoxes (Connection.replay outbox payloads boxes).2.2
        (Connection.replay outbox texts others).2.2 := by
  induction payloads generalizing texts boxes others with
  | nil =>
      obtain rfl : texts = [] := List.eq_nil_of_length_eq_zero same.length.symm
      exact ⟨.refl [], boxesAlike⟩
  | cons first rest induction =>
      rcases same.cases with ⟨impossible, -⟩ | ⟨_, second, _, after, split, rfl, equal, behind⟩
      · cases impossible
      · cases split
        obtain ⟨answers, offered⟩ := boxesAlike.offer fun told => equal (wired told)
        unfold Connection.replay
        generalize boxes.offer outbox first = here at answers offered
        generalize others.offer outbox second = there at answers offered
        obtain ⟨answer, later⟩ := here
        obtain ⟨answer', later'⟩ := there
        obtain rfl : answer = answer' := answers
        cases answer with
        | accepted => exact induction offered behind
        | full => exact ⟨same, offered⟩
        | refused => exact ⟨same, offered⟩

theorem attach (alike : Alike shown left right)
    (boxesAlike : Outboxes.Alike shownBoxes boxes others) (name : DisplayName)
    {outbox : OutboxId} (generation : Generation) (wired : shownBoxes outbox → shown) :
    Alike shown (left.attach name outbox generation boxes).2.1
        (right.attach name outbox generation others).2.1 ∧
      Outboxes.Alike shownBoxes (left.attach name outbox generation boxes).2.2
        (right.attach name outbox generation others).2.2 := by
  obtain ⟨held, rfl, alike⟩ := alike
  obtain ⟨left, replayed⟩ := replay boxesAlike wired alike
  rw [attach_eq, attach_eq]
  refine ⟨⟨_, rfl, ?_⟩, replayed.releaseLink _⟩
  exact (left.append (.refl [])).newest _

theorem detach (alike : Alike shown left right)
    (boxesAlike : Outboxes.Alike shownBoxes boxes others) (since : Stamp)
    {undelivered texts : List Payload} (same : Parley.Alike shown undelivered texts) :
    Alike shown (left.detach undelivered since boxes).2.1
        (right.detach texts since others).2.1 ∧
      Outboxes.Alike shownBoxes (left.detach undelivered since boxes).2.2
        (right.detach texts since others).2.2 := by
  obtain ⟨held, rfl, alike⟩ := alike
  rw [detach_eq, detach_eq]
  exact ⟨⟨_, rfl, (same.append alike).newest _⟩, boxesAlike.releaseLink _⟩

end Connection.Alike
end Parley
