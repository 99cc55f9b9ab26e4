import Parley.Proofs.Connection

/-!
# The account of a connection

A connection alone with the outboxes of its transports, one after the other, while
payloads are delivered, transports come and are lost, and consumers take payloads or
leave, in any order.  The account lists what was handed in and what became of it, as far
as the connection told.  Nothing is lost without being told, and nothing is there twice.
-/

namespace Parley

/-- What happens to a connection and its outboxes. -/
inductive ConnectionAct
  | deliver (payload : Payload)
  /-- A transport brings an outbox of its own, in any state. -/
  | attach (name : DisplayName) (generation : Generation) (outbox : OutboxId) (box : Outbox)
  | detach (undelivered : List Payload) (since : Stamp)
  /-- A consumer takes payloads, the oldest first. -/
  | take (outbox : OutboxId) (count : Nat)
  /-- A consumer accepts nothing new. -/
  | refuse (outbox : OutboxId)
  /-- A consumer leaves with everything that is held. -/
  | abandon (outbox : OutboxId)
  deriving DecidableEq, Repr

/-- The number of payloads that a delivery cost. -/
def Delivery.evictions : Delivery → Nat
  | .queued | .droppedFull => 0
  | .backlogged evicted => evicted.toNat

/-- Payloads, and the outboxes that they passed through. -/
abbrev Passage := List (OutboxId × Payload)

namespace Passage

/-- The payloads that passed through one outbox. -/
def through (passage : Passage) (outbox : OutboxId) : List Payload :=
  (passage.filter fun entry => entry.1 = outbox).map Prod.snd

/-- Payloads that pass through an outbox. -/
def along (outbox : OutboxId) (payloads : List Payload) : Passage :=
  payloads.map fun payload => (outbox, payload)

@[simp]
theorem through_nil (outbox : OutboxId) : through [] outbox = [] := rfl

@[simp]
theorem through_append (first second : Passage) (outbox : OutboxId) :
    through (first ++ second) outbox = first.through outbox ++ second.through outbox := by
  simp [through]

@[simp]
theorem through_along_self (outbox : OutboxId) (payloads : List Payload) :
    (along outbox payloads).through outbox = payloads := by
  simp [through, along, List.filter_map, Function.comp_def]

@[simp]
theorem through_along_of_ne {outbox other : OutboxId} (different : other ≠ outbox)
    (payloads : List Payload) : (along outbox payloads).through other = [] := by
  simp [through, along, List.filter_map, Function.comp_def, different.symm]

@[simp]
theorem map_snd_along (outbox : OutboxId) (payloads : List Payload) :
    (along outbox payloads).map Prod.snd = payloads := by
  simp [along, Function.comp_def]

end Passage

/-- The payloads that an outbox holds, none when it does not exist. -/
def Outboxes.heldIn (boxes : Outboxes) (outbox : OutboxId) : List Payload :=
  (boxes.get? outbox).elim [] Outbox.held

namespace Outboxes

theorem heldIn_of_get?_eq_some {boxes : Outboxes} {outbox : OutboxId} {box : Outbox}
    (found : boxes.get? outbox = some box) : boxes.heldIn outbox = box.held := by
  rw [heldIn, found]
  rfl

theorem heldIn_of_get?_eq_none {boxes : Outboxes} {outbox : OutboxId}
    (absent : boxes.get? outbox = none) : boxes.heldIn outbox = [] := by
  rw [heldIn, absent]
  rfl

theorem heldIn_set_self (boxes : Outboxes) (outbox : OutboxId) (box : Outbox) :
    heldIn (boxes.set outbox box) outbox = box.held :=
  heldIn_of_get?_eq_some (boxes.get?_set_self outbox box)

theorem heldIn_set_of_ne (boxes : Outboxes) {outbox other : OutboxId} (different : other ≠ outbox)
    (box : Outbox) : heldIn (boxes.set outbox box) other = boxes.heldIn other := by
  rw [heldIn, boxes.get?_set_of_ne different, heldIn]

/-- Nothing leaves an outbox when the hub lets go of it. -/
theorem LetsGo.heldIn_eq {before after : Outboxes} (letsGo : before.LetsGo after)
    (outbox : OutboxId) : after.heldIn outbox = before.heldIn outbox := by
  unfold heldIn
  rcases letsGo outbox with same | released
  · rw [same]
  · rw [released]
    cases before.get? outbox <;> rfl

end Outboxes

/-- An outbox that nobody has let go of. -/
def Outbox.linked (box : Outbox) : Outbox := { box with released := false }

@[simp]
theorem Outbox.held_linked (box : Outbox) : box.linked.held = box.held := rfl

@[simp]
theorem Outbox.released_linked (box : Outbox) : box.linked.released = false := rfl

@[simp]
theorem Outbox.slots_linked (box : Outbox) : box.linked.slots = box.slots := rfl

/-- A connection, its outboxes, and what became of the payloads so far. -/
structure Account where
  connection : Connection
  boxes : Outboxes
  /-- The payloads that were delivered, or could not be written. -/
  handed : List Payload := []
  /-- The payloads that outboxes held when they were brought. -/
  brought : Passage
  /-- The payloads that outboxes accepted from the connection. -/
  accepted : Passage := []
  /-- The payloads that consumers took. -/
  taken : Passage := []
  /-- The payloads of which the connection told that they were dropped. -/
  dropped : List Payload := []
  /-- The oldest payloads, as many as the connection told that were lost. -/
  evicted : List Payload := []
  /-- The number of losses that the connection told of. -/
  evictions : Nat := 0

namespace Account

/-- A connection with its first transport. -/
def start (id : ConnectionId) (name : DisplayName) (generation : Generation) (outbox : OutboxId)
    (box : Outbox) (backlogCapacity : Nat) (connectedAt : Stamp) : Account :=
  { connection := .new id name generation outbox backlogCapacity connectedAt
    boxes := Table.empty.set outbox box.linked
    brought := .along outbox box.held }

/-- The passage of a payload that a delivery queued. -/
def queued (connection : Connection) (payload : Payload) : Delivery → Passage
  | .queued => connection.outbox?.elim [] fun outbox => .along outbox [payload]
  | _ => []

/-- A consumer takes payloads from an outbox and changes it. -/
def consume (account : Account) (outbox : OutboxId) (taken : List Payload)
    (change : Outbox → Outbox) : Account :=
  { account with
    boxes := account.boxes.modify outbox change
    taken := account.taken ++ .along outbox taken }

/-- What an act makes of an account.  An outbox that exists is not brought again. -/
def step (account : Account) : ConnectionAct → Account
  | .deliver payload =>
      let (delivery, connection, boxes) := account.connection.deliver payload account.boxes
      { account with
        connection
        boxes
        handed := account.handed ++ [payload]
        accepted := account.accepted ++ queued account.connection payload delivery
        dropped := account.dropped ++ if delivery = .droppedFull then [payload] else []
        evicted := account.evicted ++
          (account.connection.backlog.held ++ [payload]).take delivery.evictions
        evictions := account.evictions + delivery.evictions }
  | .attach name generation outbox box =>
      if account.boxes.contains outbox then account
      else
        let (count, connection, boxes) := account.connection.attach name outbox generation
          (account.boxes.set outbox box.linked)
        { account with
          connection
          boxes
          brought := account.brought ++ .along outbox box.held
          accepted := account.accepted ++
            .along outbox (account.connection.backlog.held.take count) }
  | .detach undelivered since =>
      let (count, connection, boxes) := account.connection.detach undelivered since account.boxes
      { account with
        connection
        boxes
        handed := account.handed ++ undelivered
        evicted := account.evicted ++
          (undelivered ++ account.connection.backlog.held).take count
        evictions := account.evictions + count }
  | .take outbox count =>
      account.consume outbox ((account.boxes.heldIn outbox).take count)
        fun box => { box with held := box.held.drop count }
  | .refuse outbox => account.consume outbox [] Outbox.refuse
  | .abandon outbox => account.consume outbox (account.boxes.heldIn outbox) Outbox.abandon

/-- What several acts make of an account. -/
def run (account : Account) (acts : List ConnectionAct) : Account := acts.foldl step account

/-- An outbox that exists is not brought again. -/
theorem step_attach_of_known {account : Account} {outbox : OutboxId}
    (known : account.boxes.contains outbox = true) (name : DisplayName)
    (generation : Generation) (box : Outbox) :
    account.step (.attach name generation outbox box) = account := by
  simp only [step, known, if_true]

/-- A new transport takes over the oldest payloads of the backlog. -/
theorem step_attach_of_absent {account : Account} {outbox : OutboxId}
    (absent : account.boxes.get? outbox = none) (fits : account.connection.backlog.Fits)
    (name : DisplayName) (generation : Generation) (box : Outbox) :
    account.step (.attach name generation outbox box) =
      { account with
        connection :=
          { account.connection with
            name
            generation
            link := .live outbox
            backlog :=
              { account.connection.backlog with
                held := account.connection.backlog.held.drop box.slots } }
        boxes := Connection.releaseLink account.connection.link (account.boxes.set outbox
          { box.linked with
            held := box.held ++ account.connection.backlog.held.take box.slots })
        brought := account.brought ++ .along outbox box.held
        accepted := account.accepted ++
          .along outbox (account.connection.backlog.held.take box.slots) } := by
  have unknown : account.boxes.contains outbox = false := by simp [Table.contains, absent]
  have taken : account.connection.backlog.held.take
      (min box.slots account.connection.backlog.held.length) =
        account.connection.backlog.held.take box.slots :=
    List.take_eq_take_iff.2 (by omega)
  have attached := account.connection.attach_of_present name generation
    (account.boxes.get?_set_self outbox box.linked) fits
  simp only [step, unknown, attached, Bool.false_eq_true, if_false, Table.set_set,
    Outbox.slots_linked, Outbox.held_linked, taken]

/-- An account in which both sides agree. -/
structure Balanced (backlogCapacity : Nat) (account : Account) : Prop where
  /-- Whatever was handed in was accepted, waits, was dropped or was evicted. -/
  conserved : ∀ payload,
    account.handed.count payload =
      (account.accepted.map Prod.snd).count payload +
        account.connection.backlog.held.count payload +
        account.dropped.count payload + account.evicted.count payload
  told : account.evicted.length = account.evictions
  capacity_eq : account.connection.backlog.capacity = backlogCapacity
  fits : account.connection.backlog.Fits
  /-- What an outbox was brought with and what it accepted was taken or is still held. -/
  streams : ∀ outbox,
    account.brought.through outbox ++ account.accepted.through outbox =
      account.taken.through outbox ++ account.boxes.heldIn outbox
  /-- An outbox that was not brought has no part in it. -/
  unknown : ∀ outbox, account.boxes.get? outbox = none →
    account.brought.through outbox = [] ∧ account.accepted.through outbox = []
  /-- The connection has let go of every outbox but that of its transport. -/
  linked : ∀ outbox box, account.boxes.get? outbox = some box →
    (box.released = false ↔ account.connection.link = .live outbox)
  present : ∀ outbox, account.connection.link = .live outbox →
    ∃ box, account.boxes.get? outbox = some box

namespace Balanced

variable {backlogCapacity : Nat} {account : Account}

theorem start (id : ConnectionId) (name : DisplayName) (generation : Generation)
    (outbox : OutboxId) (box : Outbox) (backlogCapacity : Nat) (connectedAt : Stamp) :
    (start id name generation outbox box backlogCapacity connectedAt).Balanced
      backlogCapacity where
  conserved payload := rfl
  told := rfl
  capacity_eq := rfl
  fits := Nat.zero_le _
  streams other := by
    by_cases same : other = outbox
    · subst same
      simp [Account.start, Outboxes.heldIn_set_self]
    · have nothing : Outboxes.heldIn Table.empty other = [] := rfl
      simp [Account.start, same, Outboxes.heldIn_set_of_ne _ same, nothing]
  unknown other absent := by
    have different : other ≠ outbox := by
      rintro rfl
      simp [Account.start] at absent
    simp [Account.start, different]
  linked other found present := by
    unfold Account.start at present
    rw [Table.get?_set] at present
    split at present
    · rename_i same
      cases present
      simp [Account.start, Connection.new, same]
    · cases present
  present other link := by
    obtain rfl : outbox = other := Link.live.inj link
    exact ⟨_, Table.get?_set_self _ _ _⟩

/-- A delivery is accepted, dropped or kept, and told as such. -/
theorem deliver (balanced : account.Balanced backlogCapacity) (payload : Payload) :
    (account.step (.deliver payload)).Balanced backlogCapacity := by
  rcases account.connection.deliver_cases payload account.boxes with
    ⟨outbox, box, link, found, accepted, result⟩ | ⟨outbox, box, link, found, full, result⟩ |
      ⟨closed, result⟩
  · have grown (other : OutboxId) (different : other ≠ outbox) := account.boxes.get?_set_of_ne
      different { box with held := box.held ++ [payload] }
    simp only [step, result, queued, Connection.outbox?, link, Delivery.evictions, List.take_zero,
      List.append_nil, Nat.add_zero, reduceCtorEq, if_false, Option.elim_some]
    refine ⟨fun other => ?_, balanced.told, balanced.capacity_eq, balanced.fits, fun other => ?_,
      fun other absent => ?_, fun other entry present => ?_, fun other attached => ?_⟩
    · have before := balanced.conserved other
      simp only [List.map_append, List.count_append, Passage.map_snd_along]
      omega
    · have before := balanced.streams other
      by_cases same : other = outbox
      · subst same
        rw [Outboxes.heldIn_of_get?_eq_some found] at before
        rw [Passage.through_append, Passage.through_along_self, ← List.append_assoc, before,
          Outboxes.heldIn_set_self, List.append_assoc]
      · rw [Passage.through_append, Passage.through_along_of_ne same, List.append_nil, before,
          Outboxes.heldIn_set_of_ne _ same]
    · have different : other ≠ outbox := by
        rintro rfl
        simp at absent
      rw [grown other different] at absent
      rw [Passage.through_append, Passage.through_along_of_ne different, List.append_nil]
      exact balanced.unknown other absent
    · rw [Table.get?_set] at present
      split at present
      · rename_i same
        cases present
        rw [same]
        exact balanced.linked outbox box found
      · exact balanced.linked other entry present
    · obtain rfl := Link.live.inj (link.symm.trans attached)
      exact ⟨_, Table.get?_set_self _ _ _⟩
  · simp only [step, result, queued, Delivery.evictions, List.take_zero, List.append_nil,
      Nat.add_zero, if_true]
    refine { balanced with conserved := fun other => ?_ }
    have before := balanced.conserved other
    simp only [List.count_append]
    omega
  · simp only [step, result, queued, Connection.keep, Delivery.evictions, reduceCtorEq, if_false,
      List.append_nil]
    have split := Backlog.take_append_held_push balanced.fits payload
    have lost := Backlog.toNat_fst_push balanced.fits payload
    refine { balanced with
      conserved := fun other => ?_
      told := ?_
      capacity_eq := (Backlog.capacity_push _ _).trans balanced.capacity_eq
      fits := balanced.fits.push payload }
    · have before := balanced.conserved other
      have counted := congrArg (List.count other) split
      simp only [List.count_append] at counted ⊢
      omega
    · rw [List.length_append, balanced.told, List.length_take, lost,
        Nat.min_eq_left (Nat.sub_le _ _)]

/-- Once the connection has let go of its transport it has let go of every outbox that it
had before. -/
theorem released (balanced : account.Balanced backlogCapacity) {outbox : OutboxId} {box : Outbox}
    (found : (Connection.releaseLink account.connection.link account.boxes).get? outbox =
      some box) : box.released = true := by
  by_cases attached : account.connection.link = .live outbox
  · rw [Connection.get?_releaseLink_self _ attached] at found
    obtain ⟨before, _, rfl⟩ := Option.map_eq_some_iff.1 found
    rfl
  · rw [Connection.get?_releaseLink_of_ne _ attached] at found
    rw [← Bool.not_eq_false, balanced.linked outbox box found]
    exact attached

/-- Letting go of an outbox does not make it vanish. -/
theorem absent {outbox : OutboxId}
    (missing : (Connection.releaseLink account.connection.link account.boxes).get? outbox = none) :
    account.boxes.get? outbox = none := by
  rcases Connection.letsGo_releaseLink account.connection.link account.boxes outbox with
    same | released
  · exact same ▸ missing
  · exact Option.map_eq_none_iff.1 (released ▸ missing)

/-- A loss of the transport keeps what could not be written, up to the capacity. -/
theorem detach (balanced : account.Balanced backlogCapacity) (undelivered : List Payload)
    (since : Stamp) : (account.step (.detach undelivered since)).Balanced backlogCapacity := by
  have split := account.connection.backlog.take_append_held_restoreFront undelivered
  have letsGo := Connection.letsGo_releaseLink account.connection.link account.boxes
  simp only [step, Connection.detach_eq]
  refine ⟨fun other => ?_, ?_, balanced.capacity_eq, .restoreFront _ _, fun other => ?_,
    fun other absent => ?_, fun other box found => ?_, fun other attached => by cases attached⟩
  · have before := balanced.conserved other
    have counted := congrArg (List.count other) split
    simp only [List.count_append] at counted ⊢
    omega
  · rw [List.length_append, balanced.told, List.length_take]
    exact congrArg _ (Nat.min_eq_left (Nat.sub_le _ _))
  · rw [letsGo.heldIn_eq]
    exact balanced.streams other
  · exact balanced.unknown other (Balanced.absent absent)
  · simp [balanced.released found]

theorem link_ne (balanced : account.Balanced backlogCapacity) {outbox : OutboxId}
    (absent : account.boxes.get? outbox = none) : account.connection.link ≠ .live outbox := by
  intro attached
  obtain ⟨box, found⟩ := balanced.present outbox attached
  rw [absent] at found
  cases found

/-- The oldest payloads of the backlog pass to a new transport. -/
theorem attach (balanced : account.Balanced backlogCapacity) (name : DisplayName)
    (generation : Generation) (outbox : OutboxId) (box : Outbox) :
    (account.step (.attach name generation outbox box)).Balanced backlogCapacity := by
  cases known : account.boxes.contains outbox with
  | true =>
      rw [step_attach_of_known known]
      exact balanced
  | false =>
      have absent : account.boxes.get? outbox = none := by simpa [Table.contains] using known
      let moved := account.connection.backlog.held.take box.slots
      let grown : Outbox := { box.linked with held := box.held ++ moved }
      have letsGo := Connection.letsGo_releaseLink account.connection.link
        (account.boxes.set outbox grown)
      have own : (Connection.releaseLink account.connection.link
          (account.boxes.set outbox grown)).get? outbox = some grown :=
        (Connection.get?_releaseLink_of_ne _ (balanced.link_ne absent)).trans
          (Table.get?_set_self _ _ _)
      rw [step_attach_of_absent absent balanced.fits]
      refine ⟨fun payload => ?_, balanced.told, balanced.capacity_eq, ?_, fun other => ?_,
        fun other missing => ?_, fun other entry found => ?_, fun other attached => ?_⟩
      · have before := balanced.conserved payload
        have counted := congrArg (List.count payload)
          (List.take_append_drop box.slots account.connection.backlog.held)
        simp only [List.map_append, List.count_append, Passage.map_snd_along] at counted ⊢
        omega
      · have fits := balanced.fits
        unfold Backlog.Fits at fits ⊢
        simp only [List.length_drop]
        omega
      · have before := balanced.streams other
        rw [letsGo.heldIn_eq, Passage.through_append, Passage.through_append]
        by_cases same : other = outbox
        · subst same
          -- a new outbox had no part in the account, so its stream begins with what it holds
          obtain ⟨noneBrought, noneAccepted⟩ := balanced.unknown other absent
          rw [noneBrought, noneAccepted, Outboxes.heldIn_of_get?_eq_none absent, List.append_nil,
            List.append_nil] at before
          rw [noneBrought, noneAccepted, ← before, Outboxes.heldIn_set_self]
          simp [grown, moved]
        · rw [Passage.through_along_of_ne same, Passage.through_along_of_ne same,
            Outboxes.heldIn_set_of_ne _ same, List.append_nil, List.append_nil, before]
      · have different : other ≠ outbox := by
          rintro rfl
          exact Option.some_ne_none _ (own.symm.trans missing)
        rw [Connection.get?_releaseLink_set_of_ne _ _ different] at missing
        obtain ⟨noneBrought, noneAccepted⟩ := balanced.unknown other (Balanced.absent missing)
        simp [noneBrought, noneAccepted, different]
      · by_cases same : other = outbox
        · subst same
          obtain rfl := Option.some.inj (own.symm.trans found)
          exact ⟨fun _ => rfl, fun _ => rfl⟩
        · rw [Connection.get?_releaseLink_set_of_ne _ _ same] at found
          simp [balanced.released found, Ne.symm same]
      · obtain rfl : outbox = other := Link.live.inj attached
        exact ⟨grown, own⟩

/-- A consumer only moves payloads from what is held to what was taken. -/
theorem consume (balanced : account.Balanced backlogCapacity) {outbox : OutboxId}
    {taken : List Payload} {change : Outbox → Outbox}
    (moves : taken ++ ((account.boxes.get? outbox).map change).elim [] Outbox.held =
      account.boxes.heldIn outbox)
    (keeps : ∀ box, (change box).released = box.released) :
    (account.consume outbox taken change).Balanced backlogCapacity := by
  have own : (account.boxes.modify outbox change).get? outbox =
      (account.boxes.get? outbox).map change := by simp [Table.get?_modify]
  have others {other : OutboxId} (different : other ≠ outbox) :
      (account.boxes.modify outbox change).get? other = account.boxes.get? other := by
    simp [Table.get?_modify, different]
  refine { balanced with
    streams := fun other => ?_
    unknown := fun other missing => ?_
    linked := fun other box found => ?_
    present := fun other attached => ?_ }
  · simp only [Account.consume, Passage.through_append]
    rw [balanced.streams other, List.append_assoc]
    by_cases same : other = outbox
    · subst same
      rw [Passage.through_along_self, ← moves, ← own]
      rfl
    · rw [Passage.through_along_of_ne same, List.nil_append, Outboxes.heldIn, Outboxes.heldIn,
        others same]
  · refine balanced.unknown other ?_
    by_cases same : other = outbox
    · subst same
      exact Option.map_eq_none_iff.1 (own.symm.trans missing)
    · exact (others same).symm.trans missing
  · by_cases same : other = outbox
    · subst same
      obtain ⟨before, earlier, rfl⟩ := Option.map_eq_some_iff.1 (own.symm.trans found)
      rw [keeps]
      exact balanced.linked other before earlier
    · exact balanced.linked other box ((others same).symm.trans found)
  · obtain ⟨box, found⟩ := balanced.present other attached
    by_cases same : other = outbox
    · subst same
      exact ⟨change box, own.trans (congrArg (Option.map change) found)⟩
    · exact ⟨box, (others same).trans found⟩

/-- Every act keeps both sides in agreement. -/
theorem step (balanced : account.Balanced backlogCapacity) (act : ConnectionAct) :
    (account.step act).Balanced backlogCapacity := by
  cases act with
  | deliver payload => exact balanced.deliver payload
  | attach name generation outbox box => exact balanced.attach name generation outbox box
  | detach undelivered since => exact balanced.detach undelivered since
  | take outbox count =>
      refine balanced.consume ?_ fun _ => rfl
      unfold Outboxes.heldIn
      cases account.boxes.get? outbox with
      | none => simp
      | some box => exact List.take_append_drop count box.held
  | refuse outbox =>
      refine balanced.consume ?_ fun _ => rfl
      unfold Outboxes.heldIn
      cases account.boxes.get? outbox <;> rfl
  | abandon outbox =>
      refine balanced.consume ?_ fun _ => rfl
      unfold Outboxes.heldIn
      cases account.boxes.get? outbox with
      | none => rfl
      | some box => exact List.append_nil _

theorem run (balanced : account.Balanced backlogCapacity) (acts : List ConnectionAct) :
    (account.run acts).Balanced backlogCapacity := by
  induction acts generalizing account with
  | nil => exact balanced
  | cons act rest induction => exact induction (balanced.step act)

/-- No payload was lost untold, and none is there twice. -/
theorem handed_perm (balanced : account.Balanced backlogCapacity) :
    account.handed.Perm (account.accepted.map Prod.snd ++ account.connection.backlog.held ++
      account.dropped ++ account.evicted) := by
  refine List.perm_iff_count.2 fun payload => ?_
  simp only [List.count_append]
  exact balanced.conserved payload

end Balanced

/-- What the attachment of a new transport does: the oldest payloads of the backlog, as
many as fit, pass to an outbox that is open, the others stay in their order, and the
outbox of the transport before is let go of. -/
structure HandsOver (account : Account) (name : DisplayName) (generation : Generation)
    (outbox : OutboxId) (box : Outbox) (count : Nat) (connection : Connection)
    (boxes : Outboxes) : Prop where
  count_eq : count =
    if box.isOpen then min box.room account.connection.backlog.held.length else 0
  connection_eq : connection =
    { account.connection with
      name
      generation
      link := .live outbox
      backlog :=
        { account.connection.backlog with
          held := account.connection.backlog.held.drop count } }
  outbox_eq : boxes.get? outbox = some
    { box.linked with held := box.held ++ account.connection.backlog.held.take count }
  others_eq : ∀ other, other ≠ outbox → boxes.get? other =
    if account.connection.link = .live other then
      (account.boxes.get? other).map Outbox.release
    else account.boxes.get? other

theorem Balanced.handsOver {backlogCapacity : Nat} {account : Account}
    (balanced : account.Balanced backlogCapacity) (name : DisplayName) (generation : Generation)
    {outbox : OutboxId} (absent : account.boxes.get? outbox = none) (box : Outbox) :
    let (count, connection, boxes) := account.connection.attach name outbox generation
      (account.boxes.set outbox box.linked)
    account.HandsOver name generation outbox box count connection boxes := by
  have fitting : min box.slots account.connection.backlog.held.length =
      if box.isOpen then min box.room account.connection.backlog.held.length else 0 := by
    unfold Outbox.slots
    split <;> simp
  have taken : account.connection.backlog.held.take
      (min box.slots account.connection.backlog.held.length) =
        account.connection.backlog.held.take box.slots :=
    List.take_eq_take_iff.2 (by omega)
  have left : account.connection.backlog.held.drop
      (min box.slots account.connection.backlog.held.length) =
        account.connection.backlog.held.drop box.slots :=
    List.drop_eq_drop_iff.2 (by omega)
  rw [Connection.attach_of_present _ name generation
    (account.boxes.get?_set_self outbox box.linked) balanced.fits]
  simp only [Outbox.slots_linked, Outbox.held_linked, Table.set_set]
  refine ⟨fitting, by rw [left], ?_, fun other different => ?_⟩
  · rw [Connection.get?_releaseLink_of_ne _ (balanced.link_ne absent), Table.get?_set_self, taken]
  · rw [Connection.get?_releaseLink_set_of_ne _ _ different]
    split
    · rename_i attached
      exact Connection.get?_releaseLink_self _ attached
    · rename_i elsewhere
      exact Connection.get?_releaseLink_of_ne _ elsewhere

/-- Whatever happens to a connection and the outboxes of its transports, (1) every payload
that was handed in was accepted by an outbox, waits in the backlog, was dropped or was
evicted, and only one of these for each time it was handed in, (2) the connection tells
of as many losses as there are evictions, and of a drop exactly when the outbox of the
transport is full, (3) an outbox loses nothing of what it was brought with or accepted and
keeps it in order, (4) the backlog stays within its capacity, (5) the connection has let go
of every outbox but that of its transport, and (6) a new transport takes over what fits of
the backlog. -/
theorem payloads_are_conserved (id : ConnectionId) (name : DisplayName)
    (generation : Generation) (outbox : OutboxId) (box : Outbox) (backlogCapacity : Nat)
    (connectedAt : Stamp) (acts : List ConnectionAct) :
    let account :=
      (start id name generation outbox box backlogCapacity connectedAt).run acts
    account.handed.Perm (account.accepted.map Prod.snd ++ account.connection.backlog.held ++
        account.dropped ++ account.evicted) ∧
      account.evicted.length = account.evictions ∧
      (∀ payload, (account.connection.deliver payload account.boxes).1 = .droppedFull ↔
        ∃ outbox box, account.connection.link = .live outbox ∧
          account.boxes.get? outbox = some box ∧ box.answer = .full) ∧
      (∀ outbox, account.brought.through outbox ++ account.accepted.through outbox =
        account.taken.through outbox ++ account.boxes.heldIn outbox) ∧
      account.connection.backlog.held.length ≤ backlogCapacity ∧
      (∀ outbox box, account.boxes.get? outbox = some box →
        (box.released = false ↔ account.connection.link = .live outbox)) ∧
      ∀ name generation outbox box, account.boxes.get? outbox = none →
        let (count, connection, boxes) := account.connection.attach name outbox generation
          (account.boxes.set outbox box.linked)
        account.HandsOver name generation outbox box count connection boxes := by
  intro account
  have balanced : account.Balanced backlogCapacity := (Balanced.start ..).run acts
  have capacity : account.connection.backlog.held.length ≤ backlogCapacity :=
    balanced.capacity_eq ▸ balanced.fits
  exact ⟨balanced.handed_perm, balanced.told, fun _ => Connection.deliver_eq_droppedFull_iff,
    balanced.streams, capacity, balanced.linked,
    fun name generation _ box absent => balanced.handsOver name generation absent box⟩

end Account
end Parley
