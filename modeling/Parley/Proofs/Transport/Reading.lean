import Mathlib.Data.List.Induction
import Parley.Proofs.Dispatch
import Parley.Proofs.Text.Utf8
import Parley.Proofs.Transport.Reader

/-!
# Reading a transport

What a reader makes of all that its socket yields, whenever that comes, whatever the hub
answers and however long it takes, and whatever others do to the peer's own outbox in the
meantime.  Each item is taken in once and in order, up to the first that ends the reader or
to a silence that lasts too long.
-/

namespace Parley

/-! ## Arrivals -/

namespace Arrival

/-- The frame that arrives, if one does: a text, or bytes that are the encoding of a
text. -/
def frame? : Arrival → Option String
  | .message (.text content) => some content
  | .message (.binary content) => Utf8.decode? content
  | _ => none

/-- The end of the transport that an arrival is, if it is one. -/
def end? : Arrival → Option ReadEnd
  | .message (.close _) => some .peerClosed
  | .message _ => none
  | .failure => some .transportError
  | .ended => some .streamEnded

/-- What arrives is a frame, or an end, or neither. -/
theorem heard_cases (arrival : Arrival) :
    (arrival.heard = .passed ∧ arrival.frame? = none ∧ arrival.end? = none) ∨
    (∃ outcome, arrival.heard = .over outcome ∧ arrival.frame? = none ∧
      arrival.end? = some outcome) ∨
    ∃ frame, arrival.heard = .frame frame ∧ arrival.frame? = some frame ∧
      arrival.end? = none := by
  cases arrival with
  | message message =>
      cases message with
      | text content => exact .inr (.inr ⟨content, rfl, rfl, rfl⟩)
      | binary content =>
          cases decoded : Utf8.decode? content with
          | none => exact .inl ⟨by simp [heard, decoded], decoded, rfl⟩
          | some text => exact .inr (.inr ⟨text, by simp [heard, decoded], decoded, rfl⟩)
      | ping content => exact .inl ⟨rfl, rfl, rfl⟩
      | pong content => exact .inl ⟨rfl, rfl, rfl⟩
      | close reason => exact .inr (.inl ⟨.peerClosed, rfl, rfl, rfl⟩)
  | failure => exact .inr (.inl ⟨.transportError, rfl, rfl, rfl⟩)
  | ended => exact .inr (.inl ⟨.streamEnded, rfl, rfl, rfl⟩)

/-- Bytes that encode a text mean the same as the text. -/
theorem heard_encode (text : String) :
    heard (.message (.binary (Utf8.encode text))) = heard (.message (.text text)) := by
  simp [heard, Utf8.decode?_eq_some_iff.2 rfl]

end Arrival

/-- A command finds out that the hub has stopped exactly when the hub says so. -/
theorem Dispatch.conclude_eq_hubUnavailable_iff {command : Command} {outcome : Outcome} :
    conclude command outcome = .error .hubUnavailable ↔ outcome = .error .stopped := by
  constructor
  · exact fun concluded => (isFatal_of_conclude concluded).1 rfl
  · rintro rfl
    cases command <;> rfl

theorem Reader.outcome?_eq_some_iff {reader : Reader} {outcome : ReadEnd} :
    reader.outcome? = some outcome ↔ reader = .ended outcome := by
  cases reader <;> simp [outcome?]

/-! ## Items -/

/-- An item that the socket of a reader yields, and what goes on around it. -/
structure Intake where
  arrival : Arrival
  /-- When the socket yields it. -/
  moment : Moment
  /-- What the hub answers if it is asked for something, and how long that takes; nothing if
  it never answers. -/
  answer : Option (Outcome × Nat)
  /-- What others make of the peer's own outbox until the reader is done with the item. -/
  meanwhile : Outbox → Outbox

namespace Intake

variable (sender : ConnectionId) (intake : Intake)

/-- What the hub is asked for on behalf of the frame in an item. -/
def request? : Option (Command × Request) :=
  intake.arrival.frame?.bind fun frame => (Dispatch.request sender frame).toOption

/-- What comes of dispatching the frame in an item.  Nothing comes of it when there is no
frame, and when the hub is asked and never answers. -/
def result? : Option (Except DispatchError (Option Confirmation)) :=
  intake.arrival.frame?.bind
    (Dispatch.execute (m := Option) (fun _ => intake.answer.map Prod.fst) sender)

/-- Whether the reader waits for an answer that never comes. -/
def Hangs : Prop := (intake.request? sender).isSome ∧ intake.answer = none

/-- How an item ends the reader, if it does: it is an end of the transport, or it is a frame
and the hub turns out to have stopped. -/
def ending? : Option ReadEnd :=
  match intake.arrival.end? with
  | some outcome => some outcome
  | none =>
      if intake.result? sender = some (.error .hubUnavailable) then some .hubClosed else none

/-- When the reader is done with an item, if it has been waiting since a moment. -/
def doneAt (since : Moment) : Moment :=
  max since intake.moment +
    if (intake.request? sender).isSome then (intake.answer.map Prod.snd).getD 0 else 0

/-- What becomes of the peer's own outbox.  A confirmation is added at its back, if the hub
has not let go of the outbox, somebody takes from it, and there is room. -/
def confirm (box : Outbox) : Outbox :=
  let box := intake.meanwhile box
  match intake.result? sender with
  | some (.ok (some confirmation)) =>
      if box.released = false ∧ box.isOpen = true ∧ box.held.length < box.capacity then
        { box with held := box.held ++ [confirmation.encode] }
      else box
  | _ => box

/-- What a reader does once it is done with an item. -/
def next (settings : Settings) (done : Moment) : Reader :=
  match intake.ending? sender, intake.request? sender, intake.answer with
  | some outcome, _, _ => .ended outcome
  | none, some (command, _), none => .asking command 0
  | none, _, _ => .listen settings done

variable {sender intake} {frame : String}

/-- Nothing comes of an item without a frame. -/
theorem silent (sender : ConnectionId) (missing : intake.arrival.frame? = none) :
    intake.request? sender = none ∧ intake.result? sender = none := by
  constructor
  · simp [request?, missing]
  · simp [result?, missing]

/-- A frame that is no request comes to nothing at once. -/
theorem refused {cause : DispatchError} (found : intake.arrival.frame? = some frame)
    (made : Dispatch.request sender frame = .error cause) :
    intake.request? sender = none ∧ intake.result? sender = some (.error cause) := by
  constructor
  · simp [request?, found, made, Except.toOption]
  · simp [result?, found, Dispatch.execute, made]

/-- What comes of a request is what the hub's answer means. -/
theorem asked {command : Command} {request : Request}
    (found : intake.arrival.frame? = some frame)
    (made : Dispatch.request sender frame = .ok (command, request)) :
    intake.request? sender = some (command, request) ∧
      intake.result? sender =
        intake.answer.map fun answer => Dispatch.conclude command answer.1 := by
  constructor
  · simp [request?, found, made, Except.toOption]
  · simp [result?, found, Dispatch.execute, made, Function.comp_def]

/-- A request without an answer does not end the reader. -/
theorem ending?_of_unanswered {command : Command} {request : Request}
    (asks : intake.request? sender = some (command, request)) (never : intake.answer = none) :
    intake.ending? sender = none := by
  obtain ⟨frame, found, made⟩ := Option.bind_eq_some_iff.1 asks
  have accepted : Dispatch.request sender frame = .ok (command, request) := by
    cases both : Dispatch.request sender frame with
    | error cause => simp [both, Except.toOption] at made
    | ok pair => simpa [both, Except.toOption] using made
  have nothing : intake.result? sender = none := by
    rw [(asked found accepted).2, never]
    rfl
  have endless : intake.arrival.end? = none := by
    rcases intake.arrival.heard_cases with ⟨-, missing, -⟩ | ⟨_, -, missing, -⟩ |
      ⟨_, -, -, endless⟩
    · rw [found] at missing
      cases missing
    · rw [found] at missing
      cases missing
    · exact endless
  simp [ending?, endless, nothing]

/-- The hub ends the reader exactly when it is asked for something and answers that it has
stopped. -/
theorem ending?_eq_hubClosed_iff :
    intake.ending? sender = some .hubClosed ↔
      (intake.request? sender).isSome ∧ ∃ delay, intake.answer = some (.error .stopped, delay) := by
  have notHub : intake.arrival.end? ≠ some .hubClosed := by
    unfold Arrival.end?
    split <;> simp
  rcases intake.arrival.heard_cases with ⟨-, missing, endless⟩ | ⟨outcome, -, missing, ends⟩ |
    ⟨frame, -, found, endless⟩
  · obtain ⟨unasked, nothing⟩ := silent sender missing
    simp [ending?, endless, unasked, nothing]
  · obtain ⟨unasked, -⟩ := silent sender missing
    rw [ends] at notHub
    simpa [ending?, ends, unasked] using notHub
  · cases made : Dispatch.request sender frame with
    | error cause =>
        obtain ⟨unasked, result⟩ := refused found made
        have mild : cause ≠ .hubUnavailable := by
          rintro rfl
          cases Dispatch.not_fatal_of_request_eq_error made
        simp [ending?, endless, unasked, result, mild]
    | ok pair =>
        obtain ⟨command, request⟩ := pair
        obtain ⟨asks, result⟩ := asked found made
        cases answered : intake.answer with
        | none => simp [ending?, endless, result, answered]
        | some answer =>
            obtain ⟨outcome, delay⟩ := answer
            simp [ending?, endless, result, asks, answered,
              Dispatch.conclude_eq_hubUnavailable_iff]

theorem ending?_ne_idleTimeout : intake.ending? sender ≠ some .idleTimeout := by
  unfold ending? Arrival.end?
  split
  · rename_i outcome ends
    split at ends <;> cases ends <;> simp
  · split <;> simp

end Intake

/-! ## Readings -/

/-- What a reader has done so far. -/
structure Reading where
  reader : Reader
  /-- Since when it does what it is doing. -/
  now : Moment
  /-- The peer's own outbox. -/
  box : Outbox
  /-- The frames that were dispatched. -/
  frames : List String := []
  /-- The requests that the hub was asked to carry out. -/
  requests : List Request := []

namespace Reading

variable (settings : Settings) (sender : ConnectionId)

/-- A reader that begins to listen. -/
def start (now : Moment) (box : Outbox) : Reading :=
  { reader := .listen settings now, now, box }

/-- The reader takes an item in, as soon as it comes. -/
def take (reading : Reading) (intake : Intake) : Reading :=
  let now := max reading.now intake.moment
  let box := intake.meanwhile reading.box
  let frames := match intake.arrival.heard with
    | .frame frame => reading.frames ++ [frame]
    | _ => reading.frames
  match Reader.hear settings now sender intake.arrival with
  | .turn reader => { reading with reader, now, box, frames }
  | .ask command request =>
      let requests := reading.requests ++ [request]
      match intake.answer with
      | none => { reader := .asking command 0, now, box, frames, requests }
      | some (outcome, delay) =>
          let (reader, box) := Reader.conclude settings (now + delay) command outcome box
          { reader, now := now + delay, box, frames, requests }

/-- The silence of the peer has lasted too long. -/
def fallSilent (reading : Reading) : Reading :=
  match reading.reader.due? with
  | some due => { reading with reader := .ended .idleTimeout, now := due }
  | none => reading

/-- The reader takes in what comes in time, one item after the other, as long as it
listens.  Behind the last item nothing comes any more. -/
def run (reading : Reading) : List Intake → Reading
  | [] => reading.fallSilent
  | intake :: rest =>
      match reading.reader.due? with
      | some due =>
          if intake.moment ≤ due then run (take settings sender reading intake) rest
          else reading.fallSilent
      | none => reading

variable {settings sender} {intake : Intake} {command : Command} {outcome : Outcome}

/-- What the reader does after an answer of the hub. -/
theorem fst_conclude_eq {now : Moment} {box : Outbox} :
    (Reader.conclude settings now command outcome box).1 =
      if Dispatch.conclude command outcome = .error .hubUnavailable then .ended .hubClosed
      else .listen settings now := by
  unfold Reader.conclude
  cases concluded : Dispatch.conclude command outcome with
  | error cause => cases cause <;> simp [DispatchError.isFatal]
  | ok confirmation? => cases confirmation? <;> simp

/-- What an answer of the hub adds to the peer's own outbox. -/
theorem confirm_eq {box : Outbox}
    (result : intake.result? sender = some (Dispatch.conclude command outcome)) :
    intake.confirm sender box =
      { intake.meanwhile box with
        held := (intake.meanwhile box).held ++
          Reader.confirmed command outcome (intake.meanwhile box) } := by
  simp only [Intake.confirm, Reader.confirmed, result, Outbox.answer_eq_accepted_iff]
  cases Dispatch.conclude command outcome with
  | error cause => simp
  | ok confirmation? =>
      cases confirmation? with
      | none => simp
      | some confirmation =>
          dsimp only
          split_ifs
          · rfl
          · simp

/-- What taking an item in comes to. -/
theorem take_eq (reading : Reading) (intake : Intake) :
    reading.take settings sender intake =
      { reader := intake.next sender settings (intake.doneAt sender reading.now)
        now := intake.doneAt sender reading.now
        box := intake.confirm sender reading.box
        frames := reading.frames ++ intake.arrival.frame?.toList
        requests := reading.requests ++ ((intake.request? sender).map Prod.snd).toList } := by
  rcases intake.arrival.heard_cases with ⟨heard, missing, endless⟩ |
    ⟨outcome, heard, missing, ends⟩ | ⟨frame, heard, found, endless⟩
  · obtain ⟨unasked, nothing⟩ := Intake.silent sender missing
    simp [take, Reader.hear, heard, Intake.next, Intake.ending?, Intake.doneAt, Intake.confirm,
      missing, endless, unasked, nothing]
  · obtain ⟨unasked, nothing⟩ := Intake.silent sender missing
    simp [take, Reader.hear, heard, Intake.next, Intake.ending?, Intake.doneAt, Intake.confirm,
      missing, ends, unasked, nothing]
  · cases made : Dispatch.request sender frame with
    | error cause =>
        obtain ⟨unasked, result⟩ := Intake.refused found made
        have mild : cause ≠ .hubUnavailable := by
          rintro rfl
          cases Dispatch.not_fatal_of_request_eq_error made
        simp [take, Reader.hear, heard, made, Intake.next, Intake.ending?, Intake.doneAt,
          Intake.confirm, found, endless, unasked, result, mild]
    | ok pair =>
        obtain ⟨command, request⟩ := pair
        obtain ⟨asked, result⟩ := Intake.asked found made
        cases answered : intake.answer with
        | none =>
            simp [take, Reader.hear, heard, made, answered, Intake.next, Intake.ending?,
              Intake.doneAt, Intake.confirm, found, endless, asked, result]
        | some answer =>
            obtain ⟨outcome, delay⟩ := answer
            rw [answered, Option.map_some] at result
            have done : intake.doneAt sender reading.now =
                max reading.now intake.moment + delay := by
              simp [Intake.doneAt, asked, answered]
            have next : intake.next sender settings (max reading.now intake.moment + delay) =
                (Reader.conclude settings (max reading.now intake.moment + delay) command outcome
                  (intake.meanwhile reading.box)).1 := by
              rw [fst_conclude_eq]
              simp only [Intake.next, Intake.ending?, endless, asked, answered, result,
                Option.some_inj]
              split_ifs <;> rfl
            have box : intake.confirm sender reading.box =
                (Reader.conclude settings (max reading.now intake.moment + delay) command outcome
                  (intake.meanwhile reading.box)).2 := by
              rw [Reader.snd_conclude_eq]
              exact confirm_eq result
            rw [done, next, box]
            simp [take, Reader.hear, heard, made, answered, found, asked]

/-! ## Whole readings -/

variable (settings sender)

/-- Since when a reader waits that has been listening since a moment and is done with some
items. -/
def doneAt (since : Moment) (items : List Intake) : Moment :=
  items.foldl (fun since intake => intake.doneAt sender since) since

/-- When a reader gives its peer up, unless something comes. -/
def deadline (since : Moment) (items : List Intake) : Moment :=
  Moment.roundUp (doneAt sender since items + settings.idleTimeout.nanoseconds)

/-- What a reader leaves that has taken in these items. -/
def record (box : Outbox) (items : List Intake) (reader : Reader) (now : Moment) : Reading where
  reader := reader
  now := now
  box := items.foldl (fun box intake => intake.confirm sender box) box
  frames := items.filterMap fun intake => intake.arrival.frame?
  requests := items.filterMap fun intake => (intake.request? sender).map Prod.snd

/-- Each of these items comes before the reader gives its peer up, and the reader goes on
after it. -/
def GoesOn (since : Moment) (items : List Intake) : Prop :=
  ∀ before intake after, items = before ++ intake :: after →
    intake.moment ≤ deadline settings sender since before ∧
      intake.ending? sender = none ∧ ¬intake.Hangs sender

/-- How the reading of some items ends: which of them are taken in, which are not, and what
the reader does at last and since when. -/
inductive Ends (since : Moment) : List Intake → List Intake → Reader → Moment → Prop
  /-- The last item is the end of the reader. -/
  | heard {before left : List Intake} {last : Intake} {outcome : ReadEnd}
      (goesOn : GoesOn settings sender since before)
      (inTime : last.moment ≤ deadline settings sender since before)
      (ending : last.ending? sender = some outcome) :
      Ends since (before ++ [last]) left (.ended outcome) (doneAt sender since (before ++ [last]))
  /-- The hub never answers the request of the last item. -/
  | unanswered {before left : List Intake} {last : Intake} {command : Command}
      {request : Request} (goesOn : GoesOn settings sender since before)
      (inTime : last.moment ≤ deadline settings sender since before)
      (asks : last.request? sender = some (command, request)) (never : last.answer = none) :
      Ends since (before ++ [last]) left (.asking command 0)
        (doneAt sender since (before ++ [last]))
  /-- Nothing comes before the reader gives its peer up. -/
  | silent {before left : List Intake} (goesOn : GoesOn settings sender since before)
      (late : ∀ next ∈ left.head?, deadline settings sender since before < next.moment) :
      Ends since before left (.ended .idleTimeout) (deadline settings sender since before)

variable {settings sender} {since : Moment} {box : Outbox} {before : List Intake}
  {reader : Reader}

theorem doneAt_concat : doneAt sender since (before ++ [intake]) =
    intake.doneAt sender (doneAt sender since before) := by
  simp [doneAt]

theorem take_record {now : Moment} :
    (record sender box before reader now).take settings sender intake =
      record sender box (before ++ [intake])
        (intake.next sender settings (intake.doneAt sender now)) (intake.doneAt sender now) := by
  rw [take_eq]
  cases found : intake.arrival.frame? <;> cases asked : intake.request? sender <;>
    simp [record, found, asked]

/-- Nothing is taken in at first. -/
theorem GoesOn.nil : GoesOn settings sender since [] := by
  intro before intake after split
  simp at split

theorem goesOn_concat_iff : GoesOn settings sender since (before ++ [intake]) ↔
    GoesOn settings sender since before ∧ intake.moment ≤ deadline settings sender since before ∧
      intake.ending? sender = none ∧ ¬intake.Hangs sender := by
  constructor
  · intro goesOn
    refine ⟨fun earlier item later split => ?_, goesOn before intake [] rfl⟩
    exact goesOn earlier item (later ++ [intake]) (by simp [split])
  · rintro ⟨goesOn, last⟩ earlier item later split
    rcases List.eq_nil_or_concat later with rfl | ⟨rest, final, rfl⟩
    · obtain ⟨rfl, same⟩ := List.append_inj' split rfl
      cases same
      exact last
    · rw [List.concat_eq_append, ← List.cons_append, ← List.append_assoc] at split
      exact goesOn earlier item rest (List.append_inj' split rfl).1

theorem next_of_goesOn {done : Moment} (endless : intake.ending? sender = none)
    (answered : ¬intake.Hangs sender) :
    intake.next sender settings done = .listen settings done := by
  unfold Intake.next
  rw [endless]
  cases asked : intake.request? sender with
  | none => rfl
  | some pair =>
      cases answer : intake.answer with
      | none => exact absurd ⟨by simp [asked], answer⟩ answered
      | some answer => rfl

theorem run_cons_of_inTime {reading : Reading} {due : Moment}
    (listens : reading.reader.due? = some due) (inTime : intake.moment ≤ due)
    (rest : List Intake) :
    reading.run settings sender (intake :: rest) =
      (reading.take settings sender intake).run settings sender rest := by
  simp [run, listens, inTime]

/-- A reader that does not listen takes nothing in. -/
theorem run_of_deaf {reading : Reading} (deaf : reading.reader.due? = none)
    (items : List Intake) : reading.run settings sender items = reading := by
  cases items with
  | nil => simp [run, fallSilent, deaf]
  | cons intake rest => simp [run, deaf]

/-- When nothing comes in time, silence ends the reader. -/
theorem run_of_silent {reading : Reading} {due : Moment} {items : List Intake}
    (listens : reading.reader.due? = some due) (late : ∀ next ∈ items.head?, due < next.moment) :
    reading.run settings sender items =
      { reading with reader := .ended .idleTimeout, now := due } := by
  cases items with
  | nil => simp [run, fallSilent, listens]
  | cons intake rest =>
      have missed : ¬intake.moment ≤ due := Nat.not_le.2 (late intake rfl)
      simp [run, fallSilent, listens, missed]

/-- The reader listens after items after which it goes on. -/
theorem run_append (goesOn : GoesOn settings sender since before) (rest : List Intake) :
    (start settings since box).run settings sender (before ++ rest) =
      (record sender box before (.listen settings (doneAt sender since before))
        (doneAt sender since before)).run settings sender rest := by
  induction before using List.reverseRecOn generalizing rest with
  | nil => rfl
  | append_singleton before last induction =>
      obtain ⟨goesOnBefore, inTime, endless, answered⟩ := goesOn_concat_iff.1 goesOn
      rw [List.append_assoc, List.singleton_append, induction goesOnBefore,
        run_cons_of_inTime rfl inTime, take_record, next_of_goesOn endless answered, doneAt_concat]

/-- What a reading leaves when it ends. -/
theorem Ends.run_eq {taken left : List Intake} {now : Moment}
    (ends : Ends settings sender since taken left reader now) :
    (start settings since box).run settings sender (taken ++ left) =
      record sender box taken reader now := by
  cases ends with
  | heard goesOn inTime ending =>
      rw [List.append_assoc, List.singleton_append, run_append goesOn,
        run_cons_of_inTime rfl inTime, take_record, run_of_deaf, doneAt_concat]
      · simp [Intake.next, ending]
      · simp [record, Intake.next, ending, Reader.due?]
  | unanswered goesOn inTime asks never =>
      have endless := Intake.ending?_of_unanswered asks never
      rw [List.append_assoc, List.singleton_append, run_append goesOn,
        run_cons_of_inTime rfl inTime, take_record, run_of_deaf, doneAt_concat]
      · simp [Intake.next, endless, asks, never]
      · simp [record, Intake.next, endless, asks, never, Reader.due?]
  | silent goesOn late =>
      rw [run_append goesOn, run_of_silent rfl late]
      rfl

/-- Every reading ends, unless the hub keeps the reader waiting. -/
theorem exists_ends (goesOn : GoesOn settings sender since before) (rest : List Intake) :
    ∃ taken left reader now, before ++ rest = taken ++ left ∧
      Ends settings sender since taken left reader now := by
  induction rest generalizing before with
  | nil => exact ⟨before, [], _, _, rfl, .silent goesOn (by simp)⟩
  | cons intake rest induction =>
      by_cases inTime : intake.moment ≤ deadline settings sender since before
      · cases ending : intake.ending? sender with
        | some outcome =>
            exact ⟨before ++ [intake], rest, _, _, by simp, .heard goesOn inTime ending⟩
        | none =>
            by_cases hangs : intake.Hangs sender
            · obtain ⟨asked, never⟩ := hangs
              obtain ⟨pair, asked⟩ := Option.isSome_iff_exists.1 asked
              exact ⟨before ++ [intake], rest, _, _, by simp,
                .unanswered goesOn inTime asked never⟩
            · rw [List.append_cons]
              exact induction (goesOn_concat_iff.2 ⟨goesOn, inTime, ending, hangs⟩)
      · refine ⟨before, intake :: rest, _, _, rfl, .silent goesOn fun next first => ?_⟩
        cases first
        exact Nat.not_le.1 inTime

theorem take_congr {reading : Reading} {arrival other : Arrival}
    (same : arrival.heard = other.heard) :
    reading.take settings sender { intake with arrival } =
      reading.take settings sender { intake with arrival := other } := by
  simp only [take, Reader.hear, same]

/-- It makes no difference to a reading in which form a text comes. -/
theorem run_congr {arrival other : Arrival} (same : arrival.heard = other.heard)
    (reading : Reading) (before after : List Intake) :
    reading.run settings sender (before ++ { intake with arrival } :: after) =
      reading.run settings sender (before ++ { intake with arrival := other } :: after) := by
  induction before generalizing reading with
  | nil => simp only [List.nil_append, run, take_congr same]
  | cons first rest induction => simp only [List.cons_append, run, induction]

/-- A reader deals with its items once and in order, up to the first that ends it or to a
silence that lasts too long.  The frames that it dispatches, the requests that the hub is
asked for and the confirmations in the peer's own outbox are those of the items up to there.
There is one such end only, and it is silence exactly when what comes next, if anything does,
comes after the deadline.  A frame ends the reader only by an answer that the hub has
stopped, and bytes that encode a text are as good as the text. -/
theorem each_item_is_heard_once_and_in_order (settings : Settings) (sender : ConnectionId)
    (since : Moment) (box : Outbox) (items : List Intake) :
    let reading := (start settings since box).run settings sender items
    (∃ taken left, items = taken ++ left ∧
      Ends settings sender since taken left reading.reader reading.now ∧
      reading.frames = taken.filterMap (fun intake => intake.arrival.frame?) ∧
      reading.requests = taken.filterMap (fun intake => (intake.request? sender).map Prod.snd) ∧
      reading.box = taken.foldl (fun box intake => intake.confirm sender box) box) ∧
    (∀ taken left reader now, items = taken ++ left →
      Ends settings sender since taken left reader now →
        reader = reading.reader ∧ now = reading.now) ∧
    (reading.reader.outcome? = some .idleTimeout ↔
      ∃ taken left, items = taken ++ left ∧ GoesOn settings sender since taken ∧
        ∀ next ∈ left.head?, deadline settings sender since taken < next.moment) ∧
    (∀ intake : Intake, intake.ending? sender = some .hubClosed ↔
      (intake.request? sender).isSome ∧ ∃ delay, intake.answer = some (.error .stopped, delay)) ∧
    (∀ before after text (intake : Intake),
      items = before ++ { intake with arrival := .message (.text text) } :: after →
        (start settings since box).run settings sender
          (before ++ { intake with arrival := .message (.binary (Utf8.encode text)) } :: after) =
        reading) := by
  intro reading
  obtain ⟨taken, left, reader, now, split, ends⟩ :=
    exists_ends (.nil : GoesOn settings sender since []) items
  have only {taken left : List Intake} {reader : Reader} {now : Moment}
      (split : items = taken ++ left) (ends : Ends settings sender since taken left reader now) :
      reading = record sender box taken reader now := by
    rw [← ends.run_eq, ← split]
  have recorded := only split ends
  have last : reading.reader = reader := by rw [recorded, record]
  refine ⟨⟨taken, left, split, ?_, ?_, ?_, ?_⟩, fun taken left reader now split ends => ?_, ?_,
    fun intake => Intake.ending?_eq_hubClosed_iff, fun before after text intake split => ?_⟩
  · rw [recorded]
    exact ends
  · rw [recorded, record]
  · rw [recorded, record]
  · rw [recorded, record]
  · rw [only split ends]
    exact ⟨rfl, rfl⟩
  · constructor
    · intro idle
      rw [last, Reader.outcome?_eq_some_iff] at idle
      subst idle
      cases ends with
      | heard goesOn inTime ending => exact absurd ending Intake.ending?_ne_idleTimeout
      | silent goesOn late => exact ⟨taken, left, split, goesOn, late⟩
    · rintro ⟨taken, left, split, goesOn, late⟩
      rw [only split (.silent goesOn late)]
      rfl
  · rw [run_congr (Arrival.heard_encode text), ← split]

/-- A frame that comes a second after the silence has lasted too long is not dispatched any
more; the deadline counts from the answer to the frame before. -/
theorem silence_counts_from_the_last_answer :
    let alice : ConnectionId := ⟨"alice", by decide⟩
    let join : Intake :=
      { arrival := .message (.text "join_room:lobby"), moment := 59 * Span.second
        answer := some (.ok .done, 2 * Span.second), meanwhile := id }
    let late : Intake :=
      { arrival := .message (.text "hello"), moment := 122 * Span.second
        answer := some (.ok .done, 0), meanwhile := id }
    let reading := (start {} 0 { capacity := 1 }).run {} alice [join, late]
    reading.reader = .ended .idleTimeout ∧ reading.now = 121 * Span.second ∧
      reading.frames = ["join_room:lobby"] ∧ reading.box.held = ["join_room_success:lobby"] := by
  intro alice join late reading
  have goesOn : GoesOn {} alice 0 [join] :=
    goesOn_concat_iff.2 ⟨.nil, by decide, by decide, fun hangs => by cases hangs.2⟩
  have due : deadline {} alice 0 [join] = 121 * Span.second := by decide +kernel
  have ends : Ends {} alice 0 [join] [late] (.ended .idleTimeout) (121 * Span.second) := by
    rw [← due]
    apply Ends.silent goesOn
    intro next first
    rw [due, ← Option.some.inj first]
    decide +kernel
  obtain ⟨ended, moment⟩ := (each_item_is_heard_once_and_in_order {} alice 0 { capacity := 1 }
    [join, late]).2.1 [join] [late] _ _ rfl ends
  exact ⟨ended.symm, moment.symm, by decide, by decide⟩

end Reading
end Parley
