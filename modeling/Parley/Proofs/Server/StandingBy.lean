import Parley.Proofs.Server.Threading

/-!
# Standing by

What other sessions, the clock and the broker can do to a session that has no part in a
step: feed its outbox, and answer its registration.  No entry is attached to its outbox
that was not, and a letter about the end of a transport leaves the mailbox only when no
entry is attached to that transport any more.
-/

namespace Parley

/-- The connection and the generation whose end a request tells. -/
def Request.departed? : Request → Option (ConnectionId × Generation)
  | .unregister id generation => some (id, generation)
  | .detach id generation _ => some (id, generation)
  | _ => none

theorem Request.departed?_of_stays {request : Request}
    (stays : ∀ id, request.departs id = false) : request.departed? = none := by
  cases request with
  | unregister id generation => simpa [departs] using stays id
  | detach id generation undelivered => simpa [departs] using stays id
  | _ => rfl

@[simp]
theorem Departure.departed?_request (departure : Departure) (id : ConnectionId)
    (generation : Generation) :
    (departure.request id generation).departed? = some (id, generation) := by
  cases departure <;> rfl

/-- Once the hub knows of the end of a transport, no entry is attached to it. -/
theorem Hub.Confines.departed {hub : Hub} {request : Request} {id : ConnectionId}
    {generation : Generation} (departs : request.departed? = some (id, generation))
    (given : generation ≤ hub.lastGeneration) :
    (hub.serve request).2.Confines id generation [] := by
  cases request with
  | unregister other number =>
      cases departs
      exact .unregister given
  | detach other number undelivered =>
      cases departs
      exact .detach given undelivered
  | _ => cases departs

namespace Server

/-- What happens around a session that has no part in it. -/
structure StandsBy (key : OutboxId) (session : Session) (box : Outbox) (server later : Server)
    (laterBox : Outbox) : Prop where
  present : later.sessions.get? key = some session
  found : later.broker.hub.outboxes.get? key = some laterBox
  fed : box.Fed laterBox
  stopped : server.broker.running = false → later.broker.running = false
  confines : ∀ id generation keys, server.broker.hub.Confines id generation keys →
    later.broker.hub.Confines id generation keys
  letters : ∀ letter ∈ server.broker.mailbox, letter ∈ later.broker.mailbox ∨
    ∀ id generation keys, letter.request.departed? = some (id, generation) →
      server.broker.hub.Confines id generation keys → later.broker.hub.Confines id generation []
  replies : ∀ ticket generation, session.stage = .enrolling ticket →
    later.broker.replies.get? ticket = some (.ok (.registered generation)) →
    server.broker.replies.get? ticket = some (.ok (.registered generation)) ∨
      later.broker.hub.Confines session.admission.id generation [key]

variable {server middle later : Server} {key : OutboxId} {session : Session}
  {box middleBox laterBox : Outbox}

theorem StandsBy.trans (first : StandsBy key session box server middle middleBox)
    (second : StandsBy key session middleBox middle later laterBox) :
    StandsBy key session box server later laterBox where
  present := second.present
  found := second.found
  fed := first.fed.trans second.fed
  stopped := second.stopped ∘ first.stopped
  confines id generation keys confines :=
    second.confines id generation keys (first.confines id generation keys confines)
  letters letter member := by
    rcases first.letters letter member with waits | served
    · refine (second.letters letter waits).imp_right ?_
      intro served id generation keys departs confines
      exact served id generation keys departs (first.confines id generation keys confines)
    · refine .inr fun id generation keys departs confines => ?_
      exact second.confines id generation [] (served id generation keys departs confines)
  replies ticket generation stage given := by
    rcases second.replies ticket generation stage given with before | confines
    · refine (first.replies ticket generation stage before).imp_right ?_
      exact second.confines session.admission.id generation [key]
    · exact .inr confines

variable (present : server.sessions.get? key = some session)
  (found : server.broker.hub.outboxes.get? key = some box)

include present found

/-- A step that changes neither the hub's connections nor the outbox of the session, and
takes no letter away. -/
theorem standsBy_of_same (samePresent : later.sessions.get? key = server.sessions.get? key)
    (sameFound : later.broker.hub.outboxes.get? key = server.broker.hub.outboxes.get? key)
    (running : later.broker.running = server.broker.running)
    (inherits : server.broker.hub.InheritsFrom later.broker.hub)
    (letters : ∀ letter ∈ server.broker.mailbox, letter ∈ later.broker.mailbox)
    (replies : ∀ ticket, session.stage = .enrolling ticket →
      later.broker.replies.get? ticket = server.broker.replies.get? ticket) :
    StandsBy key session box server later box where
  present := samePresent.trans present
  found := sameFound.trans found
  fed := .refl box
  stopped stopped := running.trans stopped
  confines _ _ _ confines := confines.inherit inherits
  letters letter member := .inl (letters letter member)
  replies ticket _ stage given := .inl ((replies ticket stage).symm.trans given)

theorem standsBy_refl : StandsBy key session box server server box :=
  standsBy_of_same present found rfl rfl rfl (.refl _) (fun _ member => member) fun _ _ => rfl

theorem standsBy_submit (threaded : server.Threaded) {request : Request}
    (plain : request.outbox? = none) :
    StandsBy key session box server (server.submit request).2 box := by
  have sameHub := hub_submit server plain
  have inherits : server.broker.hub.InheritsFrom (server.submit request).2.broker.hub := by
    rw [sameHub]
    exact .refl _
  refine standsBy_of_same present found rfl (by rw [sameHub]) (running_submit server plain)
    inherits ?_ ?_
  · intro letter member
    cases running : server.broker.running with
    | true =>
        rw [submit_of_running running]
        exact List.mem_append_left _ member
    | false =>
        rw [submit_of_stopped running plain]
        exact member
  · intro ticket stage
    cases running : server.broker.running with
    | true => rw [submit_of_running running]
    | false =>
        rw [submit_of_stopped running plain]
        exact threaded.get?_replied_of_given present stage request _

theorem standsBy_tick (threaded : server.Threaded) (moment : Moment) :
    ∃ laterBox, StandsBy key session box server (server.tick moment) laterBox := by
  refine (@tick_keeps (fun later => later.Threaded ∧
    ∃ laterBox, StandsBy key session box server later laterBox) server moment
    (fun expiries now => ⟨threaded.elapse expiries now, box, ?_⟩) ?_).2
  · exact standsBy_of_same present found rfl rfl rfl (.congr rfl rfl) (fun _ member => member)
      fun _ _ => rfl
  · rintro later id generation ⟨threadedLater, laterBox, standsBy⟩
    exact ⟨threadedLater.submit rfl, laterBox,
      standsBy.trans (standsBy_submit standsBy.present standsBy.found threadedLater rfl)⟩

theorem standsBy_put {other : OutboxId} (different : key ≠ other) (entry : Session)
    (otherBox : Outbox) :
    StandsBy key session box server ((server.setOutbox other otherBox).setSession other entry)
      box :=
  standsBy_of_same present found (Table.get?_set_of_ne _ different _)
    (Table.get?_set_of_ne _ different _) rfl (.congr rfl rfl) (fun _ member => member)
    fun _ _ => rfl

theorem standsBy_progress (threaded : server.Threaded) {other : OutboxId} (different : key ≠ other)
    {entry otherLater : Session} {otherBox otherLaterBox : Outbox} {request : Option Request}
    {carried added : List Payload}
    (moves : entry.Moves server otherBox otherLater otherLaterBox request carried added) :
    StandsBy key session box server (server.progress other otherLater otherLaterBox request)
      box := by
  cases request with
  | none => exact standsBy_put present found different otherLater otherLaterBox
  | some sent =>
      have sends := standsBy_submit present found threaded (moves.plain rfl)
      exact sends.trans (standsBy_put sends.present sends.found different otherLater otherLaterBox)

theorem standsBy_upgrade (threaded : server.Threaded) (admission : Admission) :
    StandsBy key session box server (server.upgrade admission).2 box := by
  have different := threaded.ne_nextOutbox found
  cases running : server.broker.running with
  | true =>
      rw [upgrade_of_running running]
      exact standsBy_of_same present found (Table.get?_set_of_ne _ different _)
        (Table.get?_set_of_ne _ different _) rfl (.congr rfl rfl)
        (fun _ member => List.mem_append_left _ member) fun _ _ => rfl
  | false =>
      rw [upgrade_of_stopped running]
      exact standsBy_of_same present found (Table.get?_set_of_ne _ different _)
        ((Outboxes.get?_release_of_ne _ different).trans (Table.get?_set_of_ne _ different _)) rfl
        (.congr rfl rfl) (fun _ member => member)
        fun ticket stage => threaded.get?_replied_of_given present stage _ _

/-! ## Serving -/

omit present in
/-- Nothing is added to an outbox that the hub has let go of. -/
theorem fed_served (threaded : server.Threaded) {letter : Letter} {rest : List Letter}
    (letters : server.broker.mailbox = letter :: rest) :
    ∃ laterBox, (server.served letter rest).broker.hub.outboxes.get? key = some laterBox ∧
      box.Fed laterBox := by
  have growth := server.broker.hub.extends_serve letter.request
  cases released : box.released with
  | false =>
      obtain ⟨laterBox, there, extended⟩ := growth.exists found
      exact ⟨laterBox, there, extended, fun impossible => by simp [released] at impossible⟩
  | true =>
      have spare : key ∉ server.broker.hub.attached := by
        intro attached
        obtain ⟨id, connection, entry, link⟩ := Hub.mem_attached_iff.1 attached
        obtain ⟨before, there, unreleased⟩ := threaded.linked.attached id connection key entry link
        obtain rfl := Option.some.inj (found.symm.trans there)
        rw [released] at unreleased
        cases unreleased
      have unbrought : letter.request.outbox? ≠ some key := by
        intro brings
        have member : letter ∈ server.broker.mailbox := by rw [letters]; exact List.mem_cons_self
        obtain ⟨owner, there, stage, _⟩ := threaded.registered letter member key brings
        obtain ⟨fresh, _⟩ := (threaded.letter_eq member there stage).2
        rw [Option.some.inj (found.symm.trans fresh)] at released
        cases released
      exact ⟨box, (Hub.leavesAlone_serve spare unbrought).1.trans found, .refl box⟩

theorem standsBy_served (threaded : server.Threaded) {letter : Letter} {rest : List Letter}
    (letters : server.broker.mailbox = letter :: rest) :
    ∃ laterBox, StandsBy key session box server (server.served letter rest) laterBox := by
  have member : letter ∈ server.broker.mailbox := by rw [letters]; exact List.mem_cons_self
  obtain ⟨laterBox, foundLater, fed⟩ := fed_served found threaded letters
  refine ⟨laterBox, present, foundLater, fed, id, fun _ _ _ confines => confines.serve _, ?_, ?_⟩
  · intro other waits
    rw [letters] at waits
    rcases List.mem_cons.1 waits with rfl | later
    · exact .inr fun id generation keys departs confines => .departed departs confines.given
    · exact .inl later
  · intro ticket generation stage given
    rcases server.broker.get?_replied_cases letter (server.broker.hub.serve letter.request).1 ticket
      with ⟨rfl, answer⟩ | same
    · -- the answer is the one to the registration of the session
      refine .inr ?_
      have registered := Option.some.inj (answer.symm.trans given)
      have request := (threaded.letter_eq member present stage).1
      simp only [served, request, Admission.registration, Hub.serve] at registered ⊢
      exact Hub.confines_register registered
    · exact .inl (same.symm.trans given)

/-- When the broker stops, nobody is attached any more. -/
theorem standsBy_halted :
    ∃ laterBox, StandsBy key session box server server.halted laterBox := by
  have turned := server.broker.turnsAway_stop
  obtain ⟨laterBox, foundLater, fed⟩ :=
    (server.broker.hub.letsGo_closeAll.trans turned.outboxes).fed found
  have gone {id : ConnectionId} {generation : Generation} {keys later : List OutboxId}
      (confines : server.broker.hub.Confines id generation keys) :
      server.halted.broker.hub.Confines id generation later := by
    refine .of_absent ?_ ?_
    · have given := confines.given
      rw [← (server.broker.hub.inheritsFrom_closeAll).1] at given
      exact turned.lastGeneration ▸ given
    · rw [halted, turned.connections]
      exact server.broker.hub.get?_closeAll id
  refine ⟨laterBox, present, foundLater, fed, fun _ => turned.running, fun _ _ _ => gone, ?_, ?_⟩
  · exact fun letter _ => .inr fun id generation keys _ confines => gone confines
  · intro ticket generation stage given
    rcases turned.replies ticket with same | ⟨stopped, _⟩
    · exact .inl (same.symm.trans given)
    · rw [halted, stopped] at given
      cases given

/-- A step of somebody else. -/
theorem standsBy_step (threaded : server.Threaded) {step : ServerStep}
    (plain : ∀ request, step = .submit request → request.outbox? = none)
    (elsewhere : step.session? ≠ some key) :
    ∃ laterBox, StandsBy key session box server (server.step step) laterBox := by
  apply step_keeps (fun later => ∃ laterBox, StandsBy key session box server later laterBox)
    threaded step
  case idle => exact fun _ => ⟨box, standsBy_refl present found⟩
  case progress =>
    intro other _ _ _ _ _ _ _ concerns advances
    have different : key ≠ other := fun same => elsewhere (same ▸ concerns)
    exact ⟨box, standsBy_progress present found threaded different advances.moves⟩
  case upgrade => exact fun admission _ => ⟨box, standsBy_upgrade present found threaded admission⟩
  case submit =>
    exact fun request same => ⟨box, standsBy_submit present found threaded (plain request same)⟩
  case tick => exact fun moment _ => standsBy_tick present found threaded moment
  case served => exact fun letter rest _ _ letters => standsBy_served present found threaded letters
  case halted =>
    rintro letter rest _ _ _ _ ⟨middleBox, first⟩
    obtain ⟨laterBox, second⟩ := standsBy_halted first.present first.found
    exact ⟨laterBox, first.trans second⟩

end Server
end Parley
