import Parley.Proofs.Broker.Settle
import Parley.Proofs.Hub.Holders

/-!
# Brokers that stop

A broker stops when it is shut down or when nobody can reach it any more.  From then on
it holds nothing: connections and rooms are gone, every outbox that was ever handed over
is let go of, and whoever waits or asks is told that the hub has stopped.  No later
request and no later timer changes that.
-/

namespace Parley

namespace BrokerStep

/-- Whether a step is one of the transports and not one of the broker. -/
def isTransports : BrokerStep → Bool
  | .bring .. | .act .. => true
  | .submit _ | .serve | .forsake | .wait _ => false

end BrokerStep

namespace Broker

variable {broker : Broker} {outbox : OutboxId}

/-! ## What a broker does to outboxes -/

theorem letsGo_stop (broker : Broker) :
    broker.hub.outboxes.LetsGo broker.stop.hub.outboxes :=
  broker.hub.letsGo_closeAll.trans broker.turnsAway_stop.outboxes

theorem letsGo_post (broker : Broker) (request : Request) :
    broker.hub.outboxes.LetsGo (broker.post request).2.hub.outboxes := by
  cases running : broker.running with
  | true =>
      rw [post_of_running running]
      exact .refl _
  | false =>
      rw [post_of_stopped running]
      cases request.outbox? with
      | none => exact .refl _
      | some outbox => exact Outboxes.letsGo_release _ outbox

theorem letsGo_submit (broker : Broker) (request : Request) :
    broker.hub.outboxes.LetsGo (broker.step (.submit request)).hub.outboxes := by
  unfold Broker.step
  dsimp only
  split
  · exact broker.letsGo_post request
  · exact .refl _

theorem outboxes_tick (broker : Broker) (moment : Moment) :
    (broker.tick moment).hub.outboxes = broker.hub.outboxes := by
  rw [(broker.tolled_tick moment).hub]
  rfl

theorem extends_serveNext (broker : Broker) :
    broker.hub.outboxes.Extends broker.serveNext.hub.outboxes := by
  rcases broker.serveNext_possibilities with
    ⟨idle, _⟩ | ⟨_, _, _, result⟩ | ⟨letter, rest, _, _, ⟨_, result⟩ | ⟨_, result⟩⟩
  · rw [idle]
    exact .refl _
  · rw [result]
    exact broker.letsGo_stop.extends
  · rw [result]
    exact broker.hub.extends_serve letter.request
  · rw [result]
    exact (broker.hub.extends_serve letter.request).trans
      (broker.serving letter rest).letsGo_stop.extends

/-- The broker takes no payload out of an outbox. -/
theorem extends_step {step : BrokerStep} (own : step.isTransports = false) :
    broker.hub.outboxes.Extends (broker.step step).hub.outboxes := by
  cases step with
  | submit request => exact (broker.letsGo_submit request).extends
  | serve => exact broker.extends_serveNext
  | forsake => exact .refl _
  | wait span =>
      change broker.hub.outboxes.Extends (broker.tick _).hub.outboxes
      rw [outboxes_tick]
      exact .refl _
  | bring other capacity => cases own
  | act other act => cases own

/-- A broker that has stopped adds nothing to an outbox. -/
theorem letsGo_step_of_stopped (stopped : broker.running = false) {step : BrokerStep}
    (own : step.isTransports = false) :
    broker.hub.outboxes.LetsGo (broker.step step).hub.outboxes := by
  cases step with
  | submit request => exact broker.letsGo_submit request
  | serve =>
      change broker.hub.outboxes.LetsGo broker.serveNext.hub.outboxes
      rw [idle_of_stopped stopped]
      exact .refl _
  | forsake => exact .refl _
  | wait span =>
      change broker.hub.outboxes.LetsGo (broker.tick _).hub.outboxes
      rw [outboxes_tick]
      exact .refl _
  | bring other capacity => cases own
  | act other act => cases own

/-- No timer reaches a broker that has stopped. -/
theorem wait_of_stopped (stopped : broker.running = false) (span : Span) :
    broker.step (.wait span) =
      { broker with
        hub := broker.hub.step (.elapse (broker.hub.now + span.nanoseconds)) } := by
  have silent (expiries : List Expiry) (broker : Broker) (stopped : broker.running = false) :
      expiries.foldl ring broker = broker := by
    induction expiries with
    | nil => rfl
    | cons expiry rest induction =>
        have unheard : broker.ring expiry = broker := by simp [ring, stopped]
        rw [List.foldl_cons, unheard, induction]
  exact silent _ _ stopped

theorem stopped_step (stopped : broker.running = false) (step : BrokerStep) :
    (broker.step step).running = false := by
  cases running : (broker.step step).running with
  | false => rfl
  | true =>
      rw [running_of_running_step running] at stopped
      cases stopped

theorem stopped_run (stopped : broker.running = false) (steps : List BrokerStep) :
    (broker.run steps).running = false :=
  run_keeps (fun later => later.running = false) (fun _ step stopped => stopped_step stopped step)
    broker steps stopped

/-! ## Streams -/

/-- The payloads that a step takes out of an outbox. -/
def passedBy (broker : Broker) (outbox : OutboxId) : BrokerStep → List Payload
  | .act other act => broker.hub.passedBy outbox (.act other act)
  | _ => []

/-- The payloads that a run takes out of an outbox, in order. -/
def passed (broker : Broker) (outbox : OutboxId) : List BrokerStep → List Payload
  | [] => []
  | step :: rest => broker.passedBy outbox step ++ (broker.step step).passed outbox rest

/-- A step takes payloads from the front of an outbox and adds others at its back. -/
theorem passedBy_append_heldIn (broker : Broker) (outbox : OutboxId) (step : BrokerStep) :
    broker.hub.heldIn outbox <+:
      broker.passedBy outbox step ++ (broker.step step).hub.heldIn outbox := by
  cases own : step.isTransports with
  | false =>
      have nothing : broker.passedBy outbox step = [] := by cases step <;> first | rfl | cases own
      rw [nothing]
      exact Hub.heldIn_of_extends (extends_step own) outbox
  | true =>
      cases step with
      | bring other capacity =>
          exact broker.hub.passedBy_append_heldIn outbox (.bring other capacity)
      | act other act => exact broker.hub.passedBy_append_heldIn outbox (.act other act)
      | _ => cases own

/-- What is held in an outbox leaves it before anything that comes later. -/
theorem passed_append_heldIn (broker : Broker) (outbox : OutboxId) (steps : List BrokerStep) :
    broker.hub.heldIn outbox <+:
      broker.passed outbox steps ++ (broker.run steps).hub.heldIn outbox := by
  induction steps generalizing broker with
  | nil => exact List.prefix_rfl
  | cons step rest induction =>
      have first := broker.passedBy_append_heldIn outbox step
      have later := induction (broker.step step)
      rw [passed, List.append_assoc]
      exact first.trans ((List.prefix_append_right_inj _).2 later)

end Broker

/-- An outbox that the hub has let go of holds what its consumer has not taken. -/
theorem OutboxAct.taken_append_held_of_released (act : OutboxAct) {box : Outbox}
    (released : box.released = true) : act.taken box ++ (act.apply box).held = box.held := by
  cases act with
  | take count => exact List.take_append_drop count box.held
  | refuse => rfl
  | abandon => exact List.append_nil _
  | confirm confirmation => exact (Reader.fed_confirm confirmation box).unreleased released

/-- The consumer of an outbox that the hub has let go of gets all that is held, and then
sees the end. -/
theorem Outbox.take?_of_released {box : Outbox} (released : box.released = true)
    (there : box.consumer ≠ .gone) :
    box.take? none = some (⟨box.held, true⟩, { box with held := [] }) := by
  simp [take?, there, isClosed, released]

namespace Hub

theorem heldIn_of_letsGo {hub later : Hub} (letsGo : hub.outboxes.LetsGo later.outboxes)
    (outbox : OutboxId) : later.heldIn outbox = hub.heldIn outbox := by
  unfold heldIn
  rcases letsGo outbox with same | released
  · rw [same]
  · rw [released]
    cases hub.outboxes.get? outbox <;> rfl

end Hub

namespace Broker

variable {broker : Broker} {outbox : OutboxId}

theorem released_step (released : broker.hub.outboxes.Released outbox) (step : BrokerStep) :
    (broker.step step).hub.outboxes.Released outbox :=
  hub_step_keeps (fun hub => hub.outboxes.Released outbox)
    (fun _ event released => Hub.released_step released event)
    (fun hub other released => released.extend (hub.outboxes.extends_release other))
    broker step released

/-- Once the broker has stopped, an outbox that was let go of only loses what its consumer
takes. -/
theorem passedBy_append_heldIn_of_stopped (stopped : broker.running = false)
    (released : broker.hub.outboxes.Released outbox) (step : BrokerStep) :
    broker.passedBy outbox step ++ (broker.step step).hub.heldIn outbox =
      broker.hub.heldIn outbox := by
  cases own : step.isTransports with
  | false =>
      have nothing : broker.passedBy outbox step = [] := by cases step <;> first | rfl | cases own
      rw [nothing]
      exact Hub.heldIn_of_letsGo (letsGo_step_of_stopped stopped own) outbox
  | true =>
      obtain ⟨box, found, gone⟩ := released
      cases step with
      | bring other capacity =>
          rcases broker.hub.bring_cases other capacity with result | ⟨absent, result⟩ <;>
            simp only [Broker.step, result]
          · rfl
          · have different : outbox ≠ other := by
              rintro rfl
              rw [absent] at found
              cases found
            simp only [passedBy, Hub.heldIn, Table.get?_set_of_ne _ different, List.nil_append]
      | act other act =>
          unfold passedBy Hub.passedBy Hub.heldIn Broker.step Hub.step
          dsimp only
          rw [Table.get?_modify]
          by_cases same : outbox = other
          · rw [if_pos same, if_pos same.symm, ← same, found]
            exact act.taken_append_held_of_released gone
          · rw [if_neg same, if_neg (Ne.symm same)]
            rfl
      | _ => cases own

theorem passed_append_heldIn_of_stopped (stopped : broker.running = false)
    (released : broker.hub.outboxes.Released outbox) (steps : List BrokerStep) :
    broker.passed outbox steps ++ (broker.run steps).hub.heldIn outbox =
      broker.hub.heldIn outbox := by
  induction steps generalizing broker with
  | nil => rfl
  | cons step rest induction =>
      rw [passed, List.append_assoc, run_cons,
        induction (stopped_step stopped step) (released_step released step)]
      exact passedBy_append_heldIn_of_stopped stopped released step

/-! ## Outboxes that are handed over -/

/-- The outbox that a step hands over with a registration. -/
def handedOverBy (broker : Broker) : BrokerStep → List OutboxId
  | .submit request =>
      if broker.reachable then (request.outbox?.filter broker.hub.outboxes.contains).toList
      else []
  | _ => []

/-- The outboxes that a run hands over with registrations, accepted or refused. -/
def handedOver (broker : Broker) : List BrokerStep → List OutboxId
  | [] => []
  | step :: rest => broker.handedOverBy step ++ (broker.step step).handedOver rest

/-- An outbox waits in a letter, or is accounted for. -/
structure Keeps (broker : Broker) (outbox : OutboxId) : Prop where
  exists_box : ∃ box, broker.hub.outboxes.get? outbox = some box
  held : broker.hub.Accounted outbox ∨
    ∃ letter ∈ broker.mailbox, letter.request.outbox? = some outbox

theorem Keeps.of_accounted (accounted : broker.hub.Accounted outbox) : broker.Keeps outbox :=
  ⟨accounted.exists_box, .inl accounted⟩

theorem exists_box_step (found : ∃ box, broker.hub.outboxes.get? outbox = some box)
    (step : BrokerStep) : ∃ box, (broker.step step).hub.outboxes.get? outbox = some box := by
  refine hub_step_keeps (fun hub => ∃ box, hub.outboxes.get? outbox = some box)
    (fun hub event found => ?_) (fun hub other found => ?_) broker step found
  · obtain ⟨box, there⟩ := found
    obtain ⟨after, still, _⟩ := Hub.get?_step there event
    exact ⟨after, still⟩
  · obtain ⟨box, there⟩ := found
    obtain ⟨after, still, _⟩ := (hub.outboxes.extends_release other).exists there
    exact ⟨after, still⟩

theorem released_turnAway {letter : Letter} (brings : letter.request.outbox? = some outbox)
    (found : ∃ box, broker.hub.outboxes.get? outbox = some box) :
    (broker.turnAway letter).hub.outboxes.Released outbox := by
  obtain ⟨box, there⟩ := found
  rw [turnAway_eq, brings]
  exact Outboxes.released_release there

/-- A stop lets go of the outboxes in the letters that it turns away. -/
theorem released_stop {letter : Letter} (member : letter ∈ broker.mailbox)
    (brings : letter.request.outbox? = some outbox)
    (found : ∃ box, broker.hub.outboxes.get? outbox = some box) :
    broker.stop.hub.outboxes.Released outbox := by
  have turned (letters : List Letter) (broker : Broker) (member : letter ∈ letters)
      (found : ∃ box, broker.hub.outboxes.get? outbox = some box) :
      (letters.foldl turnAway broker).hub.outboxes.Released outbox := by
    induction letters generalizing broker with
    | nil => cases member
    | cons first rest induction =>
        rcases List.mem_cons.1 member with rfl | later
        · exact (released_turnAway brings found).extend
            (turnsAway_foldl rest (broker.turnAway letter)).outboxes.extends
        · obtain ⟨box, there⟩ := found
          obtain ⟨after, still, _⟩ :=
            (broker.turnsAway_turnAway first).outboxes.extends.exists there
          exact induction _ later ⟨after, still⟩
  obtain ⟨box, there⟩ := found
  obtain ⟨after, still, _⟩ := broker.hub.extends_closeAll.exists there
  exact turned _ _ member ⟨after, still⟩

/-- A letter that brings an outbox is served, turned away, or goes on waiting. -/
theorem keeps_serveNext {letter : Letter} (member : letter ∈ broker.mailbox)
    (brings : letter.request.outbox? = some outbox)
    (found : ∃ box, broker.hub.outboxes.get? outbox = some box) :
    broker.serveNext.Keeps outbox := by
  rcases broker.serveNext_possibilities with
    ⟨idle, _⟩ | ⟨_, nothing, _⟩ | ⟨first, rest, _, letters, served⟩
  · rw [idle]
    exact ⟨found, .inr ⟨letter, member, brings⟩⟩
  · rw [nothing] at member
    cases member
  · obtain ⟨box, there⟩ := found
    obtain ⟨after, still, _⟩ := (broker.hub.extends_serve first.request).exists there
    rw [letters] at member
    rcases List.mem_cons.1 member with rfl | waiting
    · have ordinary : letter.request ≠ .shutdown := by
        intro closing
        rw [closing] at brings
        cases brings
      obtain ⟨_, result⟩ := served.resolve_right fun closing => ordinary closing.1
      rw [result]
      cases registration : letter.request with
      | register id name brought =>
          rw [registration] at brings
          obtain rfl := Option.some.inj brings
          refine .of_accounted ?_
          simp only [serving, registration, Hub.serve]
          exact Hub.accounted_register ⟨box, there⟩ id name
      | _ =>
          rw [registration] at brings
          cases brings
    · rcases served with ⟨_, result⟩ | ⟨_, result⟩ <;> rw [result]
      · exact ⟨⟨after, still⟩, .inr ⟨letter, waiting, brings⟩⟩
      · exact .of_accounted (.of_released (released_stop waiting brings ⟨after, still⟩))

/-- No step forgets an outbox. -/
theorem Keeps.step (keeps : broker.Keeps outbox) (step : BrokerStep) :
    (broker.step step).Keeps outbox := by
  rcases keeps.held with accounted | ⟨letter, member, brings⟩
  · exact .of_accounted (hub_step_keeps (fun hub => hub.Accounted outbox)
      (fun _ event accounted => accounted.step event)
      (fun _ other accounted => accounted.release other) broker step accounted)
  · have waits (still : letter ∈ (broker.step step).mailbox) : (broker.step step).Keeps outbox :=
      ⟨exists_box_step keeps.exists_box step, .inr ⟨letter, still, brings⟩⟩
    cases step with
    | submit request =>
        refine waits ?_
        unfold Broker.step
        dsimp only
        split
        · rw [snd_submit]
          cases running : broker.running with
          | true =>
              rw [post_of_running running]
              exact List.mem_append_left _ member
          | false =>
              rw [post_of_stopped running]
              exact member
        · exact member
    | serve => exact keeps_serveNext member brings keeps.exists_box
    | forsake => exact waits member
    | wait span => exact waits ((broker.tolled_tick _).front.subset member)
    | bring other capacity => exact waits member
    | act other act => exact waits member

theorem Keeps.run (keeps : broker.Keeps outbox) (steps : List BrokerStep) :
    (broker.run steps).Keeps outbox :=
  run_keeps (fun later => later.Keeps outbox) (fun _ step keeps => keeps.step step)
    broker steps keeps

theorem keeps_of_handedOverBy {step : BrokerStep} (handed : outbox ∈ broker.handedOverBy step) :
    (broker.step step).Keeps outbox := by
  cases step with
  | submit request =>
      unfold handedOverBy at handed
      unfold Broker.step
      dsimp only at handed ⊢
      split at handed
      · rename_i reachable
        rw [Option.mem_toList, Option.filter_eq_some_iff, Table.contains_eq_true_iff] at handed
        obtain ⟨brings, found⟩ := handed
        rw [if_pos reachable, snd_submit]
        cases running : broker.running with
        | true =>
            rw [post_of_running running]
            exact ⟨found, .inr ⟨⟨broker.nextTicket, request⟩, by simp, brings⟩⟩
        | false =>
            obtain ⟨box, there⟩ := found
            rw [post_of_stopped running, brings]
            exact .of_accounted (.of_released (Outboxes.released_release there))
      · cases handed
  | _ => cases handed

theorem keeps_of_handedOver {steps : List BrokerStep}
    (handed : outbox ∈ broker.handedOver steps) : (broker.run steps).Keeps outbox := by
  induction steps generalizing broker with
  | nil => cases handed
  | cons step rest induction =>
      rcases List.mem_append.1 handed with now | later
      · exact (keeps_of_handedOverBy now).run rest
      · exact induction later

/-- When a broker has stopped, the hub has let go of every outbox. -/
theorem Keeps.letGo (keeps : broker.Keeps outbox) (sound : broker.Sound)
    (stopped : broker.running = false) : broker.hub.LetGo outbox := by
  have accounted : broker.hub.Accounted outbox := by
    refine keeps.held.resolve_right ?_
    rintro ⟨letter, member, _⟩
    rw [sound.mailbox stopped] at member
    cases member
  exact accounted.letGo (sound.connections stopped)

/-! ## Requests behind a shutdown -/

/-- Some letters wait behind a shutdown, or have been turned away. -/
def Doomed (behind : List Letter) (broker : Broker) : Prop :=
  (broker.running = true ∧ ∃ front closing more, broker.mailbox =
      front ++ closing :: (behind ++ more) ∧ closing.request = .shutdown) ∨
    (broker.running = false ∧ ∀ letter ∈ behind, letter.ticket < broker.nextTicket ∧
      (letter.request.awaited = true →
        broker.replies.get? letter.ticket = some (.error .stopped)))

variable {behind : List Letter}

/-- A stop turns all waiting letters away. -/
theorem doomed_stop (waiting : ∀ letter ∈ behind, letter ∈ broker.mailbox)
    (below : ∀ letter ∈ broker.mailbox, letter.ticket < broker.nextTicket) :
    Doomed behind broker.stop := by
  have turned := broker.turnsAway_stop
  refine .inr ⟨turned.running, fun letter member => ⟨?_, fun awaited => ?_⟩⟩
  · rw [turned.nextTicket]
    exact below letter (waiting letter member)
  · exact turned.answers letter (waiting letter member) awaited

theorem doomed_serveNext (sound : broker.Sound) (running : broker.running = true)
    {front more : List Letter} {closing : Letter}
    (letters : broker.mailbox = front ++ closing :: (behind ++ more))
    (shuts : closing.request = .shutdown) : Doomed behind broker.serveNext := by
  have turnedAway {letter : Letter} {rest : List Letter}
      (split : broker.mailbox = letter :: rest) (waiting : ∀ other ∈ behind, other ∈ rest) :
      Doomed behind (broker.serving letter rest).stop :=
    doomed_stop waiting fun other member =>
      sound.below other (split ▸ List.mem_cons_of_mem letter member)
  cases front with
  | nil =>
      have split : broker.mailbox = closing :: (behind ++ more) := letters
      rw [serveNext_of_letter running split, if_pos shuts]
      exact turnedAway split fun other member => List.mem_append_left _ member
  | cons letter rest =>
      have split : broker.mailbox = letter :: (rest ++ closing :: (behind ++ more)) := letters
      rw [serveNext_of_letter running split]
      split
      · exact turnedAway split fun other member => by simp [member]
      · exact .inl ⟨running, rest, closing, more, rfl, shuts⟩

/-- Letters behind a shutdown stay there until they are turned away. -/
theorem Doomed.step (doomed : Doomed behind broker) (sound : broker.Sound)
    (step : BrokerStep) : Doomed behind (broker.step step) := by
  rcases doomed with ⟨running, front, closing, more, letters, shuts⟩ | ⟨stopped, answered⟩
  · have waits {later : Broker} (still : later.running = true)
        (grown : broker.mailbox <+: later.mailbox) : Doomed behind later := by
      obtain ⟨added, appended⟩ := grown
      refine .inl ⟨still, front, closing, more ++ added, ?_, shuts⟩
      rw [← appended, letters]
      simp
    cases step with
    | submit request =>
        unfold Broker.step
        dsimp only
        split
        · rw [snd_submit, post_of_running running]
          exact waits running (List.prefix_append _ _)
        · exact waits running List.prefix_rfl
    | serve => exact doomed_serveNext sound running letters shuts
    | forsake => exact waits running List.prefix_rfl
    | wait span =>
        have tolled := broker.tolled_tick
          (broker.hub.now + span.nanoseconds)
        exact waits (tolled.running.trans running) tolled.front
    | bring other capacity => exact waits running List.prefix_rfl
    | act other act => exact waits running List.prefix_rfl
  · have remains {later : Broker} (still : later.running = false)
        (nextTicket : broker.nextTicket ≤ later.nextTicket)
        (replies : ∀ ticket, ticket < broker.nextTicket →
          later.replies.get? ticket = broker.replies.get? ticket) : Doomed behind later := by
      refine .inr ⟨still, fun letter member => ?_⟩
      obtain ⟨below, given⟩ := answered letter member
      exact ⟨Nat.lt_of_lt_of_le below nextTicket, fun awaited =>
        (replies letter.ticket below).trans (given awaited)⟩
    cases step with
    | submit request =>
        unfold Broker.step
        dsimp only
        split
        · rw [snd_submit, post_of_stopped stopped]
          exact remains stopped (Nat.le_succ _) fun ticket below =>
            broker.get?_replied_of_ne (Nat.ne_of_lt below) _
        · exact remains stopped (Nat.le_refl _) fun _ _ => rfl
    | serve =>
        change Doomed behind broker.serveNext
        rw [idle_of_stopped stopped]
        exact remains stopped (Nat.le_refl _) fun _ _ => rfl
    | forsake => exact remains stopped (Nat.le_refl _) fun _ _ => rfl
    | wait span =>
        rw [wait_of_stopped stopped]
        exact remains stopped (Nat.le_refl _) fun _ _ => rfl
    | bring other capacity => exact remains stopped (Nat.le_refl _) fun _ _ => rfl
    | act other act => exact remains stopped (Nat.le_refl _) fun _ _ => rfl

theorem Doomed.run (doomed : Doomed behind broker) (sound : broker.Sound)
    (steps : List BrokerStep) : Doomed behind (broker.run steps) := by
  induction steps generalizing broker with
  | nil => exact doomed
  | cons step rest induction => exact induction (doomed.step sound step) (sound.step step)

theorem Doomed.answered (doomed : Doomed behind broker) (stopped : broker.running = false)
    {letter : Letter} (member : letter ∈ behind) (awaited : letter.request.awaited = true) :
    broker.replies.get? letter.ticket = some (.error .stopped) := by
  rcases doomed with ⟨running, _⟩ | ⟨_, answered⟩
  · rw [stopped] at running
    cases running
  · exact (answered letter member).2 awaited

/-! ## The end of a broker -/

/-- A shutdown stops the broker that serves it. -/
theorem stopped_of_shutdown {letter : Letter} {rest : List Letter}
    (letters : broker.mailbox = letter :: rest) (shuts : letter.request = .shutdown) :
    broker.serveNext.running = false := by
  cases running : broker.running with
  | false => rw [idle_of_stopped running, running]
  | true =>
      rw [serveNext_of_letter running letters, if_pos shuts]
      exact running_stop _

/-- A broker that nobody can reach stops when it has served what waits. -/
theorem stopped_of_unreachable (unreachable : broker.reachable = false) :
    broker.settle.running = false := by
  cases running : broker.settle.running with
  | false => rfl
  | true =>
      have reachable := (broker.idle_settle.empty running).2
      rw [broker.outside_settle.1, unreachable] at reachable
      cases reachable

/-- The end of a broker is complete and final.  A broker stops when it serves a shutdown
and, whatever timers still run, when nobody can reach it.  Once it has stopped, after any
further steps: (1) it is still stopped and knows no connection, no room and no letter,
(2) the hub has let go of every outbox that was ever handed over with a registration,
accepted or refused, (3) of such an outbox the consumer gets all that was held at any
time before, in order, and then sees the end, (4) the broker adds nothing to any outbox,
and a timer finds it stopped, so that only its clock moves, (5) whoever waited behind a
shutdown was told that the hub has stopped, and (6) whoever asks now is told the same. -/
theorem stop_is_complete_and_final (settings : Settings) (startedAt : Stamp)
    (steps : List BrokerStep) :
    let start := Broker.new settings startedAt
    let broker := start.run steps
    (∀ letter rest, broker.mailbox = letter :: rest → letter.request = .shutdown →
        (broker.step .serve).running = false) ∧
      (broker.reachable = false → broker.settle.running = false) ∧
      (broker.running = false → ∀ later,
        let after := broker.run later
        (after.running = false ∧ after.hub.connections = .empty ∧
            after.hub.roster.rooms = .empty ∧ after.hub.roster.memberships = .empty ∧
            after.mailbox = []) ∧
          (∀ outbox ∈ start.handedOver (steps ++ later), after.hub.LetGo outbox) ∧
          (∀ outbox ∈ start.handedOver steps,
            (∀ first second, steps = first ++ second →
              (start.run first).hub.heldIn outbox <+:
                (start.run first).passed outbox (second ++ later) ++ after.hub.heldIn outbox) ∧
            broker.passed outbox later ++ after.hub.heldIn outbox = broker.hub.heldIn outbox ∧
            ∃ box, after.hub.outboxes.get? outbox = some box ∧
              (box.consumer ≠ .gone →
                box.take? none = some (⟨box.held, true⟩, { box with held := [] }))) ∧
          ((∀ step, step.isTransports = false →
              after.hub.outboxes.LetsGo (after.step step).hub.outboxes) ∧
            ∀ span, after.step (.wait span) =
              { after with
                hub := after.hub.step (.elapse (after.hub.now + span.nanoseconds)) }) ∧
          (∀ first second front closing behind, steps = first ++ second →
            (start.run first).mailbox = front ++ closing :: behind →
            closing.request = .shutdown →
            ∀ letter ∈ behind, letter.request.awaited = true →
              after.replies.get? letter.ticket = some (.error .stopped)) ∧
          ∀ request, (after.submit request).1 = .settled (.error .stopped) ∧
            (after.ask request).1 = .error .stopped) := by
  intro start broker
  have sound (steps : List BrokerStep) : (start.run steps).Sound :=
    (Sound.new settings startedAt).run steps
  refine ⟨fun letter rest letters shuts => stopped_of_shutdown letters shuts,
    stopped_of_unreachable, fun stopped later => ?_⟩
  intro after
  have whole : start.run (steps ++ later) = after := run_append start steps later
  have soundAfter : after.Sound := whole ▸ sound (steps ++ later)
  have ended : after.running = false := stopped_run stopped later
  have letGo (outbox : OutboxId) (handed : outbox ∈ start.handedOver steps) :
      broker.hub.LetGo outbox :=
    (keeps_of_handedOver handed).letGo (sound steps) stopped
  refine ⟨⟨ended, soundAfter.connections ended, soundAfter.rooms ended,
    soundAfter.memberships ended, soundAfter.mailbox ended⟩, fun outbox handed => ?_,
    fun outbox handed => ⟨fun first second split => ?_, ?_, ?_⟩,
    ⟨fun step own => letsGo_step_of_stopped ended own, wait_of_stopped ended⟩,
    fun first second front closing behind split letters shuts letter member awaited => ?_,
    fun request => ⟨?_, ?_⟩⟩
  · have keeps : after.Keeps outbox := whole ▸ keeps_of_handedOver handed
    exact keeps.letGo soundAfter ended
  · have received := (start.run first).passed_append_heldIn outbox (second ++ later)
    rwa [← run_append, ← List.append_assoc, ← split, whole] at received
  · exact passed_append_heldIn_of_stopped stopped (letGo outbox handed).released later
  · obtain ⟨box, found, gone⟩ : after.hub.outboxes.Released outbox :=
      run_keeps (fun later => later.hub.outboxes.Released outbox)
        (fun _ step released => released_step released step) broker later
        (letGo outbox handed).released
    exact ⟨box, found, Outbox.take?_of_released gone⟩
  · have doomed : Doomed behind (start.run first) := by
      cases running : (start.run first).running with
      | true => exact .inl ⟨running, front, closing, [], by simpa using letters, shuts⟩
      | false =>
          rw [(sound first).mailbox running] at letters
          simp at letters
    have final := doomed.run (sound first) (second ++ later)
    rw [← run_append, ← List.append_assoc, ← split, whole] at final
    exact final.answered ended member awaited
  · simp [submit, ended]
  · rw [ask_eq, if_pos ended]

/-- A peer is registered and sent a payload, and somebody inspects the hub behind a
shutdown: the outbox is let go of with the payload in it, and the inspection is told that
the hub has stopped. -/
theorem stop_is_complete_behind_a_shutdown :
    let alice : ConnectionId := ⟨"alice", by decide⟩
    let waiting : List BrokerStep := [.bring 0 8, .submit (.register alice .default 0), .serve,
      .submit (.broadcast "hello"), .serve, .submit .shutdown, .submit .inspect]
    let broker := (Broker.new {} 0).run (waiting ++ [.serve])
    broker.running = false ∧ broker.hub.LetGo 0 ∧ broker.hub.heldIn 0 = ["hello"] ∧
      broker.replies.get? 3 = some (.error .stopped) := by
  intro alice waiting broker
  have stopped : broker.running = false := by decide +kernel
  have handed : 0 ∈ (Broker.new {} 0).handedOver (waiting ++ [.serve]) := by decide +kernel
  have letters : ((Broker.new {} 0).run waiting).mailbox =
      [] ++ ⟨2, .shutdown⟩ :: [⟨3, .inspect⟩] := by decide +kernel
  obtain ⟨_, _, final⟩ := stop_is_complete_and_final {} 0 (waiting ++ [.serve])
  obtain ⟨_, letGo, _, _, behind, _⟩ := final stopped []
  have gone := letGo 0 (by rwa [List.append_nil])
  have told := behind waiting [.serve] _ _ _ rfl letters rfl _ List.mem_cons_self rfl
  rw [run_nil] at gone told
  exact ⟨stopped, gone, by decide +kernel, told⟩

end Broker
end Parley
