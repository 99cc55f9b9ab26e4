import Parley.Proofs.Broker
import Parley.Proofs.Hub.Consistency

/-!
# Runs of a broker

Whoever can reach a broker sends it requests, the broker serves one after the other,
and timers tell it which graces are over.  A run is any sequence of such steps, with
the steps of transports and of the clock between them.
-/

namespace Parley

/-- What happens to a broker. -/
inductive BrokerStep
  /-- Somebody who can reach the broker sends a request. -/
  | submit (request : Request)
  /-- The broker serves the oldest waiting request; when none waits and nobody can
  reach it, it stops. -/
  | serve
  /-- Everybody who could send requests is gone. -/
  | forsake
  /-- Time passes. -/
  | wait (span : Span)
  /-- A transport brings an outbox of its own. -/
  | bring (outbox : OutboxId) (capacity : Nat)
  /-- A transport uses its outbox. -/
  | act (outbox : OutboxId) (act : OutboxAct)
  deriving DecidableEq, Repr

namespace Broker

/-- What a step makes of a broker. -/
def step (broker : Broker) : BrokerStep → Broker
  | .submit request => if broker.reachable then (broker.submit request).2 else broker
  | .serve => broker.serveNext
  | .forsake => { broker with reachable := false }
  | .wait span => broker.tick (broker.hub.now + span.nanoseconds)
  | .bring outbox capacity => { broker with hub := broker.hub.step (.bring outbox capacity) }
  | .act outbox act => { broker with hub := broker.hub.step (.act outbox act) }

/-- What several steps make of a broker. -/
def run (broker : Broker) (steps : List BrokerStep) : Broker := steps.foldl step broker

/-- What the hub serves in a step, with the outcome. -/
def servedBy (broker : Broker) : BrokerStep → List (Request × Outcome)
  | .serve =>
      if broker.running then
        broker.mailbox.head?.toList.map fun letter =>
          (letter.request, (broker.hub.serve letter.request).1)
      else []
  | _ => []

/-- What the hub serves in a run, with the outcomes, in order. -/
def served (broker : Broker) : List BrokerStep → List (Request × Outcome)
  | [] => []
  | step :: rest => broker.servedBy step ++ (broker.step step).served rest

variable {broker : Broker}

@[simp] theorem run_nil (broker : Broker) : broker.run [] = broker := rfl

@[simp] theorem run_cons (broker : Broker) (first : BrokerStep) (rest : List BrokerStep) :
    broker.run (first :: rest) = (broker.step first).run rest := rfl

theorem run_append (broker : Broker) (first second : List BrokerStep) :
    broker.run (first ++ second) = (broker.run first).run second :=
  List.foldl_append

/-- What every step keeps, a run keeps. -/
theorem run_keeps (Kept : Broker → Prop)
    (stepKeeps : ∀ broker step, Kept broker → Kept (Broker.step broker step))
    (broker : Broker) (steps : List BrokerStep) (start : Kept broker) :
    Kept (broker.run steps) := by
  induction steps generalizing broker with
  | nil => exact start
  | cons first rest induction =>
      exact induction (broker.step first) (stepKeeps broker first start)

/-! ## What a step can do -/

/-- A broker that has served its oldest letter. -/
def serving (broker : Broker) (letter : Letter) (rest : List Letter) : Broker :=
  { broker with
    hub := (broker.hub.serve letter.request).2
    mailbox := rest
    replies := broker.replied letter (broker.hub.serve letter.request).1 }

/-- A broker has nothing to do. -/
def Idle (broker : Broker) : Prop := broker.serveNext = broker

theorem idle_of_stopped (stopped : broker.running = false) : broker.Idle := by
  unfold Idle serveNext
  rw [stopped]
  rfl

theorem idle_of_empty (letters : broker.mailbox = []) (reachable : broker.reachable = true) :
    broker.Idle := by
  unfold Idle serveNext
  simp [letters, reachable]

theorem serveNext_of_letter {letter : Letter} {rest : List Letter}
    (running : broker.running = true) (letters : broker.mailbox = letter :: rest) :
    broker.serveNext =
      if letter.request = .shutdown then (broker.serving letter rest).stop
      else broker.serving letter rest := by
  unfold serveNext
  rw [if_neg (by simp [running]), letters]
  simp only [reply_eq]
  rfl

/-- A broker has nothing to do, stops because nobody can reach it, serves its oldest
letter, or is shut down by it. -/
theorem serveNext_possibilities (broker : Broker) :
    (broker.Idle ∧
        (broker.running = true → broker.mailbox = [] ∧ broker.reachable = true)) ∨
      (broker.running = true ∧ broker.mailbox = [] ∧ broker.reachable = false ∧
        broker.serveNext = broker.stop) ∨
      ∃ letter rest, broker.running = true ∧ broker.mailbox = letter :: rest ∧
        ((letter.request ≠ .shutdown ∧ broker.serveNext = broker.serving letter rest) ∨
          (letter.request = .shutdown ∧
            broker.serveNext = (broker.serving letter rest).stop)) := by
  cases running : broker.running with
  | false => exact .inl ⟨idle_of_stopped running, nofun⟩
  | true =>
      cases letters : broker.mailbox with
      | nil =>
          cases reachable : broker.reachable with
          | true => exact .inl ⟨idle_of_empty letters reachable, fun _ => ⟨rfl, rfl⟩⟩
          | false =>
              refine .inr (.inl ⟨rfl, rfl, rfl, ?_⟩)
              unfold serveNext
              simp [running, letters, reachable]
      | cons letter rest =>
          refine .inr (.inr ⟨letter, rest, rfl, rfl, ?_⟩)
          rw [serveNext_of_letter running letters]
          by_cases closing : letter.request = .shutdown
          · exact .inr ⟨closing, if_pos closing⟩
          · exact .inl ⟨closing, if_neg closing⟩

theorem running_stop (broker : Broker) : broker.stop.running = false :=
  broker.turnsAway_stop.running

theorem mailbox_stop (broker : Broker) : broker.stop.mailbox = [] :=
  broker.turnsAway_stop.mailbox

/-- An idle broker that still runs has served everything and can be reached. -/
theorem Idle.empty (idle : broker.Idle) (running : broker.running = true) :
    broker.mailbox = [] ∧ broker.reachable = true := by
  rcases broker.serveNext_possibilities with
    ⟨_, settled⟩ | ⟨_, _, _, result⟩ | ⟨letter, rest, _, letters, ⟨_, result⟩ | ⟨_, result⟩⟩
  · exact settled running
  · rw [← idle, result, running_stop] at running
    cases running
  · have shorter : broker.mailbox = rest := by rw [← idle, result]; rfl
    rw [letters] at shorter
    exact absurd shorter (List.cons_ne_self letter rest)
  · rw [← idle, result, running_stop] at running
    cases running

/-- A broker that has stopped does not run again. -/
theorem running_of_running_serveNext (running : broker.serveNext.running = true) :
    broker.running = true := by
  cases stopped : broker.running with
  | true => rfl
  | false =>
      rw [idle_of_stopped stopped, stopped] at running
      cases running

/-- A broker that goes on running had nothing to do or has served its oldest letter. -/
theorem serveNext_of_running (running : broker.serveNext.running = true) :
    broker.Idle ∨ ∃ letter rest, broker.mailbox = letter :: rest ∧ letter.request ≠ .shutdown ∧
      broker.serveNext = broker.serving letter rest := by
  rcases broker.serveNext_possibilities with
    ⟨idle, _⟩ | ⟨_, _, _, result⟩ | ⟨letter, rest, _, letters, ⟨goesOn, result⟩ | ⟨_, result⟩⟩
  · exact .inl idle
  · rw [result, running_stop] at running
    cases running
  · exact .inr ⟨letter, rest, letters, goesOn, result⟩
  · rw [result, running_stop] at running
    cases running

/-! ## Timers -/

/-- The request that a timer sends. -/
def expiryRequest (expiry : Expiry) : Request := .expire expiry.id expiry.generation

/-- What the ends of several graces do to a broker. -/
structure Tolled (expiries : List Expiry) (before after : Broker) : Prop where
  hub : after.hub = before.hub
  replies : after.replies = before.replies
  running : after.running = before.running
  reachable : after.reachable = before.reachable
  nextTicket : before.nextTicket ≤ after.nextTicket
  /-- Letters that wait already stay in front. -/
  front : before.mailbox <+: after.mailbox
  letters : ∀ letter ∈ after.mailbox, letter ∈ before.mailbox ∨
    (before.running = true ∧ letter.ticket < after.nextTicket ∧
      ∃ expiry ∈ expiries, letter.request = expiryRequest expiry)
  rung : before.running = true → before.reachable = true → ∀ expiry ∈ expiries,
    ∃ letter ∈ after.mailbox, letter.request = expiryRequest expiry

theorem Tolled.nil (broker : Broker) : Tolled [] broker broker where
  hub := rfl
  replies := rfl
  running := rfl
  reachable := rfl
  nextTicket := Nat.le_refl _
  front := List.prefix_rfl
  letters _ member := .inl member
  rung _ _ expiry member := by cases member

theorem Tolled.cons {expiry : Expiry} {rest : List Expiry} {after : Broker}
    (tolled : Tolled rest (broker.ring expiry) after) : Tolled (expiry :: rest) broker after := by
  unfold ring at tolled
  split at tolled
  · rename_i both
    obtain ⟨running, reachable⟩ := Bool.and_eq_true_iff.1 both
    rw [post_of_running running] at tolled
    have front : broker.mailbox ++ [⟨broker.nextTicket, expiryRequest expiry⟩] <+:
        after.mailbox := tolled.front
    refine ⟨tolled.hub, tolled.replies, tolled.running, tolled.reachable,
      Nat.le_trans (Nat.le_succ _) tolled.nextTicket, (List.prefix_append _ _).trans front,
      fun letter member => ?_, fun _ _ other member => ?_⟩
    · rcases tolled.letters letter member with earlier | ⟨_, below, other, among, same⟩
      · rcases List.mem_append.1 earlier with waiting | last
        · exact .inl waiting
        · obtain rfl := List.mem_singleton.1 last
          exact .inr ⟨running, tolled.nextTicket, expiry, List.mem_cons_self, rfl⟩
      · exact .inr ⟨running, below, other, List.mem_cons_of_mem _ among, same⟩
    · rcases List.mem_cons.1 member with rfl | later
      · exact ⟨⟨broker.nextTicket, expiryRequest other⟩, front.subset (by simp), rfl⟩
      · exact tolled.rung running reachable other later
  · rename_i silent
    refine ⟨tolled.hub, tolled.replies, tolled.running, tolled.reachable, tolled.nextTicket,
      tolled.front, fun letter member => ?_, fun running reachable => ?_⟩
    · rcases tolled.letters letter member with earlier | ⟨running, below, other, among, same⟩
      · exact .inl earlier
      · exact .inr ⟨running, below, other, List.mem_cons_of_mem _ among, same⟩
    · simp [running, reachable] at silent

theorem tolled_foldl (expiries : List Expiry) (broker : Broker) :
    Tolled expiries broker (expiries.foldl ring broker) := by
  induction expiries generalizing broker with
  | nil => exact .nil broker
  | cons expiry rest induction => exact .cons (induction _)

theorem mem_overdue_iff {moment : Moment} {expiry : Expiry} :
    expiry ∈ broker.overdue moment ↔
      expiry ∈ broker.hub.expiries ∧ isOver moment expiry = true := by
  unfold overdue
  rw [List.mem_mergeSort, List.mem_filter]

/-- When time passes, the timers of the graces that are over ring. -/
theorem tolled_tick (broker : Broker) (moment : Moment) :
    Tolled (broker.overdue moment) { broker with hub := broker.hub.step (.elapse moment) }
      (broker.tick moment) :=
  tolled_foldl _ _

/-! ## What every step keeps -/

theorem running_post (broker : Broker) (request : Request) :
    (broker.post request).2.running = broker.running := by
  cases running : broker.running with
  | true => rw [post_of_running running, running]
  | false => rw [post_of_stopped running, running]

theorem running_of_running_step {step : BrokerStep}
    (running : (broker.step step).running = true) : broker.running = true := by
  cases step with
  | submit request =>
      unfold Broker.step at running
      dsimp only at running
      split at running
      · exact (broker.running_post request).symm.trans running
      · exact running
  | serve => exact running_of_running_serveNext running
  | forsake => exact running
  | wait span => exact (broker.tolled_tick _).running.symm.trans running
  | bring outbox capacity => exact running
  | act outbox act => exact running

theorem running_of_running_run {steps : List BrokerStep}
    (running : (broker.run steps).running = true) : broker.running = true := by
  induction steps generalizing broker with
  | nil => exact running
  | cons step rest induction => exact running_of_running_step (induction running)

section HubKeeps

variable (Kept : Hub → Prop) (stepKeeps : ∀ hub event, Kept hub → Kept (Hub.step hub event))
  (releaseKeeps : ∀ hub outbox, Kept hub → Kept (Hub.release hub outbox))

include releaseKeeps in
theorem hub_turnAway_keeps (broker : Broker) (letter : Letter) (start : Kept broker.hub) :
    Kept (broker.turnAway letter).hub := by
  rw [turnAway_eq]
  cases letter.request.outbox? with
  | none => exact start
  | some outbox => exact releaseKeeps _ outbox start

include stepKeeps releaseKeeps

theorem hub_stop_keeps (broker : Broker) (start : Kept broker.hub) : Kept broker.stop.hub := by
  have turned (letters : List Letter) (broker : Broker) (start : Kept broker.hub) :
      Kept (letters.foldl turnAway broker).hub := by
    induction letters generalizing broker with
    | nil => exact start
    | cons letter rest induction =>
        exact induction _ (hub_turnAway_keeps Kept releaseKeeps broker letter start)
  exact turned _ _ (stepKeeps broker.hub .stop start)

theorem hub_serveNext_keeps (broker : Broker) (start : Kept broker.hub) :
    Kept broker.serveNext.hub := by
  have serving (letter : Letter) (rest : List Letter) : Kept (broker.serving letter rest).hub :=
    stepKeeps broker.hub (.serve letter.request) start
  rcases broker.serveNext_possibilities with
    ⟨idle, _⟩ | ⟨_, _, _, result⟩ | ⟨letter, rest, _, _, ⟨_, result⟩ | ⟨_, result⟩⟩
  · rwa [idle]
  · rw [result]
    exact hub_stop_keeps Kept stepKeeps releaseKeeps broker start
  · rw [result]
    exact serving letter rest
  · rw [result]
    exact hub_stop_keeps Kept stepKeeps releaseKeeps _ (serving letter rest)

/-- What the events of a hub keep, the steps of its broker keep. -/
theorem hub_step_keeps (broker : Broker) (step : BrokerStep) (start : Kept broker.hub) :
    Kept (broker.step step).hub := by
  cases step with
  | submit request =>
      unfold Broker.step
      dsimp only
      split
      · unfold Broker.submit post
        dsimp only
        split
        · exact start
        · exact hub_turnAway_keeps Kept releaseKeeps _ _ start
      · exact start
  | serve => exact hub_serveNext_keeps Kept stepKeeps releaseKeeps broker start
  | forsake => exact start
  | wait span =>
      have elapsed := stepKeeps broker.hub (.elapse (broker.hub.now + span.nanoseconds)) start
      exact (broker.tolled_tick _).hub ▸ elapsed
  | bring outbox capacity => exact stepKeeps broker.hub (.bring outbox capacity) start
  | act outbox act => exact stepKeeps broker.hub (.act outbox act) start

theorem hub_run_keeps (broker : Broker) (steps : List BrokerStep) (start : Kept broker.hub) :
    Kept (broker.run steps).hub :=
  run_keeps (fun broker => Kept broker.hub)
    (fun broker step => hub_step_keeps Kept stepKeeps releaseKeeps broker step) broker steps start

end HubKeeps

/-- A hub that fits together behind a mailbox; once the broker has stopped, nothing is
left of either. -/
structure Sound (broker : Broker) : Prop where
  consistent : broker.hub.Consistent
  below : ∀ letter ∈ broker.mailbox, letter.ticket < broker.nextTicket
  mailbox : broker.running = false → broker.mailbox = []
  connections : broker.running = false → broker.hub.connections = .empty
  rooms : broker.running = false → broker.hub.roster.rooms = .empty
  memberships : broker.running = false → broker.hub.roster.memberships = .empty

namespace Sound

theorem new (settings : Settings) (startedAt : Stamp) : (Broker.new settings startedAt).Sound where
  consistent := .new settings startedAt
  below letter member := by cases member
  mailbox stopped := by cases stopped
  connections stopped := by cases stopped
  rooms stopped := by cases stopped
  memberships stopped := by cases stopped

/-- As long as a broker runs only its hub and its letters matter. -/
theorem of_running {later : Broker} (consistent : later.hub.Consistent)
    (below : ∀ letter ∈ later.mailbox, letter.ticket < later.nextTicket)
    (running : later.running = true) : later.Sound where
  consistent := consistent
  below := below
  mailbox stopped := by rw [running] at stopped; cases stopped
  connections stopped := by rw [running] at stopped; cases stopped
  rooms stopped := by rw [running] at stopped; cases stopped
  memberships stopped := by rw [running] at stopped; cases stopped

/-- A broker that stays as it is, up to what its hub does to outboxes. -/
theorem congr {later : Broker} (sound : broker.Sound) (consistent : later.hub.Consistent)
    (mailbox : later.mailbox = broker.mailbox)
    (nextTicket : broker.nextTicket ≤ later.nextTicket) (running : later.running = broker.running)
    (connections : later.hub.connections = broker.hub.connections)
    (roster : later.hub.roster = broker.hub.roster) : later.Sound where
  consistent := consistent
  below letter member := Nat.lt_of_lt_of_le (sound.below letter (mailbox ▸ member)) nextTicket
  mailbox stopped := mailbox.trans (sound.mailbox (running ▸ stopped))
  connections stopped := connections.trans (sound.connections (running ▸ stopped))
  rooms stopped := (congrArg Roster.rooms roster).trans (sound.rooms (running ▸ stopped))
  memberships stopped :=
    (congrArg Roster.memberships roster).trans (sound.memberships (running ▸ stopped))

/-- A broker that stops leaves neither connections nor rooms nor letters. -/
theorem stop (consistent : broker.hub.Consistent) : broker.stop.Sound := by
  have turned := broker.turnsAway_stop
  obtain ⟨noConnections, noRooms, noMemberships⟩ := consistent.closeAll_eq_empty
  refine ⟨consistent.closeAll.congr turned.settings turned.connections turned.roster, ?_,
    fun _ => turned.mailbox, fun _ => turned.connections.trans noConnections,
    fun _ => ?_, fun _ => ?_⟩
  · rw [turned.mailbox]
    simp
  · rw [turned.roster]
    exact noRooms
  · rw [turned.roster]
    exact noMemberships

theorem serving (sound : broker.Sound) {letter : Letter} {rest : List Letter}
    (running : broker.running = true) (letters : broker.mailbox = letter :: rest) :
    (broker.serving letter rest).Sound :=
  of_running (sound.consistent.serve letter.request)
    (fun other member => sound.below other (letters ▸ List.mem_cons_of_mem _ member)) running

theorem serveNext (sound : broker.Sound) : broker.serveNext.Sound := by
  rcases broker.serveNext_possibilities with
    ⟨idle, _⟩ | ⟨_, _, _, result⟩ | ⟨letter, rest, running, letters, ⟨_, result⟩ | ⟨_, result⟩⟩
  · rwa [idle]
  · rw [result]
    exact .stop sound.consistent
  · rw [result]
    exact sound.serving running letters
  · rw [result]
    exact .stop (sound.serving running letters).consistent

theorem post (sound : broker.Sound) (request : Request) : (broker.post request).2.Sound := by
  cases running : broker.running with
  | true =>
      rw [post_of_running running]
      refine of_running sound.consistent (fun letter member => ?_) running
      rcases List.mem_append.1 member with earlier | last
      · exact Nat.lt_succ_of_lt (sound.below letter earlier)
      · rw [List.mem_singleton.1 last]
        exact Nat.lt_succ_self _
  | false =>
      rw [post_of_stopped running]
      refine sound.congr ?_ rfl (Nat.le_succ _) rfl ?_ ?_ <;> cases request.outbox?
      · exact sound.consistent
      · exact sound.consistent.congr rfl rfl rfl
      all_goals rfl

theorem tick (sound : broker.Sound) (moment : Moment) : (broker.tick moment).Sound := by
  have tolled := broker.tolled_tick moment
  have consistent : (broker.tick moment).hub.Consistent := by
    rw [tolled.hub]
    exact sound.consistent.step (.elapse moment)
  cases running : broker.running with
  | true =>
      refine of_running consistent (fun letter member => ?_) (tolled.running.trans running)
      rcases tolled.letters letter member with earlier | ⟨_, below, _⟩
      · exact Nat.lt_of_lt_of_le (sound.below letter earlier) tolled.nextTicket
      · exact below
  | false =>
      have nothing : (broker.tick moment).mailbox = [] := by
        refine List.eq_nil_iff_forall_not_mem.2 fun letter member => ?_
        rcases tolled.letters letter member with earlier | ⟨running', _⟩
        · rw [sound.mailbox running] at earlier
          cases earlier
        · rw [running] at running'
          cases running'
      exact sound.congr consistent (nothing.trans (sound.mailbox running).symm) tolled.nextTicket
        tolled.running (by rw [tolled.hub]; rfl) (by rw [tolled.hub]; rfl)

/-- Every step keeps a broker sound. -/
theorem step (sound : broker.Sound) (step : BrokerStep) : (broker.step step).Sound := by
  cases step with
  | submit request =>
      unfold Broker.step
      dsimp only
      split
      · exact sound.post request
      · exact sound
  | serve => exact sound.serveNext
  | forsake => exact sound.congr sound.consistent rfl (Nat.le_refl _) rfl rfl rfl
  | wait span => exact sound.tick _
  | bring outbox capacity =>
      have consistent := sound.consistent.step (.bring outbox capacity)
      rcases broker.hub.bring_cases outbox capacity with result | ⟨_, result⟩ <;>
        simp only [Broker.step, result] at consistent ⊢
      · exact sound
      · exact sound.congr consistent rfl (Nat.le_refl _) rfl rfl rfl
  | act outbox act =>
      exact sound.congr (sound.consistent.step (.act outbox act)) rfl (Nat.le_refl _) rfl rfl rfl

theorem run (sound : broker.Sound) (steps : List BrokerStep) : (broker.run steps).Sound :=
  run_keeps Sound (fun _ step sound => sound.step step) broker steps sound

end Sound

end Broker
end Parley
