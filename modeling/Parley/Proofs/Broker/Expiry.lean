import Parley.Proofs.Broker.Settle
import Parley.Proofs.Hub.Lost
import Parley.Proofs.Transport.Pace

/-!
# The end of a grace

A connection that lost its transport is kept for the length of the grace.  Its timer is
never early, because nobody else sends the request that ends a grace, and it is not
skipped, because a grace that is over rings as soon as time passes it.  When the
connection was registered again, the timer of the lost transport finds it superseded.
Timers ring at whole milliseconds: the timer of a grace rings at the first one that is not
before its end.
-/

namespace Parley

namespace Broker

variable {broker later : Broker} {id : ConnectionId} {generation : Generation}

/-! ## Steps of a broker that goes on running -/

/-- A broker stays as it is, up to its outboxes and to who can reach it. -/
structure Rests (broker later : Broker) : Prop where
  connections : later.hub.connections = broker.hub.connections
  roster : later.hub.roster = broker.hub.roster
  expiries : later.hub.expiries = broker.hub.expiries
  now : later.hub.now = broker.hub.now
  mailbox : later.mailbox = broker.mailbox
  reachable : later.reachable = true → broker.reachable = true

/-- What a step does to a broker that goes on running. -/
inductive Proceeds (broker : Broker) : BrokerStep → Broker → Prop
  | serve {letter : Letter} {rest : List Letter} (letters : broker.mailbox = letter :: rest)
      (stays : letter.request ≠ .shutdown) : Proceeds broker .serve (broker.serving letter rest)
  | submit (request : Request) :
      Proceeds broker (.submit request)
        { broker with
          mailbox := broker.mailbox ++ [⟨broker.nextTicket, request⟩]
          nextTicket := broker.nextTicket + 1 }
  | wait {span : Span} {later : Broker}
      (tolled : Tolled (broker.overdue (broker.hub.now + span.nanoseconds))
        { broker with hub := broker.hub.step (.elapse (broker.hub.now + span.nanoseconds)) }
        later) : Proceeds broker (.wait span) later
  | rest {step : BrokerStep} {later : Broker} (rests : Rests broker later)
      (nothing : broker.servedBy step = []) : Proceeds broker step later

theorem proceeds_step {step : BrokerStep} (running : (broker.step step).running = true) :
    broker.Proceeds step (broker.step step) := by
  have before := running_of_running_step running
  cases step with
  | submit request =>
      unfold Broker.step
      dsimp only
      split
      · rw [snd_submit, post_of_running before]
        exact .submit request
      · exact .rest ⟨rfl, rfl, rfl, rfl, rfl, fun still => still⟩ rfl
  | serve =>
      rcases serveNext_of_running running with idle | ⟨letter, rest, letters, stays, result⟩
      · obtain ⟨nothing, _⟩ := idle.empty before
        have same : broker.step .serve = broker := idle
        rw [same]
        exact .rest ⟨rfl, rfl, rfl, rfl, rfl, fun still => still⟩ (by simp [servedBy, nothing])
      · have served : broker.step .serve = broker.serving letter rest := result
        rw [served]
        exact .serve letters stays
  | forsake => exact .rest ⟨rfl, rfl, rfl, rfl, rfl, fun still => by cases still⟩ rfl
  | wait span => exact .wait (broker.tolled_tick _)
  | bring outbox capacity =>
      rcases broker.hub.bring_cases outbox capacity with result | ⟨_, result⟩ <;>
        simp only [Broker.step, result]
      · exact .rest ⟨rfl, rfl, rfl, rfl, rfl, fun still => still⟩ rfl
      · exact .rest ⟨rfl, rfl, rfl, rfl, rfl, fun still => still⟩ rfl
  | act outbox act => exact .rest ⟨rfl, rfl, rfl, rfl, rfl, fun still => still⟩ rfl

/-- What the hub serves in a step is its oldest letter. -/
theorem servedBy_serve {letter : Letter} {rest : List Letter} (running : broker.running = true)
    (letters : broker.mailbox = letter :: rest) :
    broker.servedBy .serve = [(letter.request, (broker.hub.serve letter.request).1)] := by
  simp [servedBy, running, letters]

theorem letter_of_mem_servedBy {step : BrokerStep} {entry : Request × Outcome}
    (member : entry ∈ broker.servedBy step) :
    step = .serve ∧ broker.running = true ∧ ∃ letter rest, broker.mailbox = letter :: rest ∧
      entry = (letter.request, (broker.hub.serve letter.request).1) := by
  cases step with
  | serve =>
      cases running : broker.running with
      | false => simp [servedBy, running] at member
      | true =>
          cases letters : broker.mailbox with
          | nil => simp [servedBy, letters] at member
          | cons letter rest =>
              rw [servedBy_serve running letters] at member
              exact ⟨rfl, rfl, letter, rest, rfl, List.mem_singleton.1 member⟩
  | _ => cases member

theorem now_serving (broker : Broker) (letter : Letter) (rest : List Letter) :
    (broker.serving letter rest).hub.now = broker.hub.now :=
  congrArg Prod.snd (broker.hub.terms_serve letter.request)

theorem Proceeds.now_le {step : BrokerStep} (proceeds : broker.Proceeds step later) :
    broker.hub.now ≤ later.hub.now := by
  cases proceeds with
  | serve => exact Nat.le_of_eq (broker.now_serving _ _).symm
  | submit request => exact Nat.le_refl _
  | wait tolled =>
      rw [tolled.hub]
      exact Nat.le_max_left _ _
  | rest rests => exact Nat.le_of_eq rests.now.symm

theorem now_le_of_running {steps : List BrokerStep}
    (running : (broker.run steps).running = true) :
    broker.hub.now ≤ (broker.run steps).hub.now := by
  induction steps generalizing broker with
  | nil => exact Nat.le_refl _
  | cons step rest induction =>
      have proceeds := proceeds_step (running_of_running_run running)
      exact Nat.le_trans proceeds.now_le (induction running)

/-- What a broker that goes on running keeps in a step, it keeps in a run, when the steps and
what the hub serves in them are such as to keep it. -/
theorem keeps_of_running (Kept : Broker → Prop) (Fits : BrokerStep → Prop)
    (Spares : Request × Outcome → Prop)
    (stepKeeps : ∀ {broker step}, Kept broker → Broker.running broker = true →
      Broker.Proceeds broker step (Broker.step broker step) → Fits step →
      (∀ entry ∈ Broker.servedBy broker step, Spares entry) → Kept (Broker.step broker step))
    {steps : List BrokerStep} (start : Kept broker)
    (running : (broker.run steps).running = true) (fits : ∀ step ∈ steps, Fits step)
    (spares : ∀ entry ∈ broker.served steps, Spares entry) : Kept (broker.run steps) := by
  induction steps generalizing broker with
  | nil => exact start
  | cons step rest induction =>
      have still : (broker.step step).running = true := running_of_running_run running
      refine induction ?_ running (fun other member => fits other (List.mem_cons_of_mem _ member))
        fun entry member => spares entry (List.mem_append_right _ member)
      exact stepKeeps start (running_of_running_step still) (proceeds_step still)
        (fits step List.mem_cons_self) fun entry member =>
          spares entry (List.mem_append_left _ member)

/-! ## No timer is late -/

/-- No timer that should have rung is still running. -/
def Punctual (broker : Broker) : Prop :=
  ∀ expiry ∈ broker.hub.expiries, broker.hub.now < Moment.roundUp expiry.due

theorem Punctual.new (settings : Settings) (startedAt : Stamp) :
    (Broker.new settings startedAt).Punctual := nofun

theorem Punctual.proceeds (punctual : broker.Punctual) {step : BrokerStep}
    (proceeds : broker.Proceeds step later) : later.Punctual := by
  cases proceeds with
  | @serve letter rest =>
      intro expiry member
      rw [broker.now_serving]
      rcases broker.hub.expiries_serve letter.request with
        same | ⟨id, generation, _, _, grace, added⟩
      · exact punctual expiry (same ▸ member)
      · simp only [serving, added] at member
        rcases List.mem_append.1 member with earlier | last
        · exact punctual expiry earlier
        · obtain rfl := List.mem_singleton.1 last
          have positive := Nat.pos_of_ne_zero (of_decide_eq_false grace)
          exact Nat.lt_of_lt_of_le (Nat.lt_add_of_pos_right positive) (Moment.le_roundUp _)
  | submit request => exact punctual
  | @wait span _ tolled =>
      have moment : later.hub.now = broker.hub.now + span.nanoseconds := by
        rw [tolled.hub]
        exact Nat.max_eq_right (Nat.le_add_right _ _)
      intro expiry member
      rw [tolled.hub] at member
      obtain ⟨_, runs⟩ := List.mem_filter.1 member
      rw [moment]
      simpa [isOver] using runs
  | rest rests =>
      intro expiry member
      rw [rests.now]
      exact punctual expiry (rests.expiries ▸ member)

theorem Punctual.run (punctual : broker.Punctual) {steps : List BrokerStep}
    (running : (broker.run steps).running = true) : (broker.run steps).Punctual :=
  keeps_of_running Punctual (fun _ => True) (fun _ => True)
    (fun punctual _ proceeds _ _ => punctual.proceeds proceeds) punctual running
    (fun _ _ => trivial) fun _ _ => trivial

/-! ## No timer is early -/

/-- Only the end of one grace of a transport, if it was lost, is ever told. -/
structure Timely (id : ConnectionId) (generation : Generation) (due? : Option Moment)
    (broker : Broker) : Prop where
  pending : ∀ expiry ∈ broker.hub.expiries,
    expiry.id = id → expiry.generation = generation → due? = some expiry.due
  letters : ∀ letter ∈ broker.mailbox, letter.request = .expire id generation →
    ∃ due, due? = some due ∧ Moment.roundUp due ≤ broker.hub.now

variable {due? : Option Moment}

theorem Timely.new (settings : Settings) (startedAt : Stamp) :
    Timely id generation due? (Broker.new settings startedAt) where
  pending expiry member := by cases member
  letters letter member := by cases member

theorem Timely.proceeds (timely : Timely id generation due? broker) {step : BrokerStep}
    (running : broker.running = true) (proceeds : broker.Proceeds step later)
    (timersOnly : step ≠ .submit (.expire id generation))
    (once : ∀ entry ∈ broker.servedBy step, entry.1.detaches id generation = false) :
    Timely id generation due? later := by
  cases proceeds with
  | @serve letter rest letters _ =>
      rw [servedBy_serve running letters] at once
      have other := once _ List.mem_cons_self
      refine ⟨fun expiry member sameId sameGeneration => ?_, fun told member same => ?_⟩
      · rcases broker.hub.expiries_serve letter.request with
          kept | ⟨lostId, given, undelivered, request, _, added⟩
        · exact timely.pending expiry (kept ▸ member) sameId sameGeneration
        · simp only [serving, added] at member
          rcases List.mem_append.1 member with earlier | last
          · exact timely.pending expiry earlier sameId sameGeneration
          · obtain rfl := List.mem_singleton.1 last
            rw [request] at other
            simp only [Request.detaches, Bool.and_eq_false_iff, decide_eq_false_iff_not] at other
            rcases other with another | newer
            · exact absurd sameId another
            · exact absurd sameGeneration newer
      · rw [broker.now_serving]
        exact timely.letters told (letters ▸ List.mem_cons_of_mem _ member) same
  | submit request =>
      refine ⟨timely.pending, fun told member same => ?_⟩
      rcases List.mem_append.1 member with earlier | last
      · exact timely.letters told earlier same
      · obtain rfl := List.mem_singleton.1 last
        exact absurd (congrArg BrokerStep.submit same) timersOnly
  | wait tolled =>
      refine ⟨fun expiry member => ?_, fun told member same => ?_⟩
      · rw [tolled.hub] at member
        exact timely.pending expiry (List.mem_filter.1 member).1
      · rw [tolled.hub]
        rcases tolled.letters told member with earlier | ⟨_, _, expiry, rang, request⟩
        · obtain ⟨due, known, reached⟩ := timely.letters told earlier same
          exact ⟨due, known, Nat.le_trans reached (Nat.le_max_left _ _)⟩
        · obtain ⟨began, ripe⟩ := mem_overdue_iff.1 rang
          obtain ⟨sameId, sameGeneration⟩ := Request.expire.inj (request.symm.trans same)
          refine ⟨expiry.due, timely.pending expiry began sameId sameGeneration, ?_⟩
          exact Nat.le_trans (of_decide_eq_true ripe) (Nat.le_max_right _ _)
  | rest rests =>
      refine ⟨fun expiry member => ?_, fun told member same => ?_⟩
      · exact timely.pending expiry (rests.expiries ▸ member)
      · rw [rests.now]
        exact timely.letters told (rests.mailbox ▸ member) same

/-! ## No timer is skipped -/

/-- The end of a grace is still to come, waits to be served, or has nobody to tell it. -/
def Pends (id : ConnectionId) (generation : Generation) (due : Moment) (broker : Broker) : Prop :=
  ⟨due, id, generation⟩ ∈ broker.hub.expiries ∨
    (∃ letter ∈ broker.mailbox, letter.request = .expire id generation) ∨
    broker.reachable = false

variable {due : Moment}

theorem Pends.proceeds (pends : Pends id generation due broker) {step : BrokerStep}
    (running : broker.running = true) (proceeds : broker.Proceeds step later)
    (unserved : ∀ entry ∈ broker.servedBy step, entry.1 ≠ .expire id generation) :
    Pends id generation due later := by
  cases proceeds with
  | @serve letter rest letters _ =>
      rw [servedBy_serve running letters] at unserved
      rcases pends with pending | ⟨told, member, same⟩ | unreachable
      · refine .inl ?_
        rcases broker.hub.expiries_serve letter.request with kept | ⟨_, _, _, _, _, added⟩
        · exact kept ▸ pending
        · simp only [serving, added]
          exact List.mem_append_left _ pending
      · refine .inr (.inl ⟨told, ?_, same⟩)
        rw [letters] at member
        refine (List.mem_cons.1 member).resolve_left ?_
        rintro rfl
        exact unserved _ List.mem_cons_self same
      · exact .inr (.inr unreachable)
  | submit request =>
      refine pends.imp_right (.imp_left ?_)
      rintro ⟨told, member, same⟩
      exact ⟨told, List.mem_append_left _ member, same⟩
  | @wait span _ tolled =>
      rcases pends with pending | ⟨told, member, same⟩ | unreachable
      · cases reachable : broker.reachable with
        | false => exact .inr (.inr (tolled.reachable.trans reachable))
        | true =>
            by_cases ripe : isOver (broker.hub.now + span.nanoseconds)
                ⟨due, id, generation⟩ = true
            · exact .inr (.inl (tolled.rung running reachable _
                (mem_overdue_iff.2 ⟨pending, ripe⟩)))
            · refine .inl ?_
              rw [tolled.hub]
              exact List.mem_filter.2 ⟨pending, by simp [ripe]⟩
      · exact .inr (.inl ⟨told, tolled.front.subset member, same⟩)
      · exact .inr (.inr (tolled.reachable.trans unreachable))
  | rest rests =>
      rcases pends with pending | ⟨told, member, same⟩ | unreachable
      · exact .inl (rests.expiries ▸ pending)
      · exact .inr (.inl ⟨told, rests.mailbox ▸ member, same⟩)
      · refine .inr (.inr ?_)
        cases still : later.reachable with
        | false => rfl
        | true => exact absurd (rests.reachable still) (by simp [unreachable])

/-! ## After the loss of a transport -/

variable {since : Stamp}

theorem Proceeds.lost {step : BrokerStep} (proceeds : broker.Proceeds step later)
    (running : broker.running = true) (lost : broker.hub.Lost id generation since)
    (goes : ∀ entry ∈ broker.servedBy step, ¬Hub.Ends id generation entry.1) :
    later.hub.Lost id generation since := by
  cases proceeds with
  | serve letters _ =>
      rw [servedBy_serve running letters] at goes
      exact lost.serve (goes _ List.mem_cons_self)
  | submit request => exact lost
  | wait tolled => exact tolled.hub ▸ lost
  | rest rests _ => exact lost.congr (by rw [rests.connections])

theorem Proceeds.mem_members {step : BrokerStep} (proceeds : broker.Proceeds step later)
    (running : broker.running = true) (lost : broker.hub.Lost id generation since)
    (consistent : broker.hub.Consistent)
    (goes : ∀ entry ∈ broker.servedBy step, ¬Hub.Ends id generation entry.1)
    {room : RoomName} {member : Bool}
    (before : id ∈ broker.hub.roster.members room ↔ member = true) :
    id ∈ later.hub.roster.members room ↔
      memberAfter id room member (broker.servedBy step) = true := by
  cases proceeds with
  | serve letters _ =>
      rw [servedBy_serve running letters] at goes ⊢
      exact lost.mem_members_serve consistent (goes _ List.mem_cons_self) before
  | submit request => exact before
  | wait tolled => exact tolled.hub ▸ before
  | rest rests nothing =>
      rw [nothing, rests.roster]
      exact before

/-- Before its timer rings nothing that the hub serves ends the wait of a lost connection,
as long as its peer neither comes back nor leaves. -/
theorem Proceeds.not_ends {step : BrokerStep} (proceeds : broker.Proceeds step later)
    (running : broker.running = true) (lost : broker.hub.Lost id generation since)
    (timely : Timely id generation (some due) broker)
    (early : broker.hub.now < Moment.roundUp due)
    (spares : ∀ entry ∈ broker.servedBy step, renews id entry = false ∧
      entry.1.unregisters id generation = false ∧ entry.1.detaches id generation = false) :
    ∀ entry ∈ broker.servedBy step, ¬Hub.Ends id generation entry.1 := by
  cases proceeds with
  | @serve letter rest letters stays =>
      rw [servedBy_serve running letters] at spares ⊢
      obtain ⟨apart, remains, once⟩ := spares _ List.mem_cons_self
      have unripe : letter.request ≠ .expire id generation := by
        intro same
        obtain ⟨ending, known, reached⟩ :=
          timely.letters letter (letters ▸ List.mem_cons_self) same
        obtain rfl := Option.some.inj known
        exact Nat.not_le_of_lt early reached
      exact List.forall_mem_singleton.2 (lost.not_ends apart remains once unripe stays)
  | submit request => exact fun entry member => by cases member
  | wait tolled => exact fun entry member => by cases member
  | rest rests nothing => exact fun entry member => by rw [nothing] at member; cases member

/-- Before its timer rings a lost connection waits, in the rooms that its own requests leave
it in. -/
theorem lost_run (lost : broker.hub.Lost id generation since) (sound : broker.Sound)
    (timely : Timely id generation (some due) broker) {steps : List BrokerStep}
    (running : (broker.run steps).running = true)
    (early : (broker.run steps).hub.now < Moment.roundUp due)
    (timersOnly : ∀ step ∈ steps, step ≠ .submit (.expire id generation))
    (spares : ∀ entry ∈ broker.served steps, renews id entry = false ∧
      entry.1.unregisters id generation = false ∧ entry.1.detaches id generation = false) :
    (broker.run steps).hub.Lost id generation since ∧ ∀ room member,
      (id ∈ broker.hub.roster.members room ↔ member = true) →
      (id ∈ (broker.run steps).hub.roster.members room ↔
        memberAfter id room member (broker.served steps) = true) := by
  induction steps generalizing broker with
  | nil => exact ⟨lost, fun _ _ before => before⟩
  | cons step rest induction =>
      have still : (broker.step step).running = true := running_of_running_run running
      have before := running_of_running_step still
      have proceeds := proceeds_step still
      have spared (entry : Request × Outcome) (member : entry ∈ broker.servedBy step) :=
        spares entry (List.mem_append_left _ member)
      have unripe : broker.hub.now < Moment.roundUp due :=
        Nat.lt_of_le_of_lt (Nat.le_trans proceeds.now_le (now_le_of_running running)) early
      have goes := proceeds.not_ends before lost timely unripe spared
      obtain ⟨waitsOn, roomsOn⟩ := induction (proceeds.lost before lost goes) (sound.step step)
        (timely.proceeds before proceeds (timersOnly step List.mem_cons_self) fun entry member =>
          (spared entry member).2.2)
        running early (fun other member => timersOnly other (List.mem_cons_of_mem _ member))
        fun entry member => spares entry (List.mem_append_right _ member)
      refine ⟨waitsOn, fun room member start => ?_⟩
      have moved := roomsOn room _
        (proceeds.mem_members before lost sound.consistent goes start)
      simpa only [memberAfter, served, run_cons, List.foldl_append] using moved

/-- A connection that was lost waits for the end of its grace, or is gone. -/
def Adrift (id : ConnectionId) (generation : Generation) (since : Stamp) (due : Moment)
    (broker : Broker) : Prop :=
  broker.hub.connections.get? id = none ∨
    broker.hub.Lost id generation since ∧ Pends id generation due broker

theorem Adrift.proceeds (adrift : Adrift id generation since due broker) {step : BrokerStep}
    (running : broker.running = true) (proceeds : broker.Proceeds step later)
    (spares : ∀ entry ∈ broker.servedBy step, renews id entry = false ∧
      entry.1.detaches id generation = false) : Adrift id generation since due later := by
  rcases adrift with gone | ⟨lost, pends⟩
  · refine .inl ?_
    cases proceeds with
    | @serve letter rest letters _ =>
        rw [servedBy_serve running letters] at spares
        exact Hub.get?_serve_of_gone gone (spares _ List.mem_cons_self).1
    | submit request => exact gone
    | wait tolled => exact tolled.hub ▸ gone
    | rest rests => exact rests.connections ▸ gone
  · by_cases goes : ∀ entry ∈ broker.servedBy step, ¬Hub.Ends id generation entry.1
    · refine .inr ⟨proceeds.lost running lost goes, pends.proceeds running proceeds ?_⟩
      exact fun entry member ripe => goes entry member (.inr (.inr (.inr (.inl ripe))))
    · refine .inl ?_
      cases proceeds with
      | @serve letter rest letters _ =>
          rw [servedBy_serve running letters] at goes spares
          obtain ⟨apart, once⟩ := spares _ List.mem_cons_self
          refine lost.get?_serve_of_ends (Classical.byContradiction fun waits => ?_) apart once
          exact goes (List.forall_mem_singleton.2 waits)
      | submit request => exact absurd (fun entry member => by cases member) goes
      | wait tolled => exact absurd (fun entry member => by cases member) goes
      | rest rests nothing =>
          refine absurd (fun entry member => ?_) goes
          rw [nothing] at member
          cases member

/-- When the broker has nothing more to do, no grace whose timer has rung keeps a
connection. -/
theorem Adrift.get?_run (adrift : Adrift id generation since due broker) (sound : broker.Sound)
    (punctual : broker.Punctual) {steps : List BrokerStep}
    (spares : ∀ entry ∈ broker.served steps, renews id entry = false ∧
      entry.1.detaches id generation = false)
    (idle : (broker.run steps).Idle)
    (reached : Moment.roundUp due ≤ (broker.run steps).hub.now) :
    (broker.run steps).hub.connections.get? id = none := by
  cases running : (broker.run steps).running with
  | false =>
      rw [(sound.run steps).connections running]
      rfl
  | true =>
      have adriftLater : Adrift id generation since due (broker.run steps) :=
        keeps_of_running (Adrift id generation since due) (fun _ => True)
          (fun entry => renews id entry = false ∧ entry.1.detaches id generation = false)
          (fun adrift running proceeds _ => adrift.proceeds running proceeds) adrift running
          (fun _ _ => trivial) spares
      obtain ⟨nothing, reachable⟩ := idle.empty running
      refine adriftLater.resolve_right ?_
      rintro ⟨_, pending | ⟨letter, member, _⟩ | unreachable⟩
      · exact Nat.not_le_of_lt (punctual.run running _ pending) reached
      · rw [nothing] at member
        cases member
      · rw [reachable] at unreachable
        cases unreachable

/-- Nobody but one connection is in a room. -/
def Alone (id : ConnectionId) (room : RoomName) (broker : Broker) : Prop :=
  ∀ other ∈ broker.hub.roster.members room, other = id

variable {room : RoomName}

theorem Alone.proceeds (alone : Alone id room broker) {step : BrokerStep}
    (running : broker.running = true) (consistent : broker.hub.Consistent)
    (proceeds : broker.Proceeds step later)
    (joins : ∀ entry ∈ broker.servedBy step, ∀ other,
      entry = (.joinRoom other room, .ok .done) → other = id) : Alone id room later := by
  cases proceeds with
  | serve letters _ =>
      rw [servedBy_serve running letters] at joins
      intro other member
      rcases consistent.mem_members_of_serve member with earlier | ⟨request, answer⟩
      · exact alone other earlier
      · exact joins _ List.mem_cons_self other (Prod.ext request answer)
  | submit request => exact alone
  | wait tolled =>
      unfold Alone
      rw [tolled.hub]
      exact alone
  | rest rests _ =>
      unfold Alone
      rw [rests.roster]
      exact alone

/-- A room in which a connection was alone is gone with it, unless others have joined it. -/
theorem Alone.containsRoom_run (alone : Alone id room broker) (sound : broker.Sound)
    {steps : List BrokerStep}
    (joins : ∀ other, (.joinRoom other room, .ok .done) ∈ broker.served steps → other = id)
    (left : id ∉ (broker.run steps).hub.roster.members room) :
    (broker.run steps).hub.roster.containsRoom room = false := by
  have soundLater : (broker.run steps).Sound := sound.run steps
  have nobody : (broker.run steps).hub.roster.members room = [] := by
    refine List.eq_nil_iff_forall_not_mem.2 fun other member => ?_
    cases running : (broker.run steps).running with
    | false => simp [Roster.members, Index.group, soundLater.rooms running] at member
    | true =>
        obtain ⟨_, aloneLater⟩ := keeps_of_running
          (fun broker => broker.Sound ∧ Alone id room broker) (fun _ => True)
          (fun entry => ∀ other, entry = (.joinRoom other room, .ok .done) → other = id)
          (fun both running proceeds _ joins =>
            ⟨both.1.step _, both.2.proceeds running both.1.consistent proceeds joins⟩)
          ⟨sound, alone⟩ running (fun _ _ => trivial)
          fun entry served other same => joins other (same ▸ served)
        exact left (aloneLater other member ▸ member)
  have absent := soundLater.consistent.roster.rooms_full.get?_eq_none_iff.2 nobody
  simp [Roster.containsRoom, Table.contains, absent]

/-! ## After another registration -/

theorem outdated_step (outdated : broker.hub.Outdated id generation) (step : BrokerStep) :
    (broker.step step).hub.Outdated id generation :=
  hub_step_keeps (fun hub => hub.Outdated id generation) (fun _ event outdated =>
    outdated.step event) (fun hub outbox outdated => outdated.inherit
      (hub.inheritsFrom_release outbox)) broker step outdated

theorem given_step (given : generation ≤ broker.hub.lastGeneration) (step : BrokerStep) :
    generation ≤ (broker.step step).hub.lastGeneration :=
  hub_step_keeps (fun hub => generation ≤ hub.lastGeneration) (fun hub event given =>
    Nat.le_trans given (hub.lastGeneration_le_step event)) (fun _ _ given => given) broker step
    given

/-- Another registration of a connection outdates the transport that was lost. -/
theorem outdated_of_renews (given : generation ≤ broker.hub.lastGeneration) {step : BrokerStep}
    {entry : Request × Outcome} (member : entry ∈ broker.servedBy step)
    (again : renews id entry = true) : (broker.step step).hub.Outdated id generation := by
  obtain ⟨rfl, running, letter, rest, letters, rfl⟩ := letter_of_mem_servedBy member
  cases registration : letter.request with
  | register other name outbox =>
      rw [registration] at again
      have served : (broker.step .serve).hub = (broker.hub.register other name outbox).2 := by
        unfold Broker.step
        dsimp only
        rw [serveNext_of_letter running letters, registration, if_neg nofun]
        simp only [serving, registration, Hub.serve]
      rw [served]
      cases registered : (broker.hub.register other name outbox).1 with
      | error refusal => simp [renews, Hub.serve, registered] at again
      | ok answer =>
          have same : other = id := by simpa [renews, Hub.serve, registered] using again
          rw [same] at registered ⊢
          exact Hub.outdated_register given registered
  | _ =>
      rw [registration] at again
      cases again

theorem outdated_run (given : generation ≤ broker.hub.lastGeneration) {steps : List BrokerStep}
    (again : ∃ entry ∈ broker.served steps, renews id entry = true) :
    (broker.run steps).hub.Outdated id generation := by
  obtain ⟨entry, member, renewed⟩ := again
  induction steps generalizing broker with
  | nil => cases member
  | cons step rest induction =>
      rcases List.mem_append.1 member with now | later
      · exact run_keeps (fun broker => broker.hub.Outdated id generation)
          (fun _ step outdated => outdated_step outdated step) _ rest
          (outdated_of_renews given now renewed)
      · exact induction (given_step given step) later

/-! ## Timers -/

theorem settings_run (broker : Broker) (steps : List BrokerStep) :
    (broker.run steps).hub.settings = broker.hub.settings :=
  hub_run_keeps (fun hub => hub.settings = broker.hub.settings)
    (fun hub event same => (hub.settings_step event).trans same) (fun _ _ same => same)
    broker steps rfl

/-- The generation of an entry has been given out. -/
theorem given_of_current {settings : Settings} {startedAt : Stamp} {steps : List BrokerStep}
    (current : ((Broker.new settings startedAt).run steps).hub.Current id generation) :
    generation ≤ ((Broker.new settings startedAt).run steps).hub.lastGeneration := by
  obtain ⟨grants, granted⟩ := hub_run_keeps (fun hub => ∃ grants, Hub.Granted grants hub)
    (fun _ event ⟨_, granted⟩ => ⟨_, granted.step event⟩)
    (fun hub outbox ⟨_, granted⟩ => ⟨_, granted.inherit (hub.inheritsFrom_release outbox)⟩)
    (Broker.new settings startedAt) steps ⟨[], .new settings startedAt⟩
  obtain ⟨connection, present, rfl⟩ := current
  exact granted.le present

/-- The loss of its latest transport leaves a connection waiting, with a timer of its own. -/
theorem lost_serve {letter : Letter} {rest : List Letter} {undelivered : List Payload}
    (running : broker.running = true) (letters : broker.mailbox = letter :: rest)
    (loss : letter.request = .detach id generation undelivered)
    (current : broker.hub.Current id generation)
    (grace : broker.hub.settings.reconnectGrace.isZero = false)
    (untold : Timely id generation none broker) :
    let detached := broker.step .serve
    let due := broker.hub.now + broker.hub.settings.reconnectGrace.nanoseconds
    detached.running = true ∧ detached.hub.Lost id generation broker.hub.stamp ∧
      detached.hub.roster = broker.hub.roster ∧
      Timely id generation (some due) detached ∧ Pends id generation due detached := by
  intro detached due
  have served : detached = broker.serving letter rest := by
    have next := serveNext_of_letter running letters
    rwa [loss, if_neg nofun] at next
  have hub : detached.hub = broker.hub.detach id generation undelivered := by
    rw [served]
    simp only [serving, loss, Hub.serve]
  obtain ⟨connection, carries, link, connections, roster, now, expiries⟩ :=
    Hub.detach_begins_grace current grace undelivered
  rw [← hub] at connections roster now expiries
  refine ⟨served ▸ running, ⟨connection, ?_, carries, link⟩, roster, ⟨?_, ?_⟩, .inl ?_⟩
  · rw [connections, Table.get?_set_self]
  · intro expiry member sameId sameGeneration
    rw [expiries] at member
    rcases List.mem_append.1 member with earlier | last
    · cases untold.pending expiry earlier sameId sameGeneration
    · rw [List.mem_singleton.1 last]
  · intro told member same
    have waited : told ∈ broker.mailbox := by
      rw [served] at member
      exact letters ▸ List.mem_cons_of_mem _ member
    obtain ⟨_, known, _⟩ := untold.letters told waited same
    cases known
  · rw [expiries]
    exact List.mem_append_right _ List.mem_cons_self

/-- A grace ends once and on time.  In a run in which only timers tell the ends of graces,
the hub serves the loss of the latest transport of a connection, and serves no other loss
of it.  The timer of the grace rings at the first whole millisecond that is not before the
end of the grace.  (1) Before that, the connection waits, detached, in the rooms that its own
requests leave it in, unless it is registered again, its peer leaves, or the broker stops.
(2) When it was not registered again, then from that moment on, so at every whole millisecond
from the end of the grace on, once the broker has nothing more to do, the connection is gone
from the table and from every room, and so is a room in which it was alone at any time since,
unless others have joined it.  (3) When it was registered again, the end of that grace never changes anything, however
often the connection is lost later. -/
theorem grace_ends_once_and_on_time (settings : Settings) (startedAt : Stamp)
    (before after : List BrokerStep) (id : ConnectionId) (generation : Generation)
    (undelivered : List Payload) (letter : Letter) :
    let start := Broker.new settings startedAt
    let lost := start.run before
    let detached := lost.step .serve
    let later := detached.run after
    let log := detached.served after
    let due := lost.hub.now + settings.reconnectGrace.nanoseconds
    settings.reconnectGrace.isZero = false →
    (∀ step ∈ before ++ after, step ≠ .submit (.expire id generation)) →
    (∀ entry ∈ start.served before ++ log, entry.1.detaches id generation = false) →
    lost.running = true → lost.mailbox.head? = some letter →
    letter.request = .detach id generation undelivered → lost.hub.Current id generation →
    ((∀ entry ∈ log, renews id entry = false ∧ entry.1.unregisters id generation = false) →
        later.running = true → later.hub.now < Moment.roundUp due →
        later.hub.Lost id generation lost.hub.stamp ∧
          ∀ room, id ∈ later.hub.roster.members room ↔
            memberAfter id room (decide (id ∈ lost.hub.roster.members room)) log = true) ∧
      ((∀ entry ∈ log, renews id entry = false) → later.Idle →
          (Moment.roundUp due ≤ later.hub.now ∨
            due ≤ later.hub.now ∧ Span.millisecond ∣ later.hub.now) →
        later.hub.connections.get? id = none ∧
          (∀ room, id ∉ later.hub.roster.members room) ∧
          ∀ first second room, after = first ++ second →
            (∀ other ∈ (detached.run first).hub.roster.members room, other = id) →
            (∀ other, (.joinRoom other room, .ok .done) ∈ (detached.run first).served second →
              other = id) →
            later.hub.roster.containsRoom room = false) ∧
      ((∃ entry ∈ log, renews id entry = true) →
        (later.hub.serve (.expire id generation)).2 = later.hub) := by
  intro start lost detached later log due grace timersOnly once running head loss current
  obtain ⟨rest, letters⟩ := List.head?_eq_some_iff.1 head
  have soundLost : lost.Sound := (Sound.new settings startedAt).run before
  have sameSettings : lost.hub.settings = settings := settings_run start before
  have untold : Timely id generation none lost := by
    refine keeps_of_running (Timely id generation none) (· ≠ .submit (.expire id generation))
      (fun entry => entry.1.detaches id generation = false)
      (fun timely running proceeds => timely.proceeds running proceeds)
      (.new settings startedAt) running
      (fun step member => timersOnly step (List.mem_append_left _ member)) fun entry member =>
        once entry (List.mem_append_left _ member)
  obtain ⟨goesOn, waits, roster, timely, pends⟩ :=
    lost_serve running letters loss current (sameSettings.symm ▸ grace) untold
  rw [sameSettings] at timely pends
  have sound : detached.Sound := soundLost.step .serve
  have onceLater (entry : Request × Outcome) (member : entry ∈ log) :
      entry.1.detaches id generation = false := once entry (List.mem_append_right _ member)
  refine ⟨fun spares still early => ?_, fun apart idle reached => ?_, fun again => ?_⟩
  · obtain ⟨waitsOn, rooms⟩ := lost_run waits sound timely still early
      (fun step member => timersOnly step (List.mem_append_right _ member)) fun entry member =>
        ⟨(spares entry member).1, (spares entry member).2, onceLater entry member⟩
    refine ⟨waitsOn, fun room => rooms room _ ?_⟩
    rw [roster]
    exact decide_eq_true_iff.symm
  · have punctual : detached.Punctual :=
      ((Punctual.new settings startedAt).run running).proceeds (proceeds_step goesOn)
    have adrift : Adrift id generation lost.hub.stamp due detached := .inr ⟨waits, pends⟩
    have rung : Moment.roundUp due ≤ later.hub.now :=
      reached.elim (fun rung => rung) fun ⟨ended, whole⟩ => Moment.roundUp_le whole ended
    have gone : later.hub.connections.get? id = none :=
      adrift.get?_run sound punctual
        (fun entry member => ⟨apart entry member, onceLater entry member⟩) idle rung
    have nowhere (room : RoomName) : id ∉ later.hub.roster.members room := by
      intro member
      have known : later.hub.connections.contains id = true :=
        (sound.run after).consistent.known id room member
      simp [Table.contains, gone] at known
    refine ⟨gone, nowhere, fun first second room split alone joins => ?_⟩
    have onward : later = (detached.run first).run second := by rw [← run_append, ← split]
    have left := nowhere room
    rw [onward] at left ⊢
    exact Alone.containsRoom_run alone (sound.run first) joins left
  · exact Hub.expire_of_not_current
      (outdated_run (given_step (given_of_current current) .serve) again).superseded

/-- Alice is in the lobby when she loses her transport.  A nanosecond before the end of her
grace she is still there; at its end she is gone, and the lobby with her; and when she has
been registered again, the end of her grace changes nothing. -/
theorem grace_ends_for_alice :
    let alice : ConnectionId := ⟨"alice", by decide⟩
    let lobby : RoomName := ⟨"lobby", by decide⟩
    let before : List BrokerStep := [.bring 0 8, .submit (.register alice .default 0), .serve,
      .submit (.joinRoom alice lobby), .serve, .submit (.detach alice 1 [])]
    let detached := ((Broker.new {} 0).run before).step .serve
    let again : List BrokerStep := [.bring 1 8, .submit (.register alice .default 1), .serve]
    let short : Span := ⟨29999999999⟩
    let grace : Span := .ofSeconds 30
    (detached.run [.wait short]).hub.Lost alice 1 0 ∧
      alice ∈ (detached.run [.wait short]).hub.roster.members lobby ∧
      (detached.run [.wait grace, .serve]).hub.connections.get? alice = none ∧
      (detached.run [.wait grace, .serve]).hub.roster.containsRoom lobby = false ∧
      ((detached.run again).hub.serve (.expire alice 1)).2 = (detached.run again).hub := by
  intro alice lobby before detached again short grace
  have running : ((Broker.new {} 0).run before).running = true := by decide +kernel
  have head : ((Broker.new {} 0).run before).mailbox.head? = some ⟨2, .detach alice 1 []⟩ := by
    decide +kernel
  have current : ((Broker.new {} 0).run before).hub.Current alice 1 :=
    ⟨_, (Option.some_get (by decide +kernel)).symm, by decide +kernel⟩
  have idle : (detached.run [.wait grace, .serve]).Idle :=
    idle_of_empty (by decide +kernel) (by decide +kernel)
  obtain ⟨waits, _, _⟩ := grace_ends_once_and_on_time {} 0 before [.wait short] alice 1 [] _
    rfl (by decide +kernel) (by decide +kernel) running head rfl current
  obtain ⟨_, ends, _⟩ := grace_ends_once_and_on_time {} 0 before [.wait grace, .serve] alice 1 [] _
    rfl (by decide +kernel) (by decide +kernel) running head rfl current
  obtain ⟨_, _, void⟩ := grace_ends_once_and_on_time {} 0 before again alice 1 [] _
    rfl (by decide +kernel) (by decide +kernel) running head rfl current
  obtain ⟨lost, rooms⟩ := waits (by decide +kernel) (by decide +kernel) (by decide +kernel)
  obtain ⟨gone, _, emptied⟩ := ends (by decide +kernel) idle (.inl (by decide +kernel))
  have stamp : ((Broker.new {} 0).run before).hub.stamp = 0 := by decide +kernel
  have served : (detached.served [.wait grace, .serve]).map Prod.fst = [.expire alice 1] := by
    decide +kernel
  have joins (other : ConnectionId)
      (member : (.joinRoom other lobby, .ok .done) ∈ detached.served [.wait grace, .serve]) :
      other = alice := by
    have request := List.mem_map_of_mem (f := Prod.fst) member
    simp [served] at request
  rw [stamp] at lost
  exact ⟨lost, (rooms lobby).2 (by decide +kernel), gone,
    emptied [] [.wait grace, .serve] lobby rfl (by decide +kernel) joins,
    void (by decide +kernel)⟩

end Broker
end Parley
