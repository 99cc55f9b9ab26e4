import Parley.Proofs.Broker.Settle
import Parley.Proofs.Hub.Holders
import Parley.Proofs.Transport.Pace
import Parley.Proofs.Transport.Reading
import Parley.Simulation.ReadTrial

/-!
# Trials of a reader are readings

In a trial a reader takes its items from a script, and a broker answers it at once.  What it
does is what a reading of these items comes to, each with the moment at which the script
yields it and the answer that the broker gives.
-/

namespace Parley

/-! ## Brokers -/

namespace Broker

variable {id : OutboxId}

theorem terms_settle (broker : Broker) : broker.settle.hub.terms = broker.hub.terms :=
  settle_keeps (fun later => later.hub.terms = broker.hub.terms)
    (fun later same => later.terms_serveNext.trans same) broker rfl

theorem terms_ask (broker : Broker) (request : Request) :
    (broker.ask request).2.hub.terms = broker.hub.terms := by
  rw [ask_eq]
  exact (terms_settle _).trans (broker.terms_post request)

/-- Waiting takes the time that it takes. -/
theorem terms_advance (broker : Broker) (target : Moment) :
    (broker.advance target).hub.terms =
      (broker.hub.settings, max broker.hub.now target) := by
  have reached (stops : List Moment) (early : ∀ stop ∈ stops, stop ≤ target) (middle : Broker)
      (start : middle.hub.settings = broker.hub.settings ∧
        max middle.hub.now target = max broker.hub.now target) :
      let last := stops.foldl (fun broker moment => (broker.tick moment).settle) middle
      last.hub.settings = broker.hub.settings ∧
        max last.hub.now target = max broker.hub.now target := by
    induction stops generalizing middle with
    | nil => exact start
    | cons stop rest induction =>
        have terms := (terms_settle (middle.tick stop)).trans (middle.terms_tick stop)
        obtain ⟨settings, now⟩ := Prod.mk.inj terms
        refine induction (fun other member => early other (List.mem_cons_of_mem _ member)) _
          ⟨settings.trans start.1, ?_⟩
        have before := early stop List.mem_cons_self
        rw [now, ← start.2, max_assoc, max_eq_right before]
  have early : ∀ stop ∈ (broker.overdue target).map fun expiry => Moment.roundUp expiry.due,
      stop ≤ target := by
    intro stop member
    obtain ⟨expiry, late, rfl⟩ := List.mem_map.1 member
    exact of_decide_eq_true (mem_overdue_iff.1 late).2
  obtain ⟨settings, now⟩ := reached _ early broker ⟨rfl, rfl⟩
  unfold advance
  rw [terms_tick, settings, now]

theorem contains_release {hub : Hub} (present : hub.outboxes.contains id = true)
    (outbox : OutboxId) : (hub.release outbox).outboxes.contains id = true := by
  obtain ⟨box, found⟩ := Table.contains_eq_true_iff.1 present
  obtain ⟨after, there, -⟩ := (hub.outboxes.extends_release outbox).exists found
  exact Table.contains_of_get?_eq_some there

/-- Outboxes do not vanish. -/
theorem contains_settle {broker : Broker} (present : broker.hub.outboxes.contains id = true) :
    broker.settle.hub.outboxes.contains id = true := by
  apply settle_keeps (fun later => later.hub.outboxes.contains id = true) _ broker present
  intro later present
  apply hub_serveNext_keeps (fun hub => hub.outboxes.contains id = true) _ _ later present
  · intro hub event present
    obtain ⟨box, found⟩ := Table.contains_eq_true_iff.1 present
    obtain ⟨after, there, -⟩ := Hub.get?_step found event
    exact Table.contains_of_get?_eq_some there
  · exact fun hub outbox present => contains_release present outbox

theorem contains_post {broker : Broker} (present : broker.hub.outboxes.contains id = true)
    (request : Request) : (broker.post request).2.hub.outboxes.contains id = true := by
  unfold post
  dsimp only
  split
  · exact present
  · refine hub_turnAway_keeps (fun hub => hub.outboxes.contains id = true) ?_ _ _ (by exact present)
    exact fun hub outbox present => contains_release present outbox

theorem contains_ask {broker : Broker} (present : broker.hub.outboxes.contains id = true)
    (request : Request) : (broker.ask request).2.hub.outboxes.contains id = true := by
  rw [ask_eq]
  exact contains_settle (contains_post present request)

theorem contains_tick {broker : Broker} (present : broker.hub.outboxes.contains id = true)
    (moment : Moment) : (broker.tick moment).hub.outboxes.contains id = true := by
  rw [(broker.tolled_tick moment).hub]
  exact present

theorem contains_advance {broker : Broker} (present : broker.hub.outboxes.contains id = true)
    (target : Moment) : (broker.advance target).hub.outboxes.contains id = true := by
  unfold advance
  apply contains_tick
  generalize (broker.overdue target).map _ = stops
  induction stops generalizing broker with
  | nil => exact present
  | cons stop rest induction => exact induction (contains_settle (contains_tick present stop))

end Broker

/-! ## Benches -/

namespace Bench

/-- There is an outbox under a label. -/
def Keeps (bench : Bench) (label : String) : Prop :=
  ∃ id, bench.boxes.get? label = some id ∧ bench.broker.hub.outboxes.contains id = true

variable {bench : Bench} {label : String}

theorem Keeps.exists_box (keeps : bench.Keeps label) :
    ∃ box, (bench.boxes.get? label).bind bench.broker.hub.outboxes.get? = some box := by
  obtain ⟨id, named, present⟩ := keeps
  obtain ⟨box, found⟩ := Table.contains_eq_true_iff.1 present
  exact ⟨box, by rw [named, Option.bind_some, found]⟩

theorem Keeps.ask (keeps : bench.Keeps label) (request : Request) :
    ((Bench.ask request).run bench).2.Keeps label := by
  obtain ⟨id, named, present⟩ := keeps
  exact ⟨id, named, Broker.contains_ask present request⟩

theorem boxes_modify (bench : Bench) (other : String) (change : Outbox → Outbox) :
    (bench.modify other change).boxes = bench.boxes := by
  unfold Bench.modify
  split <;> rfl

theorem contains_modify (bench : Bench) (other : String) (change : Outbox → Outbox)
    (id : OutboxId) :
    (bench.modify other change).broker.hub.outboxes.contains id =
      bench.broker.hub.outboxes.contains id := by
  unfold Bench.modify
  split
  · simp only [withBoxes, Table.contains, Table.get?_modify]
    split
    · rename_i same
      rw [same, Option.isSome_map]
    · rfl
  · rfl

theorem Keeps.modify (keeps : bench.Keeps label) (other : String) (change : Outbox → Outbox) :
    (bench.modify other change).Keeps label := by
  obtain ⟨id, named, present⟩ := keeps
  exact ⟨id, by rw [boxes_modify, named], by rw [contains_modify, present]⟩

theorem terms_modify (bench : Bench) (other : String) (change : Outbox → Outbox) :
    (bench.modify other change).broker.hub.terms = bench.broker.hub.terms := by
  unfold Bench.modify
  split <;> rfl

/-- An outbox that is put under a label stands there, and those under other labels stay. -/
theorem keeps_keep {id : OutboxId} (present : bench.broker.hub.outboxes.contains id = true)
    {other : String} (earlier : label = other ∨ bench.Keeps label) :
    (bench.keep other id).Keeps label := by
  by_cases same : label = other
  · subst same
    exact ⟨id, Table.get?_set_self _ _ _, (bench.contains_modify label _ id).trans present⟩
  · obtain ⟨old, named, held⟩ := earlier.resolve_left same
    refine ⟨old, ?_, (bench.contains_modify other _ old).trans held⟩
    exact (Table.get?_set_of_ne _ same _).trans ((congrArg (·.get? label)
      (bench.boxes_modify other _)).trans named)

theorem Keeps.openBox (keeps : bench.Keeps label) (box : Outbox) :
    (bench.openBox box).2.Keeps label := by
  obtain ⟨id, named, present⟩ := keeps
  exact ⟨id, named, (Table.contains_set _ _ _ _).2 (.inr present)⟩

/-- A transport that is registered has an outbox under its label. -/
theorem keeps_register (bench : Bench) {other : String} (capacity : Nat) (admission : Admission)
    (earlier : label = other ∨ bench.Keeps label) :
    (bench.register other capacity admission).2.Keeps label := by
  have fresh : (bench.openBox { capacity }).2.broker.hub.outboxes.contains bench.nextOutbox =
      true := (Table.contains_set _ _ _ _).2 (.inl rfl)
  apply keeps_keep (Broker.contains_ask fresh _)
  exact earlier.imp_right fun keeps => (keeps.openBox _).ask _

theorem terms_register (bench : Bench) (other : String) (capacity : Nat) (admission : Admission) :
    (bench.register other capacity admission).2.broker.hub.terms = bench.broker.hub.terms :=
  (terms_modify _ _ _).trans (Broker.terms_ask _ _)

end Bench

/-! ## Trials -/

/-- What arrives in a cue, if something does. -/
def ReadCue.arrival? : ReadCue → Option Arrival
  | .arrive arrival => some arrival
  | _ => none

namespace ReadTrial

/-- A reading is as far as a trial. -/
structure Tracks (settings : Settings) (own : ReadPeer) (reading : Reading) (trial : ReadTrial) :
    Prop where
  same : trial.own = own
  settings : trial.settings = settings
  keeps : trial.bench.Keeps own.label
  reader : reading.reader = trial.reader
  since : reading.now ≤ trial.now
  stage : (∃ due, trial.reader.due? = some due ∧ trial.now ≤ due) ∨
    ∃ outcome, trial.reader = .ended outcome ∧ reading.now = trial.now

variable {settings : Settings} {own : ReadPeer} {reading : Reading} {trial : ReadTrial}

/-- A reader that has just begun to listen has time. -/
theorem exists_due (settings : Settings) (now : Moment) :
    ∃ due, (Reader.listen settings now).due? = some due ∧ now ≤ due := by
  refine ⟨_, rfl, ?_⟩
  exact Nat.le_trans (Nat.le_add_right _ _) (Moment.le_roundUp _)

/-- A reader that has been answered listens again or has ended. -/
theorem next_of_answered (settings : Settings) (sender : ConnectionId) {intake : Intake}
    (answered : intake.answer ≠ none) (done : Moment) :
    intake.next sender settings done = .listen settings done ∨
      ∃ outcome, intake.next sender settings done = .ended outcome := by
  unfold Intake.next
  split
  · exact .inr ⟨_, rfl⟩
  · exact absurd ‹intake.answer = none› answered
  · exact .inl rfl

theorem conclude_eq (trial : ReadTrial) {box : Outbox}
    (found : (trial.bench.boxes.get? trial.own.label).bind trial.bench.broker.hub.outboxes.get? =
      some box) (command : Command) (outcome : Outcome) :
    let concluded := Reader.conclude trial.settings trial.now command outcome box
    trial.conclude command outcome =
      { trial with
        reader := concluded.1
        bench := trial.bench.modify trial.own.label fun _ => concluded.2 } := by
  simp [conclude, found]

/-- What arrives is a turn of the reader, or it asks the broker for something, which answers
at once. -/
theorem arrive_cases (keeps : trial.bench.Keeps trial.own.label) (arrival : Arrival) :
    (∃ reader, Reader.hear trial.settings trial.now trial.own.admission.id arrival =
        .turn reader ∧ trial.arrive arrival = { trial with reader }) ∨
    ∃ command request outcome box bench,
      Reader.hear trial.settings trial.now trial.own.admission.id arrival =
        .ask command request ∧
      bench.Keeps trial.own.label ∧ bench.broker.hub.terms = trial.bench.broker.hub.terms ∧
      trial.arrive arrival =
        { trial with
          reader := (Reader.conclude trial.settings trial.now command outcome box).1
          bench } := by
  unfold arrive
  cases heard : Reader.hear trial.settings trial.now trial.own.admission.id arrival with
  | turn reader => exact .inl ⟨reader, rfl, rfl⟩
  | ask command request =>
      let asked := (Bench.ask request).run trial.bench
      have kept : asked.2.Keeps trial.own.label := keeps.ask request
      have terms : asked.2.broker.hub.terms = trial.bench.broker.hub.terms :=
        Broker.terms_ask _ _
      obtain ⟨settings, now⟩ := Prod.mk.inj terms
      obtain ⟨box, found⟩ := kept.exists_box
      let concluded := Reader.conclude trial.settings trial.now command asked.1 box
      refine .inr ⟨command, request, asked.1, box,
        asked.2.modify trial.own.label fun _ => concluded.2, rfl, kept.modify _ _,
        (Bench.terms_modify _ _ _).trans terms, ?_⟩
      have result := conclude_eq { trial with bench := asked.2 } found command asked.1
      have sameSettings : ReadTrial.settings { trial with bench := asked.2 } = trial.settings :=
        settings
      have sameNow : ReadTrial.now { trial with bench := asked.2 } = trial.now := now
      rw [sameSettings, sameNow] at result
      exact result

/-- An item arrives while the reader listens. -/
theorem Tracks.exists_take (tracks : Tracks settings own reading trial) (arrival : Arrival) :
    ∃ intake : Intake, intake.arrival = arrival ∧ intake.moment = trial.now ∧
      Tracks settings own (reading.take settings own.admission.id intake)
        (trial.arrive arrival) := by
  obtain ⟨rfl, rfl, keeps, -, since, -⟩ := tracks
  -- the item, the broker's answer to it, and what it makes of the reader
  obtain ⟨intake, arrives, moment, answered, reader⟩ : ∃ intake : Intake,
      intake.arrival = arrival ∧ intake.moment = trial.now ∧
      (∃ outcome, intake.answer = some (outcome, 0)) ∧
      (reading.take trial.settings trial.own.admission.id intake).reader =
        (trial.arrive arrival).reader := by
    rcases arrive_cases keeps arrival with ⟨reader, heard, result⟩ |
      ⟨command, request, outcome, box, bench, heard, -, -, result⟩ <;> rw [result]
    · refine ⟨⟨arrival, trial.now, some (.ok .done, 0), id⟩, rfl, rfl, ⟨_, rfl⟩, ?_⟩
      simp [Reading.take, Nat.max_eq_right since, heard]
    · refine ⟨⟨arrival, trial.now, some (outcome, 0), fun _ => box⟩, rfl, rfl, ⟨_, rfl⟩, ?_⟩
      simp [Reading.take, Nat.max_eq_right since, heard]
  have stays : (trial.arrive arrival).own = trial.own ∧
      (trial.arrive arrival).bench.Keeps trial.own.label ∧
      (trial.arrive arrival).bench.broker.hub.terms = trial.bench.broker.hub.terms := by
    rcases arrive_cases keeps arrival with ⟨_, -, result⟩ |
      ⟨_, _, _, _, bench, -, kept, terms, result⟩ <;> rw [result]
    · exact ⟨rfl, keeps, rfl⟩
    · exact ⟨rfl, kept, terms⟩
  obtain ⟨same, kept, terms⟩ := stays
  obtain ⟨sameSettings, sameNow⟩ := Prod.mk.inj terms
  obtain ⟨outcome, answer⟩ := answered
  have done : intake.doneAt trial.own.admission.id reading.now = trial.now := by
    simp [Intake.doneAt, moment, answer, Nat.max_eq_right since]
  have now : (reading.take trial.settings trial.own.admission.id intake).now =
      (trial.arrive arrival).now := by
    rw [Reading.take_eq, done]
    exact sameNow.symm
  refine ⟨intake, arrives, moment, same, sameSettings, kept, reader, Nat.le_of_eq now, ?_⟩
  rw [← reader, now.symm, Reading.take_eq, done]
  have unsilent : intake.answer ≠ none := by simp [answer]
  rcases next_of_answered trial.settings trial.own.admission.id unsilent trial.now with
    next | ⟨ended, next⟩
  · rw [next]
    exact .inl (exists_due _ _)
  · rw [next]
    exact .inr ⟨ended, rfl, rfl⟩

/-- Others send requests. -/
theorem Tracks.submit (tracks : Tracks settings own reading trial) (request : Request) :
    Tracks settings own reading (trial.submit request) := by
  obtain ⟨rfl, rfl, keeps, reader, since, stage⟩ := tracks
  have terms : (trial.submit request).bench.broker.hub.terms = trial.bench.broker.hub.terms :=
    Broker.terms_ask _ _
  obtain ⟨settings, now⟩ := Prod.mk.inj terms
  have sameNow : (trial.submit request).now = trial.now := now
  refine ⟨rfl, settings, keeps.ask request, reader, ?_, ?_⟩ <;> rw [sameNow]
  · exact since
  · exact stage

/-- Time passes, while the reader listens. -/
theorem Tracks.pass (tracks : Tracks settings own reading trial) {due target : Moment}
    (listens : trial.reader.due? = some due) (later : trial.now ≤ target) (early : target ≤ due) :
    Tracks settings own reading (trial.pass target) := by
  obtain ⟨rfl, rfl, keeps, reader, since, -⟩ := tracks
  obtain ⟨settings, now⟩ := Prod.mk.inj (trial.bench.broker.terms_advance target)
  have reached : (trial.pass target).now = target := now.trans (max_eq_right later)
  obtain ⟨id, named, present⟩ := keeps
  refine ⟨rfl, settings, ⟨id, named, Broker.contains_advance present target⟩, reader, ?_,
    .inl ⟨due, listens, ?_⟩⟩ <;> rw [reached]
  · exact Nat.le_trans since later
  · exact early

/-- When nothing comes any more, the reading ends with silence. -/
theorem Tracks.run_nil (tracks : Tracks settings own reading trial) {due : Moment}
    (listens : trial.reader.due? = some due) :
    reading.run settings own.admission.id [] =
      { reading with reader := .ended .idleTimeout, now := due } := by
  rw [← tracks.reader] at listens
  exact Reading.run_of_silent listens (by simp)

/-- Silence ends the reader only when it is due. -/
theorem Tracks.settle (tracks : Tracks settings own reading trial) :
    trial.settle = trial ∨ trial.reader.due? = some trial.now ∧
      trial.settle = { trial with reader := .ended .idleTimeout } := by
  unfold ReadTrial.settle
  rcases tracks.stage with ⟨due, listens, inTime⟩ | ⟨outcome, ended, -⟩
  · by_cases late : due ≤ trial.now
    · obtain rfl := Nat.le_antisymm late inTime
      exact .inr ⟨listens, by simp [listens]⟩
    · exact .inl (by simp [listens, late])
  · exact .inl (by simp [ended, Reader.due?])

/-- A trial whose reader has ended is over. -/
theorem run_of_ended {outcome : ReadEnd} (ended : trial.reader = .ended outcome)
    (script : List ReadCue) (hangs : Bool) : trial.run script hangs = trial := by
  have ended : trial.reader.outcome?.isSome = true := by simp [ended, Reader.outcome?]
  have followed : script.foldl follow trial = trial := by
    induction script with
    | nil => rfl
    | cons cue rest induction => simpa [follow, ended] using induction
  simp [run, followed, ended]

/-- What arrives in a script, up to the end of the socket. -/
def arrivals (script : List ReadCue) (hangs : Bool) : List Arrival :=
  script.filterMap ReadCue.arrival? ++ if hangs then [] else [.ended]

/-- A reader that listens has not ended. -/
theorem outcome?_of_listens {due : Moment} (listens : trial.reader.due? = some due) :
    trial.reader.outcome?.isSome = false := by
  cases stage : trial.reader with
  | listening deadline => rfl
  | asking command ticket => simp [stage, Reader.due?] at listens
  | ended outcome => simp [stage, Reader.due?] at listens

/-- A pause beyond what is due ends the reader when it is due. -/
theorem pause_of_late {due target : Moment} (listens : trial.reader.due? = some due)
    (late : due < target) :
    trial.pause target = { trial.pass due with reader := .ended .idleTimeout } := by
  simp [pause, listens, late]

theorem now_pass {due : Moment} (later : trial.now ≤ due) : (trial.pass due).now = due :=
  (Prod.mk.inj (trial.bench.broker.terms_advance due)).2.trans (max_eq_right later)

/-- A reading of some items comes to what a trial has come to. -/
def Matches (own : ReadPeer) (settings : Settings) (reading : Reading) (items : List Intake)
    (last : ReadTrial) : Prop :=
  (reading.run settings own.admission.id items).reader = last.reader ∧
    (reading.run settings own.admission.id items).now = last.now

/-- Once the reader has ended, nothing is left to be read. -/
theorem Tracks.matches_of_ended (tracks : Tracks settings own reading trial) {outcome : ReadEnd}
    (ended : trial.reader = .ended outcome) : Matches own settings reading [] trial := by
  have deaf : reading.reader.due? = none := by simp [tracks.reader, ended, Reader.due?]
  unfold Matches
  rw [Reading.run_of_deaf deaf]
  refine ⟨tracks.reader, ?_⟩
  rcases tracks.stage with ⟨due, listens, -⟩ | ⟨_, -, moment⟩
  · simp [ended, Reader.due?] at listens
  · exact moment

/-- When nothing comes in time, the reading ends as the trial does. -/
theorem Tracks.matches_of_silent (tracks : Tracks settings own reading trial) {due : Moment}
    (listens : trial.reader.due? = some due) {last : ReadTrial}
    (silent : last.reader = .ended .idleTimeout) (moment : last.now = due) :
    Matches own settings reading [] last := by
  unfold Matches
  rw [tracks.run_nil listens]
  exact ⟨silent.symm, moment.symm⟩

/-- What comes of an item and those behind it. -/
theorem Tracks.matches_cons (tracks : Tracks settings own reading trial) {due : Moment}
    (listens : trial.reader.due? = some due) (inTime : trial.now ≤ due) {intake : Intake}
    (moment : intake.moment = trial.now) {items : List Intake} {last : ReadTrial}
    (rest : Matches own settings (reading.take settings own.admission.id intake) items last) :
    Matches own settings reading (intake :: items) last := by
  unfold Matches
  rw [← tracks.reader] at listens
  rw [← moment] at inTime
  rw [Reading.run_cons_of_inTime listens inTime]
  exact rest

/-- A reader whose silence turns out to be ended has nothing more to read. -/
theorem Tracks.exists_items_of_settle (tracks : Tracks settings own reading trial)
    {script : List ReadCue} {hangs : Bool}
    (goesOn : ∃ items : List Intake, items.map Intake.arrival <+: arrivals script hangs ∧
      Matches own settings reading items (trial.run script hangs)) :
    ∃ items : List Intake, items.map Intake.arrival <+: arrivals script hangs ∧
      Matches own settings reading items (trial.settle.run script hangs) := by
  rcases tracks.settle with same | ⟨listens, ended⟩
  · rw [same]
    exact goesOn
  · rw [ended, run_of_ended rfl]
    exact ⟨[], List.nil_prefix, tracks.matches_of_silent listens rfl rfl⟩

/-- What a trial comes to is what a reading comes to of what arrives in it. -/
theorem Tracks.exists_items (tracks : Tracks settings own reading trial) (script : List ReadCue)
    (hangs : Bool) :
    ∃ items : List Intake, items.map Intake.arrival <+: arrivals script hangs ∧
      Matches own settings reading items (trial.run script hangs) := by
  induction script generalizing reading trial with
  | nil =>
      rcases tracks.stage with ⟨due, listens, inTime⟩ | ⟨outcome, ended, -⟩
      · have goesOn := outcome?_of_listens listens
        cases hangs with
        | true =>
            have result : trial.run [] true =
                { trial.pass due with reader := .ended .idleTimeout } := by
              simpa [run, goesOn, listens] using pause_of_late listens (Nat.lt_succ_self due)
            rw [result]
            exact ⟨[], List.nil_prefix, tracks.matches_of_silent listens rfl (now_pass inTime)⟩
        | false =>
            have result : trial.run [] false = trial.arrive .ended := by simp [run, goesOn]
            obtain ⟨intake, arrives, moment, taken⟩ := tracks.exists_take .ended
            rw [result]
            refine ⟨[intake], by simp [arrivals, arrives], ?_⟩
            exact tracks.matches_cons listens inTime moment (taken.matches_of_ended rfl)
      · rw [run_of_ended ended]
        exact ⟨[], List.nil_prefix, tracks.matches_of_ended ended⟩
  | cons cue rest induction =>
      rcases tracks.stage with ⟨due, listens, inTime⟩ | ⟨outcome, ended, -⟩
      · have goesOn := outcome?_of_listens listens
        have next : trial.run (cue :: rest) hangs = (trial.follow cue).run rest hangs := rfl
        cases cue with
        | arrive arrival =>
            obtain ⟨intake, arrives, moment, taken⟩ := tracks.exists_take arrival
            obtain ⟨items, begins, same⟩ := taken.exists_items_of_settle (induction taken)
            have followed : trial.follow (.arrive arrival) = (trial.arrive arrival).settle := by
              simp [follow, goesOn]
            rw [next, followed]
            refine ⟨intake :: items, ?_, tracks.matches_cons listens inTime moment same⟩
            rw [List.map_cons, arrives]
            exact List.cons_prefix_cons.2 ⟨rfl, begins⟩
        | pause span =>
            have followed : trial.follow (.pause span) =
                trial.pause (trial.now + span.nanoseconds) := by simp [follow, goesOn]
            rw [next, followed]
            by_cases late : due < trial.now + span.nanoseconds
            · rw [pause_of_late listens late, run_of_ended rfl]
              exact ⟨[], List.nil_prefix, tracks.matches_of_silent listens rfl (now_pass inTime)⟩
            · have passed : trial.pause (trial.now + span.nanoseconds) =
                  trial.pass (trial.now + span.nanoseconds) := by simp [pause, listens, late]
              rw [passed]
              exact induction (tracks.pass listens (Nat.le_add_right _ _) (Nat.not_lt.1 late))
        | shutdown =>
            have followed : trial.follow .shutdown = (trial.submit .shutdown).settle := by
              simp [follow, goesOn]
            rw [next, followed]
            have sent := tracks.submit .shutdown
            exact sent.exists_items_of_settle (induction sent)
        | unregister =>
            have followed : trial.follow .unregister =
                (trial.submit (.unregister trial.own.admission.id trial.generation)).settle := by
              simp [follow, goesOn]
            rw [next, followed]
            have sent := tracks.submit (.unregister trial.own.admission.id trial.generation)
            exact sent.exists_items_of_settle (induction sent)
      · rw [run_of_ended ended]
        exact ⟨[], List.nil_prefix, tracks.matches_of_ended ended⟩

/-! ## Whole trials -/

/-- A peer that joins a trial leaves the outbox under a label in place, and takes no time. -/
theorem keeps_addPeer {bench : Bench} {label : String} (keeps : bench.Keeps label)
    (peer : ReadPeer) :
    (addPeer bench peer).Keeps label ∧
      (addPeer bench peer).broker.hub.terms = bench.broker.hub.terms := by
  have joined (rooms : List RoomName) (middle : Bench) (start : middle.Keeps label ∧
      middle.broker.hub.terms = bench.broker.hub.terms) :
      let last := rooms.foldl (fun bench room =>
        ((Bench.ask (.joinRoom peer.admission.id room)).run bench).2) middle
      last.Keeps label ∧ last.broker.hub.terms = bench.broker.hub.terms := by
    induction rooms generalizing middle with
    | nil => exact start
    | cons room rest induction =>
        exact induction _ ⟨start.1.ask _, (Broker.terms_ask _ _).trans start.2⟩
  exact joined peer.rooms _
    ⟨bench.keeps_register peer.capacity peer.admission (.inr keeps), bench.terms_register _ _ _⟩

theorem keeps_addPeers {bench : Bench} {label : String} (keeps : bench.Keeps label)
    (peers : List ReadPeer) :
    (peers.foldl addPeer bench).Keeps label ∧
      (peers.foldl addPeer bench).broker.hub.terms = bench.broker.hub.terms := by
  induction peers generalizing bench with
  | nil => exact ⟨keeps, rfl⟩
  | cons peer rest induction =>
      obtain ⟨kept, terms⟩ := keeps_addPeer keeps peer
      obtain ⟨last, same⟩ := induction kept
      exact ⟨last, same.trans terms⟩

/-- A reader that begins to listen among peers. -/
theorem tracks_of_keeps {bench : Bench} (keeps : bench.Keeps own.label)
    (terms : bench.broker.hub.terms = (settings, 0)) (peers : List ReadPeer)
    (generation : Generation) (box : Outbox) :
    Tracks settings own (Reading.start settings 0 box)
      { bench := peers.foldl addPeer bench, own, generation, reader := .listen settings 0 } := by
  obtain ⟨kept, same⟩ := keeps_addPeers keeps peers
  obtain ⟨sameSettings, now⟩ := Prod.mk.inj (same.trans terms)
  refine ⟨rfl, sameSettings, kept, rfl, Nat.zero_le _, .inl ?_⟩
  obtain ⟨due, listens, early⟩ := exists_due settings 0
  refine ⟨due, listens, ?_⟩
  rw [ReadTrial.now, now]
  exact early

/-- A trial begins with a reader that begins to listen, unless it has no patience at all. -/
theorem exists_start (settings : Settings) (startedAt : Stamp) (own : ReadPeer)
    (registered : Bool) (peers : List ReadPeer) (box : Outbox) :
    ∃ trial, start settings startedAt own registered peers = trial.settle ∧
      Tracks settings own (Reading.start settings 0 box) trial := by
  let fresh := Bench.new settings startedAt
  unfold start
  cases registered with
  | true =>
      have keeps : (fresh.register own.label own.capacity own.admission).2.Keeps own.label :=
        fresh.keeps_register own.capacity own.admission (.inl rfl)
      exact ⟨_, rfl, tracks_of_keeps keeps (fresh.terms_register _ _ _) peers _ box⟩
  | false =>
      have present : (fresh.openBox { capacity := own.capacity }).2.broker.hub.outboxes.contains
          fresh.nextOutbox = true := (Table.contains_set _ _ _ _).2 (.inl rfl)
      have keeps : ((fresh.openBox { capacity := own.capacity }).2.keep own.label
          fresh.nextOutbox).Keeps own.label := Bench.keeps_keep present (.inl rfl)
      exact ⟨_, rfl, tracks_of_keeps keeps (Bench.terms_modify _ _ _) peers _ box⟩

/-- Whatever happens in a trial, its reader ends as a reading does of what arrives, and at
the same moment. -/
theorem run_start_matches (settings : Settings) (startedAt : Stamp) (own : ReadPeer)
    (registered : Bool) (peers : List ReadPeer) (script : List ReadCue) (hangs : Bool)
    (box : Outbox) :
    ∃ items : List Intake, items.map Intake.arrival <+: arrivals script hangs ∧
      Matches own settings (Reading.start settings 0 box) items
        ((start settings startedAt own registered peers).run script hangs) := by
  obtain ⟨trial, started, tracks⟩ := exists_start settings startedAt own registered peers box
  rw [started]
  exact tracks.exists_items_of_settle (tracks.exists_items script hangs)

end ReadTrial
end Parley
