import Parley.Proofs.Hub.FanOut
import Parley.Proofs.Hub.Lost

/-!
# Staying in the table

A connection stays in the table from the registration that enters it to the event that
removes it, however often its transport changes in between.  Meanwhile it keeps the time
of that registration, it is renamed by its own registrations only, and it gets into rooms
and out of them by its own requests only.
-/

namespace Parley

/-- Whether a request moves a connection between rooms. -/
def Request.moves (id : ConnectionId) : Request → Bool
  | .joinRoom other _ | .leaveRoom other _ => other = id
  | _ => false

theorem memberAfter_of_unmoved {id : ConnectionId} {log : List (Request × Outcome)}
    (unmoved : ∀ entry ∈ log, entry.1.moves id = false) (room : RoomName) (member : Bool) :
    memberAfter id room member log = member := by
  unfold memberAfter
  induction log with
  | nil => rfl
  | cons entry rest induction =>
      have stays : moved id room member entry = member := by
        have still := unmoved entry List.mem_cons_self
        obtain ⟨request, outcome⟩ := entry
        cases request with
        | joinRoom other place =>
            have different : other ≠ id := of_decide_eq_false still
            cases outcome <;> simp [moved, different]
        | leaveRoom other place =>
            have different : other ≠ id := of_decide_eq_false still
            cases outcome <;> simp [moved, different]
        | _ => rfl
      rw [List.foldl_cons, stays, induction fun later member =>
        unmoved later (List.mem_cons_of_mem _ member)]

/-- Whether an event concerns the transport of a connection at most. -/
def HubEvent.rewires (id : ConnectionId) : HubEvent → Bool
  | .serve (.register other _ _) | .serve (.unregister other _) | .serve (.detach other _ _)
  | .serve (.expire other _) => other = id
  | .bring _ _ | .act _ _ | .elapse _ => true
  | _ => false

namespace Hub

variable {hub later : Hub} {id : ConnectionId}

/-! ## Entries -/

/-- An entry keeps the time at which it was entered, and its name unless its own
registration gives it another. -/
theorem entry_step {event : HubEvent} {before after : Connection}
    (present : hub.connections.get? id = some before)
    (found : (hub.step event).connections.get? id = some after) :
    after.connectedAt = before.connectedAt ∧
      after.name = (nameGiven? id event).getD before.name := by
  by_cases registration : ∃ other name outbox, event = .serve (.register other name outbox)
  · obtain ⟨other, name, outbox, rfl⟩ := registration
    simp only [step, serve] at found
    by_cases same : other = id
    · subst same
      rcases hub.register_cases other name outbox with
        ⟨connection, known, result⟩ | ⟨_, absent, _⟩ | ⟨absent, _⟩
      · obtain rfl := Option.some.inj (present.symm.trans known)
        rw [result, Table.get?_set_self, Connection.attach_eq] at found
        obtain rfl := Option.some.inj found
        exact ⟨rfl, by simp [nameGiven?]⟩
      · exact absurd (absent.symm.trans present) (by simp)
      · exact absurd (absent.symm.trans present) (by simp)
    · have unchanged : (hub.register other name outbox).2.connections.get? id =
          hub.connections.get? id := by
        rcases hub.register_cases other name outbox with
          ⟨_, _, result⟩ | ⟨_, _, result⟩ | ⟨_, result⟩ <;> rw [result]
        · exact Table.get?_set_of_ne _ (Ne.symm same) _
        · rfl
        · exact Table.get?_set_of_ne _ (Ne.symm same) _
      obtain rfl := Option.some.inj (found.symm.trans (unchanged.trans present))
      exact ⟨rfl, by simp [nameGiven?, same]⟩
  · have other (other : ConnectionId) (name : DisplayName) (outbox : OutboxId) :
        event ≠ .serve (.register other name outbox) :=
      fun same => registration ⟨other, name, outbox, same⟩
    obtain ⟨origin, there, same⟩ := (hub.retains_step other).entries id after found
    obtain rfl := Option.some.inj (present.symm.trans there)
    exact ⟨same.connectedAt_eq, by rw [nameGiven?_eq_none other, same.name_eq, Option.getD_none]⟩

/-! ## Stays -/

/-- The request that an event serves, with its outcome. -/
def servedBy (hub : Hub) : HubEvent → List (Request × Outcome)
  | .serve request => [(request, (hub.serve request).1)]
  | _ => []

/-- The requests that a run serves, with their outcomes. -/
def served (hub : Hub) : List HubEvent → List (Request × Outcome)
  | [] => []
  | event :: rest => hub.servedBy event ++ (hub.step event).served rest

/-- A connection is in the table after every event of a run. -/
def Keeps (hub : Hub) (id : ConnectionId) : List HubEvent → Prop
  | [] => True
  | event :: rest => id ∈ (hub.step event).connections.keys ∧ (hub.step event).Keeps id rest

/-- A connection in the table: since when, under which name, and in which rooms. -/
structure Resides (hub : Hub) (id : ConnectionId) (since : Stamp) (name : DisplayName)
    (within : RoomName → Bool) : Prop where
  entry : ∃ connection, hub.connections.get? id = some connection ∧
    connection.connectedAt = since ∧ connection.name = name
  members : ∀ room, id ∈ hub.roster.members room ↔ within room = true
  roomsOf : ∀ room, room ∈ hub.roster.roomsOf id ↔ within room = true

variable {since : Stamp} {name : DisplayName} {within : RoomName → Bool}

theorem Consistent.resides (consistent : hub.Consistent) {connection : Connection}
    (present : hub.connections.get? id = some connection)
    (members : ∀ room, id ∈ hub.roster.members room ↔ within room = true) :
    hub.Resides id connection.connectedAt connection.name within where
  entry := ⟨connection, present, rfl, rfl⟩
  members := members
  roomsOf room := (consistent.roster.agree id room).symm.trans (members room)

/-- Only its own requests move a connection that stays in the table. -/
theorem Consistent.mem_members_step (consistent : hub.Consistent) {event : HubEvent}
    (stays : id ∈ (hub.step event).connections.keys) {room : RoomName} {member : Bool}
    (before : id ∈ hub.roster.members room ↔ member = true) :
    id ∈ (hub.step event).roster.members room ↔
      memberAfter id room member (hub.servedBy event) = true := by
  cases event with
  | serve request => exact consistent.mem_members_serve stays before
  | stop => exact absurd stays (Table.get?_eq_none_iff.1 (hub.get?_closeAll id))
  | bring outbox capacity =>
      rcases hub.bring_cases outbox capacity with result | ⟨_, result⟩ <;> rw [result] <;>
        exact before
  | act outbox act => exact before
  | elapse moment => exact before

/-- What one event makes of a connection that stays in the table. -/
theorem Resides.step (resides : hub.Resides id since name within) (consistent : hub.Consistent)
    {event : HubEvent} (stays : id ∈ (hub.step event).connections.keys) :
    (hub.step event).Resides id since ((nameGiven? id event).getD name)
      fun room => memberAfter id room (within room) (hub.servedBy event) := by
  obtain ⟨before, present, rfl, rfl⟩ := resides.entry
  obtain ⟨after, found⟩ := Table.mem_keys_iff.1 stays
  obtain ⟨sameTime, named⟩ := entry_step present found
  rw [← sameTime, ← named]
  exact (consistent.step event).resides found fun room =>
    consistent.mem_members_step stays (resides.members room)

/-- What several events make of a connection that stays in the table. -/
theorem Resides.run (resides : hub.Resides id since name within) (consistent : hub.Consistent)
    {events : List HubEvent} (keeps : hub.Keeps id events) :
    (hub.run events).Resides id since ((latestName? id events).getD name)
      fun room => memberAfter id room (within room) (hub.served events) := by
  induction events generalizing hub name within with
  | nil => exact resides
  | cons event rest induction =>
      have latest : (latestName? id (event :: rest)).getD name =
          (latestName? id rest).getD ((nameGiven? id event).getD name) := by
        unfold latestName?
        cases given : nameGiven? id event with
        | none => simp [given]
        | some first => simp [given, List.getLast?_cons]
      have log (room : RoomName) :
          memberAfter id room (within room) (hub.served (event :: rest)) =
            memberAfter id room (memberAfter id room (within room) (hub.servedBy event))
              ((hub.step event).served rest) := by
        simp only [memberAfter, served, List.foldl_append]
      rw [latest]
      simp only [log]
      exact induction (resides.step consistent keeps.1) (consistent.step event) keeps.2

theorem Resides.run_of_unmoved (resides : hub.Resides id since name within)
    (consistent : hub.Consistent) {events : List HubEvent} (keeps : hub.Keeps id events)
    (unmoved : ∀ entry ∈ hub.served events, entry.1.moves id = false) :
    (hub.run events).Resides id since ((latestName? id events).getD name) within := by
  have stayed := resides.run consistent keeps
  simpa only [memberAfter_of_unmoved unmoved] using stayed

/-! ## Entering -/

/-- A connection has just been entered: at this moment, under this name, in no room, and
with nothing that waits for it. -/
structure Enters (hub later : Hub) (id : ConnectionId) (name : DisplayName) : Prop where
  resides : later.Resides id hub.stamp name fun _ => false
  backlog : ∀ connection, later.connections.get? id = some connection →
    connection.backlog.held = []

/-- The registration of a connection that is not in the table is refused or enters it. -/
theorem Consistent.register_of_absent (consistent : hub.Consistent)
    (absent : hub.connections.get? id = none) (name : DisplayName) (outbox : OutboxId) :
    (∃ limit, (hub.register id name outbox).1 = .error (.connectionLimit limit) ∧
        (hub.register id name outbox).2.connections = hub.connections) ∨
      hub.Enters (hub.register id name outbox).2 id name := by
  have later := consistent.register id name outbox
  have nowhere (room : RoomName) : id ∉ hub.roster.members room := fun member =>
    Table.get?_eq_none_iff.1 absent
      (Table.contains_iff_mem_keys.1 (consistent.known id room member))
  rcases hub.register_cases id name outbox with
    ⟨_, present, _⟩ | ⟨limit, _, result⟩ | ⟨_, result⟩
  · exact absurd (absent.symm.trans present) (by simp)
  · exact .inl ⟨limit, by rw [result], by rw [result]; rfl⟩
  · rw [result] at later ⊢
    have entered := Table.get?_set_self hub.connections id (Connection.new id name
      (hub.lastGeneration + 1) outbox hub.settings.backlogCapacity hub.stamp)
    refine .inr ⟨later.resides entered fun room => by simp [nowhere room], fun entry found => ?_⟩
    obtain rfl := Option.some.inj (entered.symm.trans found)
    rfl

/-- Whoever is in the table has been there all along, or was entered by a registration and
has been there ever since. -/
theorem exists_entering {events : List HubEvent}
    (present : id ∈ (hub.run events).connections.keys) :
    (id ∈ hub.connections.keys ∧ hub.Keeps id events) ∨
      ∃ earlier name outbox later,
        events = earlier ++ .serve (.register id name outbox) :: later ∧
          (hub.run earlier).connections.get? id = none ∧
          id ∈ ((hub.run earlier).register id name outbox).2.connections.keys ∧
          ((hub.run earlier).register id name outbox).2.Keeps id later := by
  induction events generalizing hub with
  | nil => exact .inl ⟨present, trivial⟩
  | cons event rest induction =>
      rcases induction present with ⟨entered, keeps⟩ | ⟨earlier, name, outbox, later, split, rest⟩
      -- whoever stays from the second event on was there at the first or is entered by it
      · cases before : hub.connections.get? id with
        | some entry => exact .inl ⟨Table.mem_keys_iff.2 ⟨entry, before⟩, entered, keeps⟩
        | none =>
            by_cases own : ∃ name outbox, event = .serve (.register id name outbox)
            · obtain ⟨name, outbox, rfl⟩ := own
              exact .inr ⟨[], name, outbox, rest, rfl, before, entered, keeps⟩
            · have still := get?_step_of_absent before fun name outbox same =>
                own ⟨name, outbox, same⟩
              exact absurd entered (Table.get?_eq_none_iff.1 still)
      · exact .inr ⟨event :: earlier, name, outbox, later, by rw [split, List.cons_append], rest⟩

/-! ## Transports -/

/-- As long as it stays in the table, a connection that loses its transport or gets another
moves nobody between rooms. -/
theorem roster_step_of_rewires {event : HubEvent} (rewires : event.rewires id = true)
    (stays : id ∈ (hub.step event).connections.keys) :
    (hub.step event).roster = hub.roster := by
  have purged (result : hub.step event = hub.purge id) : False :=
    Table.get?_eq_none_iff.1 (hub.get?_purge_self id) (result ▸ stays)
  cases event with
  | stop => cases rewires
  | bring outbox capacity =>
      rcases hub.bring_cases outbox capacity with result | ⟨_, result⟩ <;> rw [result]
  | act outbox act => rfl
  | elapse moment => rfl
  | serve request =>
      cases request with
      | register other name outbox => exact hub.roster_register other name outbox
      | unregister other generation =>
          obtain rfl : other = id := of_decide_eq_true rewires
          rcases hub.unregister_cases other generation with ⟨_, _, _, result⟩ | result
          · exact (purged result).elim
          · exact congrArg roster result
      | detach other generation undelivered =>
          obtain rfl : other = id := of_decide_eq_true rewires
          rcases hub.detach_cases other generation undelivered with
            ⟨_, result⟩ | ⟨_, _, _, result⟩ | ⟨_, _, _, _, result⟩ | ⟨_, _, _, _, result⟩
          · exact congrArg roster result
          · simp only [step, serve, result]
          · exact (purged result).elim
          · simp only [step, serve, result]
      | expire other generation =>
          obtain rfl : other = id := of_decide_eq_true rewires
          rcases hub.expire_cases other generation with ⟨_, _, _, _, result⟩ | result
          · exact (purged result).elim
          · exact congrArg roster result
      | _ => cases rewires

theorem roster_run_of_rewires {events : List HubEvent}
    (rewire : ∀ event ∈ events, event.rewires id = true) (keeps : hub.Keeps id events) :
    (hub.run events).roster = hub.roster := by
  induction events generalizing hub with
  | nil => rfl
  | cons event rest induction =>
      exact (induction (fun later member => rewire later (List.mem_cons_of_mem _ member))
        keeps.2).trans (roster_step_of_rewires (rewire event List.mem_cons_self) keeps.1)

/-- A connection is resumed in place.  Along every run, (1) whoever is in the table was
entered by a registration and has stayed there since, with the time of that registration,
the name of the latest one and the rooms that its own requests led to; (2) wherever one
begins to look at it, a connection that stays in the table keeps its time, takes its name
from its own registrations, and is moved by its own requests only, (3) so that it stays in
its rooms as long as it does not ask for anything else; (4) changes of its transport leave
the whole roster as it is; (5) it stays in the table unless an event removes it; and (6) a
registration that enters it begins without rooms and without a backlog, whatever was there
before. -/
theorem reconnections_are_in_place (settings : Settings) (startedAt : Stamp)
    (events : List HubEvent) :
    let start := Hub.new settings startedAt
    let hub := start.run events
    (∀ id, id ∈ hub.connections.keys →
        ∃ earlier name outbox later,
          events = earlier ++ .serve (.register id name outbox) :: later ∧
            (start.run earlier).connections.get? id = none ∧
            let entered := ((start.run earlier).register id name outbox).2
            entered.Keeps id later ∧
              hub.Resides id (start.run earlier).stamp ((latestName? id later).getD name)
                fun room => memberAfter id room false (entered.served later)) ∧
      (∀ id since name within later, hub.Resides id since name within → hub.Keeps id later →
        (hub.run later).Resides id since ((latestName? id later).getD name)
          fun room => memberAfter id room (within room) (hub.served later)) ∧
      (∀ id later, id ∈ hub.connections.keys → hub.Keeps id later →
        (∀ entry ∈ hub.served later, entry.1.moves id = false) →
          ∀ room, (id ∈ (hub.run later).roster.members room ↔ id ∈ hub.roster.members room) ∧
            (room ∈ (hub.run later).roster.roomsOf id ↔ room ∈ hub.roster.roomsOf id)) ∧
      (∀ id later, hub.Keeps id later → (∀ event ∈ later, event.rewires id = true) →
        (hub.run later).roster = hub.roster) ∧
      (∀ id connection event, hub.connections.get? id = some connection →
        (id ∈ (hub.step event).connections.keys ↔ ¬hub.Removes id connection event)) ∧
      ∀ id name outbox answer, hub.connections.get? id = none →
        (hub.register id name outbox).1 = .ok answer →
          hub.Enters (hub.register id name outbox).2 id name := by
  intro start hub
  have consistent : hub.Consistent := (Consistent.new settings startedAt).run events
  refine ⟨fun id present => ?origin, fun id since name within later resides keeps => ?stay,
    fun id later present keeps unmoved room => ?unmoved,
    fun id later keeps rewire => roster_run_of_rewires rewire keeps,
    fun id connection event present => ?spared,
    fun id name outbox answer absent accepted => ?entered⟩
  case origin =>
    rcases exists_entering present with
      ⟨impossible, _⟩ | ⟨earlier, name, outbox, later, rfl, absent, there, keeps⟩
    · cases impossible
    · have before : (start.run earlier).Consistent :=
        (Consistent.new settings startedAt).run earlier
      refine ⟨earlier, name, outbox, later, rfl, absent, keeps, ?_⟩
      rcases before.register_of_absent absent name outbox with ⟨_, _, same⟩ | enters
      · exact absurd (same ▸ there) (Table.get?_eq_none_iff.1 absent)
      · have stayed := enters.resides.run (before.register id name outbox) keeps
        have split : hub = ((start.run earlier).register id name outbox).2.run later :=
          start.run_append earlier (.serve (.register id name outbox) :: later)
        rw [split]
        exact stayed
  case stay => exact resides.run consistent keeps
  case unmoved =>
    obtain ⟨connection, found⟩ := Table.mem_keys_iff.1 present
    have resides := consistent.resides found fun room => decide_eq_true_iff.symm
    have stayed := resides.run_of_unmoved consistent keeps unmoved
    exact ⟨(stayed.members room).trans (resides.members room).symm,
      (stayed.roomsOf room).trans (resides.roomsOf room).symm⟩
  case spared =>
    rw [← get?_step_eq_none_iff present event, Table.get?_eq_none_iff, Decidable.not_not]
  case entered =>
    rcases consistent.register_of_absent absent name outbox with ⟨limit, refused, _⟩ | enters
    · exact absurd (accepted.symm.trans refused) (by simp)
    · exact enters

end Hub
end Parley
