import Mathlib.Data.List.Forall2
import Mathlib.Data.List.Infix
import Parley.Proofs.Alike
import Parley.Proofs.Hub.Delivery

/-!
# Texts stay with those they are meant for

Two runs of a hub go side by side.  They differ only in what is said to one room, or to
one display name, and in what the transports of those whom that reached hand back.  Nobody
else can tell the two runs apart: outcomes and snapshots are the same, and so are the
backlogs and the outboxes of all other connections.
-/

namespace Parley

/-! ## Whom a text reaches -/

/-- Where a text is said: in a room, or to all connections with a display name. -/
inductive Channel
  | room (room : RoomName)
  | name (name : DisplayName)
  deriving DecidableEq, Repr

namespace Channel

/-- The request that says a text. -/
def say (sender : Option ConnectionId) (payload : Payload) : Channel → Request
  | .room place => .sendToRoom place payload sender
  | .name shared => .sendToName shared payload

/-- Whether a connection belongs to those whom a text is said to. -/
def Reaches (hub : Hub) (id : ConnectionId) : Channel → Prop
  | .room place => id ∈ hub.roster.members place
  | .name shared =>
      ∃ connection, hub.connections.get? id = some connection ∧ connection.name = shared

/-- Whether a connection belonged to them at any moment of a run. -/
def Insider (channel : Channel) (hub : Hub) (events : List HubEvent) (id : ConnectionId) : Prop :=
  ∃ before, before <+: events ∧ channel.Reaches (hub.run before) id

/-- Whether an outbox was that of such a connection at any moment of a run. -/
def Exposed (channel : Channel) (hub : Hub) (events : List HubEvent) (outbox : OutboxId) : Prop :=
  ∃ before id connection, before <+: events ∧ channel.Insider hub events id ∧
    (hub.run before).connections.get? id = some connection ∧ connection.link = .live outbox

instance (hub : Hub) (id : ConnectionId) : (channel : Channel) → Decidable (channel.Reaches hub id)
  | .room place => inferInstanceAs (Decidable (id ∈ hub.roster.members place))
  | .name shared =>
      decidable_of_iff ((hub.connections.get? id).any fun connection => connection.name = shared)
        (by cases present : hub.connections.get? id <;> simp [Reaches, present])

instance (channel : Channel) (hub : Hub) (events : List HubEvent) (id : ConnectionId) :
    Decidable (channel.Insider hub events id) :=
  decidable_of_iff (∃ before ∈ events.inits, channel.Reaches (hub.run before) id)
    (by simp only [Insider, List.mem_inits])

instance (channel : Channel) (hub : Hub) (events : List HubEvent) (outbox : OutboxId) :
    Decidable (channel.Exposed hub events outbox) :=
  decidable_of_iff (∃ before ∈ events.inits, ∃ entry ∈ (hub.run before).connections.entries,
      channel.Insider hub events entry.1 ∧ entry.2.link = .live outbox) (by
    simp only [Exposed, List.mem_inits, Prod.exists, Table.mem_entries_iff]
    constructor
    · rintro ⟨before, begins, id, connection, present, inside, attached⟩
      exact ⟨before, id, connection, begins, inside, present, attached⟩
    · rintro ⟨before, id, connection, begins, inside, present, attached⟩
      exact ⟨before, begins, id, connection, present, inside, attached⟩)

/-- Two events that differ at most in a text that is said, or in the texts, not in the
number, that the transport of an insider hands back. -/
inductive Varies (channel : Channel) (insider : ConnectionId → Prop) : HubEvent → HubEvent → Prop
  | same (event : HubEvent) : Varies channel insider event event
  | said (sender : Option ConnectionId) (first second : Payload) :
      Varies channel insider (.serve (channel.say sender first))
        (.serve (channel.say sender second))
  | handedBack {id : ConnectionId} (generation : Generation) {first second : List Payload}
      (inside : insider id) (sameNumber : first.length = second.length) :
      Varies channel insider (.serve (.detach id generation first))
        (.serve (.detach id generation second))

end Channel

namespace Hub

/-- The outcome of a request. -/
def outcome? (hub : Hub) : HubEvent → Option Outcome
  | .serve request => some (hub.serve request).1
  | .stop | .bring _ _ | .act _ _ | .elapse _ => none

/-- What each event of a run gives as an outcome. -/
def outcomes (hub : Hub) : List HubEvent → List (Option Outcome)
  | [] => []
  | event :: rest => hub.outcome? event :: (hub.step event).outcomes rest

/-! ## Two hubs side by side -/

/-- Whose payloads are shown. -/
structure Sight where
  connection : ConnectionId → Prop
  outbox : OutboxId → Prop

/-- Hubs that differ in texts that are not shown. -/
def Alike (sight : Sight) (left right : Hub) : Prop :=
  ∃ connections outboxes, right = { left with connections, outboxes } ∧
    Table.Corresponds (fun id => Connection.Alike (sight.connection id))
      left.connections connections ∧
    Outboxes.Alike sight.outbox left.outboxes outboxes

/-- The outbox of a transport shows no more than the connection may. -/
def Covers (hub : Hub) (sight : Sight) : Prop :=
  ∀ id connection outbox, hub.connections.get? id = some connection →
    connection.link = .live outbox → sight.outbox outbox → sight.connection id

variable {sight : Sight} {left right : Hub}

/-- A delivery does not change who is attached to what. -/
theorem Covers.deliverTo {hub : Hub} (covers : hub.Covers sight) (payload : Payload)
    (id : ConnectionId) : (hub.deliverTo payload id).Covers sight := by
  cases present : hub.connections.get? id with
  | none =>
      rw [deliverTo_of_absent present]
      exact covers
  | some connection =>
      rw [deliverTo_of_present present]
      intro other entry outbox found attached told
      rw [Table.get?_set] at found
      split at found
      · rename_i same
        cases found
        rw [(connection.agreesButBacklog_deliver payload _).link_eq] at attached
        exact same ▸ covers id connection outbox present attached told
      · exact covers other entry outbox found attached told

namespace Alike

theorem refl (hub : Hub) : Alike sight hub hub :=
  ⟨_, _, rfl, .refl (fun _ => .refl) _, .refl (fun _ => .refl) _⟩

/-- The entry of a connection that is shown is the same in both hubs. -/
theorem get?_connections_eq (alike : Alike sight left right) {id : ConnectionId}
    (told : sight.connection id) : left.connections.get? id = right.connections.get? id := by
  obtain ⟨connections, outboxes, rfl, entries, -⟩ := alike
  cases present : left.connections.get? id with
  | none => exact (entries.get?_eq_none present).symm
  | some connection =>
      obtain ⟨other, found, pair⟩ := entries.exists_get? present
      rw [pair.eq told]
      exact found.symm

/-- An outbox that is shown is the same in both hubs. -/
theorem get?_outboxes_eq (alike : Alike sight left right) {outbox : OutboxId}
    (told : sight.outbox outbox) : left.outboxes.get? outbox = right.outboxes.get? outbox := by
  obtain ⟨connections, outboxes, rfl, -, boxes⟩ := alike
  cases present : left.outboxes.get? outbox with
  | none => exact (boxes.get?_eq_none present).symm
  | some box =>
      obtain ⟨other, found, pair⟩ := boxes.exists_get? present
      rw [pair.eq told]
      exact found.symm

/-! ## What a snapshot and a message see -/

/-- A snapshot shows no text. -/
theorem snapshot_eq (alike : Alike sight left right) : left.snapshot = right.snapshot := by
  obtain ⟨connections, outboxes, rfl, entries, -⟩ := alike
  have views : left.connections.values.map left.viewConnection =
      connections.values.map left.viewConnection := by
    unfold Table.values
    rw [List.map_map, List.map_map]
    refine entries.map_entries_eq fun id first second pair => ?_
    obtain ⟨held, rfl, texts⟩ := pair
    simp only [Function.comp_apply, viewConnection, Backlog.size, texts.length]
    rfl
  unfold snapshot
  rw [views]
  rfl

theorem nameAudience_eq (alike : Alike sight left right) (name : DisplayName) :
    left.nameAudience name = right.nameAudience name := by
  obtain ⟨connections, outboxes, rfl, entries, -⟩ := alike
  have audience (table : Table ConnectionId Connection) :
      (table.entries.filter fun entry => entry.2.name = name).map Prod.fst =
        ((table.entries.map fun entry => (entry.1, entry.2.name)).filter
          fun entry => entry.2 = name).map Prod.fst := by
    rw [List.filter_map, List.map_map]
    rfl
  unfold nameAudience
  rw [audience, audience, entries.map_entries_eq fun id first second pair => ?_]
  obtain ⟨held, rfl, -⟩ := pair
  rfl

/-! ## What an operation keeps -/

theorem deliverTo (alike : Alike sight left right) (covers : left.Covers sight)
    {id : ConnectionId} {first second : Payload} (same : sight.connection id → first = second) :
    Alike sight (left.deliverTo first id) (right.deliverTo second id) := by
  obtain ⟨connections, outboxes, rfl, entries, boxes⟩ := alike
  cases present : left.connections.get? id with
  | none =>
      have absent := entries.get?_eq_none present
      rw [deliverTo_of_absent present, deliverTo_of_absent (by exact absent)]
      exact ⟨connections, outboxes, rfl, entries, boxes⟩
  | some connection =>
      obtain ⟨other, found, pair⟩ := entries.exists_get? present
      obtain ⟨delivered, offered⟩ := pair.deliver boxes
        (fun outbox => covers id connection outbox present) same
      rw [deliverTo_of_present present, deliverTo_of_present (by exact found)]
      exact ⟨_, _, rfl, entries.set delivered, offered⟩

/-- Two texts for the same connections do the same to those who are shown, as long as only
those get it who are not, or it is the same text. -/
theorem deliverToAll (alike : Alike sight left right) (covers : left.Covers sight)
    {ids : List ConnectionId} {first second : Payload}
    (same : ∀ id ∈ ids, sight.connection id → first = second) :
    Alike sight (left.deliverToAll first ids) (right.deliverToAll second ids) := by
  unfold Hub.deliverToAll
  induction ids generalizing left right with
  | nil => exact alike
  | cons id rest induction =>
      exact induction (alike.deliverTo covers (same id List.mem_cons_self))
        (covers.deliverTo first id) fun other member => same other (List.mem_cons_of_mem _ member)

theorem ceiling?_eq (alike : Alike sight left right) : left.ceiling? = right.ceiling? := by
  obtain ⟨connections, outboxes, rfl, entries, -⟩ := alike
  unfold ceiling?
  rw [Table.size_eq_length_keys, entries.keys, ← Table.size_eq_length_keys]

theorem identify_eq (alike : Alike sight left right) (requested : Option ConnectionId)
    (spare : ConnectionId) : left.identify requested spare = right.identify requested spare := by
  have ceiling := alike.ceiling?_eq
  obtain ⟨connections, outboxes, rfl, entries, -⟩ := alike
  have known : left.connections.contains = connections.contains := funext entries.contains_eq
  unfold identify
  rw [known, ceiling]

theorem register (alike : Alike sight left right) (id : ConnectionId) (name : DisplayName)
    (outbox : OutboxId) (wired : (left.register id name outbox).2.Covers sight) :
    (left.register id name outbox).1 = (right.register id name outbox).1 ∧
      Alike sight (left.register id name outbox).2 (right.register id name outbox).2 := by
  have ceiling := alike.ceiling?_eq
  obtain ⟨connections, outboxes, rfl, entries, boxes⟩ := alike
  cases present : left.connections.get? id with
  | some connection =>
      obtain ⟨other, found, pair⟩ := entries.exists_get? present
      have told : sight.outbox outbox → sight.connection id := by
        simp only [Hub.register, present] at wired
        exact wired id _ outbox (Table.get?_set_self _ _ _) rfl
      obtain ⟨attached, replayed⟩ := pair.attach boxes name (left.lastGeneration + 1) told
      simp only [Hub.register, present, found]
      exact ⟨trivial, _, _, rfl, entries.set attached, replayed⟩
  | none =>
      have absent := entries.get?_eq_none present
      simp only [Hub.register, present, absent]
      rw [← ceiling]
      cases left.ceiling? with
      | some limit => exact ⟨rfl, _, _, rfl, entries, boxes.release outbox⟩
      | none => exact ⟨rfl, _, _, rfl, entries.set (.refl _), boxes⟩

theorem purge (alike : Alike sight left right) (id : ConnectionId) :
    Alike sight (left.purge id) (right.purge id) := by
  obtain ⟨connections, outboxes, rfl, entries, boxes⟩ := alike
  cases present : left.connections.get? id with
  | none =>
      have absent := entries.get?_eq_none present
      rw [purge_of_absent present, purge_of_absent (by exact absent)]
      exact ⟨connections, outboxes, rfl, entries, boxes⟩
  | some connection =>
      obtain ⟨other, found, held, rfl, -⟩ := entries.exists_get? present
      rw [purge_of_present present, purge_of_present (by exact found)]
      exact ⟨_, _, rfl, entries.erase id, boxes.releaseLink _⟩

/-- A transport is the latest one of its connection in both hubs or in neither. -/
theorem unregister (alike : Alike sight left right) (id : ConnectionId)
    (generation : Generation) :
    Alike sight (left.unregister id generation) (right.unregister id generation) := by
  have purged := alike.purge id
  unfold Hub.unregister
  have whole := alike
  obtain ⟨connections, outboxes, rfl, entries, boxes⟩ := alike
  cases present : left.connections.get? id with
  | none =>
      simp only [entries.get?_eq_none present]
      exact whole
  | some connection =>
      obtain ⟨other, found, pair⟩ := entries.exists_get? present
      simp only [found, pair.generation_eq]
      split
      · exact purged
      · exact whole

theorem expire (alike : Alike sight left right) (id : ConnectionId) (generation : Generation) :
    Alike sight (left.expire id generation) (right.expire id generation) := by
  have purged := alike.purge id
  unfold Hub.expire
  have whole := alike
  obtain ⟨connections, outboxes, rfl, entries, boxes⟩ := alike
  cases present : left.connections.get? id with
  | none =>
      simp only [entries.get?_eq_none present]
      exact whole
  | some connection =>
      obtain ⟨other, found, pair⟩ := entries.exists_get? present
      simp only [found, pair.generation_eq, pair.isLive_eq]
      split
      · exact purged
      · exact whole

/-- What is handed back goes to the connection that the transport belonged to, whether it
is detached by that or has another transport already. -/
theorem detach (alike : Alike sight left right) (covers : left.Covers sight)
    (id : ConnectionId) (generation : Generation) {undelivered texts : List Payload}
    (same : Parley.Alike (sight.connection id) undelivered texts) :
    Alike sight (left.detach id generation undelivered) (right.detach id generation texts) := by
  have purged := alike.purge id
  have whole := alike
  obtain ⟨connections, outboxes, rfl, entries, boxes⟩ := alike
  unfold Hub.detach
  cases present : left.connections.get? id with
  | none =>
      simp only [entries.get?_eq_none present]
      exact whole
  | some connection =>
      obtain ⟨other, found, pair⟩ := entries.exists_get? present
      have delivered := pair.deliverAll boxes
        (fun outbox => covers id connection outbox present) same
      have detached := pair.detach boxes left.stamp same
      simp only [found, pair.generation_eq]
      split
      · exact ⟨_, _, rfl, entries.set delivered.1, delivered.2⟩
      · split
        · exact purged
        · exact ⟨_, _, rfl, entries.set detached.1, detached.2⟩

theorem joinRoom (alike : Alike sight left right) (id : ConnectionId) (room : RoomName) :
    (left.joinRoom id room).1 = (right.joinRoom id room).1 ∧
      Alike sight (left.joinRoom id room).2 (right.joinRoom id room).2 := by
  obtain ⟨connections, outboxes, rfl, entries, boxes⟩ := alike
  unfold Hub.joinRoom
  rw [entries.contains_eq id]
  dsimp only
  split
  · exact ⟨rfl, _, _, rfl, entries, boxes⟩
  · cases left.roster.join id room with
    | ok joined => exact ⟨rfl, _, _, rfl, entries, boxes⟩
    | error limit => exact ⟨rfl, _, _, rfl, entries, boxes⟩

theorem leaveRoom (alike : Alike sight left right) (id : ConnectionId) (room : RoomName) :
    Alike sight (left.leaveRoom id room) (right.leaveRoom id room) := by
  obtain ⟨connections, outboxes, rfl, entries, boxes⟩ := alike
  exact ⟨_, _, rfl, entries, boxes⟩

theorem closeAll (alike : Alike sight left right) : Alike sight left.closeAll right.closeAll := by
  obtain ⟨connections, outboxes, rfl, entries, boxes⟩ := alike
  have released (table : Table ConnectionId Connection) (start : Outboxes) :
      table.values.foldl (fun boxes connection => Connection.releaseLink connection.link boxes)
        start =
      (table.entries.map fun entry => entry.2.link).foldl
        (fun boxes link => Connection.releaseLink link boxes) start := by
    rw [Table.values, List.foldl_map, List.foldl_map]
  have links : left.connections.entries.map (fun entry => entry.2.link) =
      connections.entries.map fun entry => entry.2.link := by
    exact entries.map_entries_eq fun id first second pair => pair.link_eq.symm
  have size : left.connections.isEmpty = connections.isEmpty := by
    have length := congrArg List.length links
    rw [List.length_map, List.length_map] at length
    unfold Table.isEmpty
    rw [Bool.eq_iff_iff, List.isEmpty_iff_length_eq_zero, List.isEmpty_iff_length_eq_zero, length]
  unfold Hub.closeAll
  rw [size]
  dsimp only
  split
  · exact ⟨_, _, rfl, entries, boxes⟩
  · refine ⟨_, _, rfl, .refl (fun _ => .refl) _, ?_⟩
    rw [released, released, links]
    exact boxes.releaseLinks _

theorem keys_eq (alike : Alike sight left right) :
    left.connections.keys = right.connections.keys := by
  obtain ⟨connections, outboxes, rfl, entries, -⟩ := alike
  exact entries.keys

theorem roster_eq (alike : Alike sight left right) : left.roster = right.roster := by
  obtain ⟨connections, outboxes, rfl, -⟩ := alike
  rfl

theorem lastGeneration_eq (alike : Alike sight left right) :
    left.lastGeneration = right.lastGeneration := by
  obtain ⟨connections, outboxes, rfl, -⟩ := alike
  rfl

theorem roomAudience_eq (alike : Alike sight left right) (room : RoomName)
    (sender : Option ConnectionId) :
    left.roomAudience room sender = right.roomAudience room sender := by
  unfold roomAudience
  rw [alike.roster_eq]

/-! ## Steps and runs -/

/-- One request has the same outcome in both hubs. -/
theorem serve (alike : Alike sight left right) (covers : left.Covers sight) {request : Request}
    (after : (left.serve request).2.Covers sight) :
    (left.serve request).1 = (right.serve request).1 ∧
      Alike sight (left.serve request).2 (right.serve request).2 := by
  cases request with
  | identify requested spare => exact ⟨alike.identify_eq requested spare, alike⟩
  | register id name outbox => exact alike.register id name outbox after
  | unregister id generation => exact ⟨rfl, alike.unregister id generation⟩
  | detach id generation undelivered =>
      exact ⟨rfl, alike.detach covers id generation (.refl undelivered)⟩
  | expire id generation => exact ⟨rfl, alike.expire id generation⟩
  | broadcast payload =>
      refine ⟨rfl, ?_⟩
      simp only [Hub.serve, ← alike.keys_eq]
      exact alike.deliverToAll covers fun _ _ _ => rfl
  | joinRoom id room => exact alike.joinRoom id room
  | leaveRoom id room => exact ⟨rfl, alike.leaveRoom id room⟩
  | sendToRoom room payload sender =>
      refine ⟨rfl, ?_⟩
      simp only [Hub.serve, ← alike.roomAudience_eq]
      exact alike.deliverToAll covers fun _ _ _ => rfl
  | sendToName name payload =>
      refine ⟨rfl, ?_⟩
      simp only [Hub.serve, ← alike.nameAudience_eq]
      exact alike.deliverToAll covers fun _ _ _ => rfl
  | inspect => exact ⟨by simp only [Hub.serve, alike.snapshot_eq], alike⟩
  | shutdown => exact ⟨rfl, alike.closeAll⟩

/-- Two texts that are said where nobody is shown differ to nobody who is. -/
theorem say (alike : Alike sight left right) (covers : left.Covers sight) {channel : Channel}
    (hidden : ∀ id, channel.Reaches left id → ¬sight.connection id)
    (sender : Option ConnectionId) (first second : Payload) :
    (left.serve (channel.say sender first)).1 = (right.serve (channel.say sender second)).1 ∧
      Alike sight (left.serve (channel.say sender first)).2
        (right.serve (channel.say sender second)).2 := by
  cases channel with
  | room room =>
      refine ⟨rfl, ?_⟩
      simp only [Channel.say, Hub.serve, ← alike.roomAudience_eq]
      refine alike.deliverToAll covers fun id member told => absurd told (hidden id ?_)
      exact (List.mem_filter.1 member).1
  | name name =>
      refine ⟨rfl, ?_⟩
      simp only [Channel.say, Hub.serve, ← alike.nameAudience_eq]
      refine alike.deliverToAll covers fun id member told => absurd told (hidden id ?_)
      exact mem_nameAudience_iff.1 member

/-- The same event has the same outcome in both hubs. -/
theorem sameStep (alike : Alike sight left right) (covers : left.Covers sight) {event : HubEvent}
    (after : (left.step event).Covers sight) :
    left.outcome? event = right.outcome? event ∧
      Alike sight (left.step event) (right.step event) := by
  cases event with
  | serve request =>
      obtain ⟨outcome, later⟩ := alike.serve covers after
      exact ⟨congrArg some outcome, later⟩
  | stop => exact ⟨rfl, alike.closeAll⟩
  | bring outbox capacity =>
      refine ⟨rfl, ?_⟩
      obtain ⟨connections, outboxes, rfl, entries, boxes⟩ := alike
      unfold step
      dsimp only
      rw [← Table.Corresponds.contains_eq boxes]
      split
      · exact ⟨_, _, rfl, entries, boxes⟩
      · exact ⟨_, _, rfl, entries, Table.Corresponds.set boxes (.refl _)⟩
  | act outbox act =>
      obtain ⟨connections, outboxes, rfl, entries, boxes⟩ := alike
      exact ⟨rfl, _, _, rfl, entries,
        Table.Corresponds.modify boxes fun _ _ pair => pair.apply act⟩
  | elapse moment =>
      obtain ⟨connections, outboxes, rfl, entries, boxes⟩ := alike
      exact ⟨rfl, _, _, rfl, entries, boxes⟩

variable {channel : Channel} {insider : ConnectionId → Prop}

/-- Two events that differ in texts for those who are not shown have the same outcome. -/
theorem step (alike : Alike sight left right) (covers : left.Covers sight)
    {event other : HubEvent} (after : (left.step event).Covers sight)
    (hidden : ∀ id, channel.Reaches left id → ¬sight.connection id)
    (outside : ∀ id, insider id → ¬sight.connection id)
    (varies : channel.Varies insider event other) :
    left.outcome? event = right.outcome? other ∧
      Alike sight (left.step event) (right.step other) := by
  cases varies with
  | same => exact alike.sameStep covers after
  | said sender first second =>
      obtain ⟨outcome, later⟩ := alike.say covers hidden sender first second
      exact ⟨congrArg some outcome, later⟩
  | handedBack generation inside sameNumber =>
      exact ⟨rfl, alike.detach covers _ generation
        ⟨sameNumber, fun told => absurd told (outside _ inside)⟩⟩

/-- Runs that differ in texts for those who are not shown stay alike all along. -/
theorem run (alike : Alike sight left right) {first second : List HubEvent}
    (covers : ∀ before, before <+: first → (left.run before).Covers sight)
    (hidden : ∀ before id, before <+: first → channel.Reaches (left.run before) id →
      ¬sight.connection id)
    (outside : ∀ id, insider id → ¬sight.connection id)
    (varies : List.Forall₂ (channel.Varies insider) first second) :
    left.outcomes first = right.outcomes second ∧
      ∀ count, Alike sight (left.run (first.take count)) (right.run (second.take count)) := by
  induction varies generalizing left right with
  | nil => exact ⟨rfl, fun count => by simpa using alike⟩
  | @cons event other rest others varies _ induction =>
      have start (before : List HubEvent) (begins : before <+: rest) :
          event :: before <+: event :: rest := List.cons_prefix_cons.2 ⟨rfl, begins⟩
      obtain ⟨outcome, later⟩ := alike.step (covers [] List.nil_prefix)
        (covers [event] (start [] List.nil_prefix)) (fun id => hidden [] id List.nil_prefix)
        outside varies
      obtain ⟨outcomes, along⟩ := induction later
        (fun before begins => covers (event :: before) (start before begins))
        (fun before id begins => hidden (event :: before) id (start before begins))
      refine ⟨congrArg₂ List.cons outcome outcomes, fun count => ?_⟩
      cases count with
      | zero => exact alike
      | succ count => exact along count

end Alike

/-- What is said to a room, or to a display name, concerns nobody else.  Take two runs of a
hub that differ only in such texts, and in the texts that the transports of those whom they
ever reached hand back.  All outcomes are the same, and at every moment so are snapshots,
rooms and generations, the entries of all other connections with their backlogs, and all
outboxes that never were those of a connection that was reached. -/
theorem texts_stay_with_their_audience (channel : Channel) (hub : Hub)
    {first second : List HubEvent}
    (varies : List.Forall₂ (channel.Varies (channel.Insider hub first)) first second) :
    hub.outcomes first = hub.outcomes second ∧
      ∀ count,
        let left := hub.run (first.take count)
        let right := hub.run (second.take count)
        left.snapshot = right.snapshot ∧ left.roster = right.roster ∧
          left.lastGeneration = right.lastGeneration ∧
          (∀ id, ¬channel.Insider hub first id →
            left.connections.get? id = right.connections.get? id) ∧
          ∀ outbox, ¬channel.Exposed hub first outbox →
            left.outboxes.get? outbox = right.outboxes.get? outbox := by
  let sight : Sight :=
    { connection := fun id => ¬channel.Insider hub first id
      outbox := fun outbox => ¬channel.Exposed hub first outbox }
  have covers (before : List HubEvent) (begins : before <+: first) :
      (hub.run before).Covers sight :=
    fun id connection outbox present attached unexposed inside =>
      unexposed ⟨before, id, connection, begins, inside, present, attached⟩
  have hidden (before : List HubEvent) (id : ConnectionId) (begins : before <+: first)
      (reached : channel.Reaches (hub.run before) id) : ¬sight.connection id :=
    fun told => told ⟨before, begins, reached⟩
  obtain ⟨outcomes, along⟩ := (Alike.refl hub).run covers hidden
    (fun id inside told => told inside) varies
  refine ⟨outcomes, fun count => ?_⟩
  have alike := along count
  exact ⟨alike.snapshot_eq, alike.roster_eq, alike.lastGeneration_eq,
    fun id outside => alike.get?_connections_eq outside,
    fun outbox unexposed => alike.get?_outboxes_eq unexposed⟩

/-- Alice is in the lobby and Bob is not.  What is said there reaches Alice, comes back with
her lost transport, waits for her next one and goes on to it, under another name.  Bob sees
none of it, and the snapshots do not either. -/
theorem bob_does_not_hear_the_lobby :
    let alice : ConnectionId := ⟨"alice", by decide⟩
    let bob : ConnectionId := ⟨"bob", by decide⟩
    let lobby : RoomName := ⟨"lobby", by decide⟩
    let meeting (text : Payload) : List HubEvent :=
      [.bring 0 2, .serve (.register alice .default 0), .bring 1 8,
        .serve (.register bob ⟨"bob", by decide⟩ 1), .serve (.joinRoom alice lobby),
        .serve (.sendToRoom lobby text (some bob)), .act 0 (.take 1),
        .serve (.detach alice 1 [text]), .serve (.leaveRoom alice lobby), .bring 2 1,
        .serve (.register alice ⟨"queen", by decide⟩ 2), .serve (.detach alice 1 [text]),
        .serve (.broadcast "hello"), .serve .inspect]
    let hub := Hub.new {} 0
    List.Forall₂ ((Channel.room lobby).Varies ((Channel.room lobby).Insider hub (meeting "secret")))
        (meeting "secret") (meeting "gossip") ∧
      ¬(Channel.room lobby).Insider hub (meeting "secret") bob ∧
      ¬(Channel.room lobby).Exposed hub (meeting "secret") 1 ∧
      (hub.run (meeting "secret")).outboxes.get? 2 ≠
        (hub.run (meeting "gossip")).outboxes.get? 2 ∧
      hub.outcomes (meeting "secret") = hub.outcomes (meeting "gossip") ∧
      (hub.run (meeting "secret")).snapshot = (hub.run (meeting "gossip")).snapshot ∧
      (hub.run (meeting "secret")).connections.get? bob =
        (hub.run (meeting "gossip")).connections.get? bob ∧
      (hub.run (meeting "secret")).outboxes.get? 1 =
        (hub.run (meeting "gossip")).outboxes.get? 1 := by
  intro alice bob lobby meeting hub
  have inside : (Channel.room lobby).Insider hub (meeting "secret") alice := by decide +kernel
  have outside : ¬(Channel.room lobby).Insider hub (meeting "secret") bob := by decide +kernel
  have unexposed : ¬(Channel.room lobby).Exposed hub (meeting "secret") 1 := by decide +kernel
  have varies : List.Forall₂
      ((Channel.room lobby).Varies ((Channel.room lobby).Insider hub (meeting "secret")))
      (meeting "secret") (meeting "gossip") := by
    exact .cons (.same _) <| .cons (.same _) <| .cons (.same _) <| .cons (.same _) <|
      .cons (.same _) <| .cons (.said (some bob) _ _) <| .cons (.same _) <|
      .cons (.handedBack 1 inside rfl) <| .cons (.same _) <| .cons (.same _) <|
      .cons (.same _) <| .cons (.handedBack 1 inside rfl) <| .cons (.same _) <|
      .cons (.same _) .nil
  obtain ⟨outcomes, along⟩ := texts_stay_with_their_audience (.room lobby) hub varies
  obtain ⟨snapshots, -, -, entries, boxes⟩ := along 14
  exact ⟨varies, outside, unexposed, by decide +kernel, outcomes, snapshots,
    entries bob outside, boxes 1 unexposed⟩

end Hub
end Parley
