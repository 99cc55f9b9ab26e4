import Parley.Proofs.Hub.Settled
import Parley.Proofs.Hub.Stored

/-!
# Linked hubs

The hub lets go of an outbox only when it takes the connection off it, so the outbox of
a transport is one that the hub still offers to.  A generation belongs to one
registration: as long as an entry carries it, the entry is attached to the outbox of
that registration or to none.
-/

namespace Parley

/-- A replay adds to the outbox of the new transport and does not let go of it. -/
theorem Connection.get?_replay_self {outbox : OutboxId} {box : Outbox} {boxes : Outboxes}
    (found : boxes.get? outbox = some box) (payloads : List Payload) :
    ∃ held, (replay outbox payloads boxes).2.2.get? outbox = some { box with held } := by
  rw [replay_eq found]
  exact ⟨_, Table.get?_set_self _ _ _⟩

namespace Hub

/-- Different connections have different outboxes, and the hub has let go of none of
them. -/
structure Linked (hub : Hub) : Prop where
  separate : hub.Separate
  attached : ∀ id connection outbox, hub.connections.get? id = some connection →
    connection.link = .live outbox →
    ∃ box, hub.outboxes.get? outbox = some box ∧ box.released = false

variable {hub : Hub}

theorem Linked.new (settings : Settings) (startedAt : Stamp) :
    (Hub.new settings startedAt).Linked where
  separate first second left right outbox present := by simp [Hub.new] at present
  attached id connection outbox present := by simp [Hub.new] at present

/-- Entries may leave, as long as the outboxes of the others stay as they are. -/
theorem Linked.subset {later : Hub} (linked : hub.Linked)
    (fewer : ∀ id connection, later.connections.get? id = some connection →
      hub.connections.get? id = some connection)
    (same : ∀ id connection outbox, later.connections.get? id = some connection →
      connection.link = .live outbox →
      later.outboxes.get? outbox = hub.outboxes.get? outbox) : later.Linked where
  separate := linked.separate.subset fewer
  attached id connection outbox present link := by
    rw [same id connection outbox present link]
    exact linked.attached id connection outbox (fewer id connection present) link

/-- Only connections and outboxes matter. -/
theorem Linked.congr {later : Hub} (linked : hub.Linked)
    (connections : later.connections = hub.connections)
    (outboxes : later.outboxes = hub.outboxes) : later.Linked :=
  linked.subset (fun _ _ present => connections ▸ present) fun _ _ _ _ _ => by rw [outboxes]

/-- An entry may be revised or entered. -/
theorem Linked.set {later : Hub} (linked : hub.Linked) {id : ConnectionId}
    {revised : Connection} (separate : later.Separate)
    (connections : later.connections = hub.connections.set id revised)
    (others : ∀ other entry, other ≠ id → hub.connections.get? other = some entry →
      SameFor other entry hub later)
    (attached : ∀ outbox, revised.link = .live outbox →
      ∃ box, later.outboxes.get? outbox = some box ∧ box.released = false) : later.Linked where
  separate := separate
  attached other entry outbox present link := by
    rw [connections, Table.get?_set] at present
    split at present
    · obtain rfl := Option.some.inj present
      exact attached outbox link
    · rename_i different
      rw [(others other entry different present).outbox outbox link]
      exact linked.attached other entry outbox present link

/-- A consumer may change its outbox, as long as it does not let go of it. -/
theorem Linked.setOutbox {later : Hub} (linked : hub.Linked) {outbox : OutboxId} {box : Outbox}
    (released : ∀ before, hub.outboxes.get? outbox = some before →
      box.released = before.released)
    (connections : later.connections = hub.connections)
    (outboxes : later.outboxes = hub.outboxes.set outbox box) : later.Linked where
  separate := linked.separate.subset fun _ _ present => connections ▸ present
  attached id connection other present link := by
    rw [connections] at present
    obtain ⟨before, found, unreleased⟩ := linked.attached id connection other present link
    rw [outboxes, Table.get?_set]
    split
    · rename_i same
      exact ⟨box, rfl, (released before (same ▸ found)).trans unreleased⟩
    · exact ⟨before, found, unreleased⟩

theorem Linked.deliverTo (linked : hub.Linked) (payload : Payload) (id : ConnectionId) :
    (hub.deliverTo payload id).Linked := by
  have separate := linked.separate.deliverTo payload id
  cases present : hub.connections.get? id with
  | none =>
      rw [deliverTo_of_absent present]
      exact linked
  | some connection =>
      have others (other : ConnectionId) (entry : Connection) (different : other ≠ id)
          (found : hub.connections.get? other = some entry) :
          SameFor other entry hub (hub.deliverTo payload id) :=
        sameFor_deliverTo linked.separate found different.symm payload
      have agrees := connection.agreesButBacklog_deliver payload hub.outboxes
      rw [deliverTo_of_present present] at separate others ⊢
      refine linked.set separate rfl others fun outbox link => ?_
      rw [agrees.link_eq] at link
      obtain ⟨box, found, unreleased⟩ := linked.attached id connection outbox present link
      obtain ⟨added, grown, _⟩ := Connection.get?_deliver_self link found payload
      exact ⟨_, grown, unreleased⟩

theorem Linked.purge (linked : hub.Linked) (id : ConnectionId) : (hub.purge id).Linked := by
  have remains {other : ConnectionId} {entry : Connection}
      (found : (hub.purge id).connections.get? other = some entry) :
      other ≠ id ∧ hub.connections.get? other = some entry := by
    by_cases same : other = id
    · rw [same, get?_purge_self] at found
      cases found
    · rw [hub.get?_purge_of_ne same] at found
      exact ⟨same, found⟩
  refine linked.subset (fun _ _ found => (remains found).2) fun other entry outbox found link => ?_
  obtain ⟨different, present⟩ := remains found
  exact (sameFor_purge linked.separate present different.symm).outbox outbox link

/-- A fresh outbox may be attached. -/
theorem Linked.register (linked : hub.Linked) {outbox : OutboxId} (unused : hub.Unused outbox)
    (id : ConnectionId) (name : DisplayName) : (hub.register id name outbox).2.Linked := by
  have elsewhere {other : ConnectionId} {entry : Connection}
      (found : hub.connections.get? other = some entry) : entry.link ≠ .live outbox :=
    link_ne_of_spare unused.2 found
  have others (other : ConnectionId) (entry : Connection) (different : other ≠ id)
      (found : hub.connections.get? other = some entry) :
      SameFor other entry hub (hub.register id name outbox).2 :=
    sameFor_register linked.separate found different.symm name (elsewhere found)
  rcases hub.register_cases id name outbox with
    ⟨connection, present, result⟩ | ⟨_, absent, result⟩ | ⟨_, result⟩ <;>
    rw [result] at others ⊢
  · refine linked.set (linked.separate.enter unused.2 (by rw [Connection.attach_eq]) rfl) rfl
      others fun box link => ?_
    rw [Connection.attach_eq] at link
    cases link
    obtain ⟨held, replayed⟩ :=
      Connection.get?_replay_self unused.1 connection.backlog.held
    exact ⟨_, (Connection.get?_releaseLink_of_ne _ (elsewhere present)).trans
      replayed, rfl⟩
  · refine linked.subset (fun _ _ found => found) fun other entry box found link => ?_
    exact Outboxes.get?_release_of_ne _ fun same => elsewhere found (same ▸ link)
  · refine linked.set (linked.separate.enter unused.2 rfl rfl) rfl others fun box link => ?_
    cases link
    exact ⟨_, unused.1, rfl⟩

theorem Linked.detach (linked : hub.Linked) (id : ConnectionId) (generation : Generation)
    (undelivered : List Payload) : (hub.detach id generation undelivered).Linked := by
  have others (other : ConnectionId) (entry : Connection) (different : other ≠ id)
      (found : hub.connections.get? other = some entry) :
      SameFor other entry hub (hub.detach id generation undelivered) :=
    sameFor_detach linked.separate found different.symm generation undelivered
  rcases hub.detach_cases id generation undelivered with
    ⟨_, result⟩ | ⟨connection, present, _, result⟩ | ⟨_, _, _, _, result⟩ |
      ⟨connection, present, _, _, result⟩ <;> rw [result] at others ⊢
  · exact linked
  · have agrees := connection.agreesButBacklog_deliverAll undelivered hub.outboxes
    refine linked.set (linked.separate.revise present (fun _ link => agrees.link_eq ▸ link) rfl)
      rfl others fun outbox link => ?_
    rw [agrees.link_eq] at link
    obtain ⟨box, found, unreleased⟩ := linked.attached id connection outbox present link
    obtain ⟨added, grown, _⟩ := Connection.get?_deliverAll_self link found undelivered
    exact ⟨_, grown, unreleased⟩
  · exact linked.purge id
  · exact linked.set (linked.separate.revise present (fun _ link => by cases link) rfl) rfl others
      fun _ link => by cases link

theorem Linked.closeAll (linked : hub.Linked) : hub.closeAll.Linked := by
  have nobody (id : ConnectionId) (connection : Connection)
      (found : hub.closeAll.connections.get? id = some connection) : False := by
    rw [get?_closeAll] at found
    cases found
  exact linked.subset (fun id connection found => (nobody id connection found).elim)
    fun id connection _ found => (nobody id connection found).elim

/-- Requests keep a hub linked when a registration brings a fresh outbox. -/
theorem Linked.serve (linked : hub.Linked) {request : Request}
    (admits : hub.Admits (.serve request)) : (hub.serve request).2.Linked := by
  apply serve_keeps Linked hub request
  case register =>
    rintro id name outbox rfl
    exact linked.register admits id name
  case unregister =>
    intro id generation _
    rcases hub.unregister_cases id generation with ⟨_, _, _, result⟩ | result <;> rw [result]
    · exact linked.purge id
    · exact linked
  case detach => exact fun id generation undelivered _ => linked.detach id generation undelivered
  case expire =>
    intro id generation _
    rcases hub.expire_cases id generation with ⟨_, _, _, _, result⟩ | result <;> rw [result]
    · exact linked.purge id
    · exact linked
  case deliver => exact fun _ payload id linked => linked.deliverTo payload id
  case join =>
    intro id room _
    rcases hub.joinRoom_cases id room with ⟨_, result⟩ | ⟨_, _, _, _, result⟩ <;> rw [result]
    · exact linked
    · exact linked.congr rfl rfl
  case leave => exact fun _ _ _ => linked.congr rfl rfl
  case close => exact fun _ => linked.closeAll
  case start => exact linked

/-! ## The transport of a generation -/

/-- A generation was given out, and as long as the entry of a connection carries it, the
entry is attached to one of some outboxes or to none. -/
structure Confines (hub : Hub) (id : ConnectionId) (generation : Generation)
    (outboxes : List OutboxId) : Prop where
  given : generation ≤ hub.lastGeneration
  within : ∀ connection outbox, hub.connections.get? id = some connection →
    connection.generation = generation → connection.link = .live outbox → outbox ∈ outboxes

variable {id : ConnectionId} {generation : Generation} {outboxes : List OutboxId}

theorem Confines.inherit {later : Hub} (confines : hub.Confines id generation outboxes)
    (inherits : hub.InheritsFrom later) : later.Confines id generation outboxes where
  given := inherits.1 ▸ confines.given
  within connection outbox present carries link := by
    obtain ⟨before, there, same, linked⟩ := inherits.2 id connection present
    exact confines.within before outbox there (same ▸ carries) (linked outbox link)

/-- No registration gives out a generation again. -/
theorem Confines.serve (confines : hub.Confines id generation outboxes) (request : Request) :
    (hub.serve request).2.Confines id generation outboxes := by
  -- the generation that is given out next is larger
  have entered {other : ConnectionId} {entry : Connection} {later : Hub}
      (carries : entry.generation = hub.lastGeneration + 1)
      (given : later.lastGeneration = hub.lastGeneration + 1)
      (connections : later.connections = hub.connections.set other entry) :
      later.Confines id generation outboxes := by
    refine ⟨given ▸ Nat.le_succ_of_le confines.given, fun connection outbox present same link => ?_⟩
    rw [connections, Table.get?_set] at present
    split at present
    · obtain rfl := Option.some.inj present
      have bounded := confines.given
      rw [← same, carries] at bounded
      exact absurd bounded (Nat.not_succ_le_self _)
    · exact confines.within connection outbox present same link
  by_cases registration : ∃ other name brought, request = .register other name brought
  · obtain ⟨other, name, brought, rfl⟩ := registration
    simp only [Hub.serve]
    rcases hub.register_cases other name brought with
      ⟨connection, _, result⟩ | ⟨_, _, result⟩ | ⟨_, result⟩ <;> rw [result]
    · exact entered (by rw [Connection.attach_eq]) rfl rfl
    · exact confines.inherit (hub.inheritsFrom_release brought)
    · exact entered rfl rfl rfl
  · exact confines.inherit (hub.inheritsFrom_serve fun other name brought same =>
      registration ⟨other, name, brought, same⟩)

/-- The entry that a registration makes is attached to the outbox that it brings. -/
theorem confines_register {name : DisplayName} {outbox : OutboxId}
    (registered : (hub.register id name outbox).1 = .ok (.registered generation)) :
    (hub.register id name outbox).2.Confines id generation [outbox] := by
  have entered {entry : Connection} (attached : entry.link = .live outbox) {later : Hub}
      (given : generation = later.lastGeneration)
      (connections : later.connections = hub.connections.set id entry) :
      later.Confines id generation [outbox] := by
    refine ⟨Nat.le_of_eq given, fun connection other present _ link => ?_⟩
    rw [connections, Table.get?_set_self] at present
    obtain rfl := Option.some.inj present
    rw [attached] at link
    exact List.mem_singleton.2 (Link.live.inj link).symm
  rcases hub.register_cases id name outbox with
    ⟨connection, _, result⟩ | ⟨_, _, result⟩ | ⟨_, result⟩ <;> rw [result] at registered ⊢
  · cases registered
    exact entered (by rw [Connection.attach_eq]) rfl rfl
  · cases registered
  · cases registered
    exact entered rfl rfl rfl

theorem Confines.of_absent (given : generation ≤ hub.lastGeneration)
    (absent : hub.connections.get? id = none) : hub.Confines id generation outboxes where
  given := given
  within connection outbox present := by
    rw [absent] at present
    cases present

/-- An entry without its generation or its transport is confined to no outbox. -/
theorem Confines.of_superseded (given : generation ≤ hub.lastGeneration)
    (superseded : ∀ connection, hub.connections.get? id = some connection →
      connection.generation = generation → connection.isLive = false) :
    hub.Confines id generation [] where
  given := given
  within connection outbox present carries link := by
    have dead := superseded connection present carries
    simp [Connection.isLive, link] at dead

theorem Confines.not_live (confines : hub.Confines id generation []) (connection : Connection)
    (present : hub.connections.get? id = some connection)
    (carries : connection.generation = generation) : connection.isLive = false := by
  cases link : connection.link with
  | live outbox => exact absurd (confines.within connection outbox present carries link) (by simp)
  | detached deadline => simp [Connection.isLive, link]

/-- The transport of an outbox that the hub has let go of is not attached any more. -/
theorem Confines.of_released {outbox : OutboxId} {box : Outbox}
    (confines : hub.Confines id generation [outbox]) (linked : hub.Linked)
    (found : hub.outboxes.get? outbox = some box) (released : box.released = true) :
    hub.Confines id generation [] where
  given := confines.given
  within connection other present carries link := by
    obtain rfl := List.mem_singleton.1 (confines.within connection other present carries link)
    obtain ⟨before, there, unreleased⟩ := linked.attached id connection other present link
    obtain rfl := Option.some.inj (found.symm.trans there)
    rw [released] at unreleased
    cases unreleased

/-- Once the peer has left, no entry carries the generation of its transport. -/
theorem Confines.unregister (given : generation ≤ hub.lastGeneration) :
    (hub.unregister id generation).Confines id generation [] := by
  cases present : hub.connections.get? id with
  | none =>
      rw [Hub.unregister, present]
      exact .of_absent given present
  | some connection =>
      simp only [Hub.unregister, present]
      split
      · refine .of_absent ?_ (hub.get?_purge_self id)
        rwa [(hub.inheritsFrom_purge id).1]
      · rename_i superseded
        refine .of_superseded given fun entry there carries => ?_
        obtain rfl := Option.some.inj (present.symm.trans there)
        exact absurd carries superseded

/-- Once a transport was lost, no entry with its generation is attached. -/
theorem Confines.detach (given : generation ≤ hub.lastGeneration) (undelivered : List Payload) :
    (hub.detach id generation undelivered).Confines id generation [] := by
  have sameGiven := (hub.inheritsFrom_detach id generation undelivered).1
  rw [← sameGiven] at given
  rcases hub.detach_cases id generation undelivered with
    ⟨absent, result⟩ | ⟨connection, present, superseded, result⟩ | ⟨_, _, _, _, result⟩ |
      ⟨connection, _, _, _, result⟩ <;> rw [result] at given ⊢
  · exact .of_absent given absent
  · refine .of_superseded given fun entry there carries => ?_
    have agrees := connection.agreesButBacklog_deliverAll undelivered hub.outboxes
    obtain rfl := Option.some.inj ((Table.get?_set_self _ _ _).symm.trans there)
    exact absurd (agrees.generation_eq.symm.trans carries) superseded
  · exact .of_absent given (hub.get?_purge_self id)
  · refine .of_superseded given fun entry there _ => ?_
    obtain rfl := Option.some.inj ((Table.get?_set_self _ _ _).symm.trans there)
    rfl

end Hub
end Parley
