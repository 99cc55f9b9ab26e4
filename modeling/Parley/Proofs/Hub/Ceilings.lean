import Parley.Proofs.Hub.Consistency
import Parley.Proofs.Hub.Holders

/-!
# Ceilings

A hub keeps the number of its connections and the number of its rooms within the
ceilings of its settings.  A ceiling is checked where an entry is made, so it holds
however requests are mixed, and it never stands in the way of a connection or a room
that is there already.  A request that is refused leaves no trace.
-/

namespace Parley

/-- A number within a ceiling, where there is one. -/
def Within (ceiling : Option Nat) (count : Nat) : Prop :=
  ∀ limit, ceiling = some limit → count ≤ limit

namespace Within

variable {ceiling : Option Nat} {count : Nat}

theorem zero : Within ceiling 0 := fun _ _ => Nat.zero_le _

theorem mono {fewer : Nat} (within : Within ceiling count) (le : fewer ≤ count) :
    Within ceiling fewer :=
  fun limit same => Nat.le_trans le (within limit same)

/-- As long as the ceiling is not reached there is room for one more. -/
theorem succ (below : (ceiling.filter fun limit => limit ≤ count) = none) :
    Within ceiling (count + 1) := by
  rintro limit rfl
  have above : count < limit := by simpa using below
  exact above

end Within

namespace Roster

theorem roomCount_leave_le (roster : Roster) (id : ConnectionId) (room : RoomName) :
    (roster.leave id room).2.roomCount ≤ roster.roomCount := by
  unfold leave
  split
  · exact roster.rooms.size_remove_le room id
  · exact Nat.le_refl _

theorem size_expelAll_le (id : ConnectionId) (places : List RoomName)
    (state : List RoomName × Index RoomName ConnectionId) :
    (places.foldl (expel id) state).2.size ≤ state.2.size := by
  induction places generalizing state with
  | nil => exact Nat.le_refl _
  | cons place rest induction =>
      refine Nat.le_trans (induction _) ?_
      rw [snd_expel]
      exact state.2.size_remove_le place id

theorem roomCount_removeEverywhere_le (roster : Roster) (id : ConnectionId) :
    (roster.removeEverywhere id).2.roomCount ≤ roster.roomCount :=
  size_expelAll_le id (roster.roomsOf id) ([], roster.rooms)

/-- A join creates a room only below the ceiling. -/
theorem within_join {roster joined : Roster} {id : ConnectionId} {room : RoomName}
    {what : Join} (within : Within roster.maxRooms roster.roomCount)
    (success : roster.join id room = .ok (what, joined)) :
    joined.maxRooms = roster.maxRooms ∧ Within joined.maxRooms joined.roomCount := by
  unfold join at success
  cases present : roster.rooms.get? room with
  | some others =>
      simp only [present] at success
      split at success <;> cases success
      · exact ⟨rfl, within⟩
      · exact ⟨rfl, within.mono (Nat.le_of_eq (Index.size_add_of_present present id))⟩
  | none =>
      simp only [present] at success
      cases below : roster.ceiling? with
      | some limit =>
          rw [below] at success
          cases success
      | none =>
          rw [below] at success
          cases success
          refine ⟨rfl, ?_⟩
          have size : (roster.enter id room).roomCount = roster.roomCount + 1 :=
            Index.size_add_of_absent present id
          rw [size]
          exact .succ below

/-- A room that exists can be joined whatever the ceiling. -/
theorem join_of_containsRoom {roster : Roster} {room : RoomName}
    (found : roster.containsRoom room = true) (id : ConnectionId) :
    ∃ what joined, roster.join id room = .ok (what, joined) := by
  obtain ⟨others, present⟩ := Table.contains_eq_true_iff.1 found
  unfold join
  rw [present]
  dsimp only
  split
  · exact ⟨_, _, rfl⟩
  · exact ⟨_, _, rfl⟩

end Roster

namespace Hub

/-- The ceilings of the settings hold for connections and rooms. -/
structure Limited (hub : Hub) : Prop where
  connections : Within hub.settings.maxConnections hub.connections.size
  rooms : Within hub.roster.maxRooms hub.roster.roomCount
  sameCeiling : hub.roster.maxRooms = hub.settings.maxRooms

namespace Limited

variable {hub later : Hub}

theorem new (settings : Settings) (startedAt : Stamp) : (Hub.new settings startedAt).Limited :=
  ⟨.zero, .zero, rfl⟩

/-- Entries may be revised and may leave. -/
theorem shrink (limited : hub.Limited) (settings : later.settings = hub.settings)
    (size : later.connections.size ≤ hub.connections.size)
    (maxRooms : later.roster.maxRooms = hub.roster.maxRooms)
    (roomCount : later.roster.roomCount ≤ hub.roster.roomCount) : later.Limited where
  connections := by rw [settings]; exact limited.connections.mono size
  rooms := by rw [maxRooms]; exact limited.rooms.mono roomCount
  sameCeiling := by rw [maxRooms, settings]; exact limited.sameCeiling

theorem set (limited : hub.Limited) {id : ConnectionId} {before revised : Connection}
    (present : hub.connections.get? id = some before) (settings : later.settings = hub.settings)
    (connections : later.connections = hub.connections.set id revised)
    (roster : later.roster = hub.roster) : later.Limited := by
  refine limited.shrink settings (Nat.le_of_eq ?_) (by rw [roster])
    (Nat.le_of_eq (by rw [roster]))
  rw [connections, Table.size_set_of_present present]

theorem release (limited : hub.Limited) (outbox : OutboxId) : (hub.release outbox).Limited :=
  limited.shrink rfl (Nat.le_refl _) rfl (Nat.le_refl _)

theorem deliverTo (limited : hub.Limited) (payload : Payload) (id : ConnectionId) :
    (hub.deliverTo payload id).Limited := by
  cases present : hub.connections.get? id with
  | none =>
      rw [deliverTo_of_absent present]
      exact limited
  | some connection =>
      rw [deliverTo_of_present present]
      exact limited.set present rfl rfl rfl

theorem purge (limited : hub.Limited) (id : ConnectionId) : (hub.purge id).Limited := by
  cases present : hub.connections.get? id with
  | none =>
      rw [purge_of_absent present]
      exact limited
  | some connection =>
      rw [purge_of_present present]
      exact limited.shrink rfl (Table.size_erase_le _ id) rfl
        (Roster.roomCount_removeEverywhere_le _ id)

/-- A registration enters a connection only below the ceiling. -/
theorem register (limited : hub.Limited) (id : ConnectionId) (name : DisplayName)
    (outbox : OutboxId) : (hub.register id name outbox).2.Limited := by
  unfold Hub.register
  cases present : hub.connections.get? id with
  | some connection => exact limited.set present rfl rfl rfl
  | none =>
      cases below : hub.ceiling? with
      | some limit => exact limited.release outbox
      | none =>
          refine ⟨?_, limited.rooms, limited.sameCeiling⟩
          dsimp only
          rw [Table.size_set_of_absent present]
          exact .succ below

theorem detach (limited : hub.Limited) (id : ConnectionId) (generation : Generation)
    (undelivered : List Payload) : (hub.detach id generation undelivered).Limited := by
  rcases hub.detach_cases id generation undelivered with
    ⟨_, result⟩ | ⟨_, present, _, result⟩ | ⟨_, _, _, _, result⟩ | ⟨_, present, _, _, result⟩ <;>
    rw [result]
  · exact limited
  · exact limited.set present rfl rfl rfl
  · exact limited.purge id
  · exact limited.set present rfl rfl rfl

theorem joinRoom (limited : hub.Limited) (id : ConnectionId) (room : RoomName) :
    (hub.joinRoom id room).2.Limited := by
  rcases hub.joinRoom_cases id room with ⟨_, result⟩ | ⟨_, _, _, joined, result⟩ <;> rw [result]
  · exact limited
  · obtain ⟨sameCeiling, rooms⟩ := Roster.within_join limited.rooms joined
    exact ⟨limited.connections, rooms, sameCeiling.trans limited.sameCeiling⟩

theorem leaveRoom (limited : hub.Limited) (id : ConnectionId) (room : RoomName) :
    (hub.leaveRoom id room).Limited := by
  refine limited.shrink rfl (Nat.le_refl _) ?_ (hub.roster.roomCount_leave_le id room)
  unfold Hub.leaveRoom Roster.leave
  dsimp only
  split <;> rfl

theorem closeAll (limited : hub.Limited) : hub.closeAll.Limited := by
  unfold Hub.closeAll
  split
  · exact limited
  · exact limited.shrink rfl (Nat.zero_le _) rfl (Nat.zero_le _)

/-- Every request keeps the ceilings. -/
theorem serve (limited : hub.Limited) (request : Request) : (hub.serve request).2.Limited := by
  apply serve_keeps Limited hub request
  case register => exact fun id name outbox _ => limited.register id name outbox
  case unregister =>
    intro id generation _
    rcases hub.unregister_cases id generation with ⟨_, _, _, result⟩ | result <;> rw [result]
    · exact limited.purge id
    · exact limited
  case detach => exact fun id generation undelivered _ => limited.detach id generation undelivered
  case expire =>
    intro id generation _
    rcases hub.expire_cases id generation with ⟨_, _, _, _, result⟩ | result <;> rw [result]
    · exact limited.purge id
    · exact limited
  case deliver => exact fun _ payload id limited => limited.deliverTo payload id
  case join => exact fun id room _ => limited.joinRoom id room
  case leave => exact fun id room _ => limited.leaveRoom id room
  case close => exact fun _ => limited.closeAll
  case start => exact limited

theorem step (limited : hub.Limited) (event : HubEvent) : (hub.step event).Limited := by
  cases event with
  | serve request => exact limited.serve request
  | stop => exact limited.closeAll
  | bring outbox capacity =>
      rcases hub.bring_cases outbox capacity with result | ⟨_, result⟩ <;> rw [result]
      · exact limited
      · exact limited.shrink rfl (Nat.le_refl _) rfl (Nat.le_refl _)
  | act outbox act => exact limited.shrink rfl (Nat.le_refl _) rfl (Nat.le_refl _)
  | elapse moment => exact limited.shrink rfl (Nat.le_refl _) rfl (Nat.le_refl _)

theorem run (limited : hub.Limited) (events : List HubEvent) : (hub.run events).Limited :=
  run_keeps (fun _ event limited => limited.step event) hub events limited

end Limited

/-! ## Known connections and rooms -/

/-- A peer keeps an id that the hub knows. -/
theorem identify_of_known {hub : Hub} {id : ConnectionId} (known : id ∈ hub.connections.keys)
    (spare : ConnectionId) :
    hub.serve (.identify (some id) spare) = (.ok (.identified id), hub) := by
  simp [serve, identify, Option.filter, Table.contains_iff_mem_keys.2 known]

theorem register_of_known {hub : Hub} {id : ConnectionId} (known : id ∈ hub.connections.keys)
    (name : DisplayName) (outbox : OutboxId) :
    (hub.serve (.register id name outbox)).1 = .ok (.registered (hub.lastGeneration + 1)) := by
  obtain ⟨connection, present⟩ := Table.mem_keys_iff.1 known
  simp [serve, register, present]

theorem joinRoom_of_known {hub : Hub} {id : ConnectionId} {room : RoomName}
    (known : id ∈ hub.connections.keys) (found : hub.roster.containsRoom room = true) :
    (hub.serve (.joinRoom id room)).1 = .ok .done := by
  obtain ⟨what, joined, success⟩ := Roster.join_of_containsRoom found id
  simp [serve, joinRoom, Table.contains_iff_mem_keys.2 known, success]

/-! ## Refusals -/

/-- A refused request has no effect, except that the hub lets go of the outbox that
it hands over. -/
theorem serve_of_refused {hub : Hub} {request : Request} {refusal : Refusal}
    (refused : (hub.serve request).1 = .error refusal) :
    (hub.serve request).2 = request.outbox?.elim hub hub.release := by
  cases request with
  | identify requested spare => rfl
  | register id name outbox =>
      simp only [serve] at refused ⊢
      rcases hub.register_cases id name outbox with
        ⟨_, _, result⟩ | ⟨_, _, result⟩ | ⟨_, result⟩ <;> rw [result] at refused ⊢
      · cases refused
      · rfl
      · cases refused
  | joinRoom id room =>
      simp only [serve] at refused ⊢
      rcases hub.joinRoom_cases id room with ⟨_, result⟩ | ⟨_, _, _, _, result⟩ <;>
        rw [result] at refused ⊢
      · rfl
      · cases refused
  | inspect => rfl
  | _ => cases refused

/-- Along every run of a hub, however admissions, registrations and other requests are
mixed: (1) connections, live and detached ones together, and rooms stay within the
ceilings of the settings, (2) an id that the hub knows is always admitted and
registered, and a known connection can always join a room that exists, and (3) a
request that is refused leaves connections, both indexes of the roster and the last
generation as they are; an outbox of its own that it hands over is let go of, and no
other outbox is touched. -/
theorem ceilings_hold_along_runs (settings : Settings) (startedAt : Stamp)
    (events : List HubEvent) :
    let hub := (Hub.new settings startedAt).run events
    (∀ limit, settings.maxConnections = some limit → hub.connections.size ≤ limit) ∧
      (∀ limit, settings.maxRooms = some limit → hub.roster.roomCount ≤ limit) ∧
      (∀ id, id ∈ hub.connections.keys →
        (∀ spare, (hub.serve (.identify (some id) spare)).1 = .ok (.identified id)) ∧
          (∀ name outbox, (hub.serve (.register id name outbox)).1 =
            .ok (.registered (hub.lastGeneration + 1))) ∧
          ∀ room, hub.roster.containsRoom room = true →
            (hub.serve (.joinRoom id room)).1 = .ok .done) ∧
      (∀ request refusal, (hub.serve request).1 = .error refusal →
        let later := (hub.serve request).2
        later.connections = hub.connections ∧
          later.roster.rooms = hub.roster.rooms ∧
          later.roster.memberships = hub.roster.memberships ∧
          later.lastGeneration = hub.lastGeneration ∧
          (∀ outbox, request.outbox? ≠ some outbox →
            later.outboxes.get? outbox = hub.outboxes.get? outbox) ∧
          ∀ outbox box, request.outbox? = some outbox →
            hub.outboxes.get? outbox = some box → outbox ∉ hub.attached →
            later.LetGo outbox) := by
  intro hub
  have limited : hub.Limited := (Limited.new settings startedAt).run events
  have sameSettings : hub.settings = settings := settings_run _ events
  refine ⟨sameSettings ▸ limited.connections, ?_, fun id known => ?_,
    fun request refusal refused => ?_⟩
  · rw [← sameSettings, ← limited.sameCeiling]
    exact limited.rooms
  · exact ⟨fun spare => congrArg Prod.fst (identify_of_known known spare),
      register_of_known known, fun room found => joinRoom_of_known known found⟩
  · rw [serve_of_refused refused]
    cases brought : request.outbox? with
    | none => exact ⟨rfl, rfl, rfl, rfl, fun _ _ => rfl, fun _ _ => nofun⟩
    | some outbox =>
        refine ⟨rfl, rfl, rfl, rfl, fun other different => ?_, fun same box equal found spare => ?_⟩
        · exact Outboxes.get?_release_of_ne _ fun equal => different (by rw [equal])
        · obtain rfl := Option.some.inj equal
          exact letGo_release found spare

end Hub
end Parley
