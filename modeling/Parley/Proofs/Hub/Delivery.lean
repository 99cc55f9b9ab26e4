import Parley.Proofs.Hub.Consistency
import Parley.Proofs.Hub.Generation

/-!
# What a request means to one connection

As long as different connections have different outboxes, all that a request does
to a connection is to hand it payloads: those of a message that is meant for it, and
those that a superseded transport of its own hands back.  The exceptions are the
registration, the loss and the removal of the connection itself.
-/

namespace Parley

namespace Connection

/-- A delivery depends on the outbox of the transport only. -/
theorem deliver_congr (connection : Connection) (payload : Payload) (left right : Outboxes)
    (same : ∀ outbox, connection.link = .live outbox → left.get? outbox = right.get? outbox) :
    (connection.deliver payload left).1 = (connection.deliver payload right).1 ∧
      (connection.deliver payload left).2.1 = (connection.deliver payload right).2.1 ∧
      ∀ outbox, connection.link = .live outbox →
        (connection.deliver payload left).2.2.get? outbox =
          (connection.deliver payload right).2.2.get? outbox := by
  unfold deliver
  cases attached : connection.link with
  | detached since => exact ⟨rfl, rfl, fun outbox impossible => by cases impossible⟩
  | live outbox =>
      have equal := same outbox attached
      simp only [Outboxes.offer, equal]
      cases present : right.get? outbox with
      | none =>
          refine ⟨rfl, rfl, fun other attachedTo => ?_⟩
          cases attachedTo
          exact equal
      | some box =>
          simp only [Outbox.offer_eq]
          cases box.answer <;> refine ⟨rfl, rfl, fun other attachedTo => ?_⟩ <;>
            cases attachedTo <;> simp

/-- What a detached connection is given waits behind what waits already. -/
theorem held_deliverAll_of_detached {connection : Connection} {since : Stamp}
    (detached : connection.link = .detached since) (fits : connection.backlog.Fits)
    (payloads : List Payload) (boxes : Outboxes) :
    (connection.deliverAll payloads boxes).2.1.backlog.held =
      Backlog.newest connection.backlog.capacity (connection.backlog.held ++ payloads) := by
  induction payloads generalizing connection boxes with
  | nil =>
      rw [List.append_nil]
      exact (Backlog.newest_of_length_le fits).symm
  | cons payload rest induction =>
      have first : connection.deliver payload boxes =
          ((connection.keep payload).1, (connection.keep payload).2, boxes) := by
        simp [deliver, detached]
      rw [snd_deliverAll_cons, first, induction (by exact detached) (fits.push payload)]
      simp only [keep, Backlog.capacity_push, Backlog.held_push fits]
      rw [Backlog.newest_newest_append, List.append_assoc, List.singleton_append]

end Connection

namespace Hub

/-- Different connections have different outboxes. -/
def Separate (hub : Hub) : Prop :=
  ∀ first second left right outbox, hub.connections.get? first = some left →
    hub.connections.get? second = some right →
    left.link = .live outbox → right.link = .live outbox → first = second

theorem separate_iff {hub : Hub} :
    hub.Separate ↔ ∀ first ∈ hub.connections.entries, ∀ second ∈ hub.connections.entries,
      ∀ outbox ∈ first.2.outbox?, second.2.outbox? = some outbox → first.1 = second.1 := by
  simp only [Option.mem_def, Connection.outbox?_eq_some_iff]
  constructor
  · intro separate first memberFirst second memberSecond outbox attachedFirst attachedSecond
    exact separate first.1 second.1 first.2 second.2 outbox (Table.mem_entries_iff.1 memberFirst)
      (Table.mem_entries_iff.1 memberSecond) attachedFirst attachedSecond
  · intro apart first second left right outbox foundLeft foundRight attachedLeft attachedRight
    exact apart (first, left) (Table.mem_entries_iff.2 foundLeft) (second, right)
      (Table.mem_entries_iff.2 foundRight) outbox attachedLeft attachedRight

instance (hub : Hub) : Decidable hub.Separate := decidable_of_iff _ separate_iff.symm

/-- The payloads of a message that are meant for a connection. -/
def addressed (hub : Hub) (id : ConnectionId) : Request → List Payload
  | .broadcast payload => if hub.connections.contains id then [payload] else []
  | .sendToRoom room payload sender =>
      if hub.connections.contains id ∧ id ∈ hub.roster.members room ∧ some id ≠ sender then
        [payload]
      else []
  | .sendToName name payload =>
      if (hub.connections.get? id).any (·.name = name) then [payload] else []
  | _ => []

/-- The payloads that a superseded transport of a connection hands back. -/
def handedBack (hub : Hub) (id : ConnectionId) : Request → List Payload
  | .detach other generation undelivered =>
      if other = id ∧ (hub.connections.get? id).any (·.generation ≠ generation) then undelivered
      else []
  | _ => []

/-- The payloads that a request hands to a connection. -/
def handed (hub : Hub) (id : ConnectionId) (request : Request) : List Payload :=
  hub.addressed id request ++ hub.handedBack id request

/-! ## Other connections -/

/-- Neither the entry of a connection nor the outbox of its transport differs. -/
structure SameFor (id : ConnectionId) (connection : Connection) (hub later : Hub) : Prop where
  entry : later.connections.get? id = hub.connections.get? id
  outbox : ∀ outbox, connection.link = .live outbox →
    later.outboxes.get? outbox = hub.outboxes.get? outbox

theorem SameFor.refl (id : ConnectionId) (connection : Connection) (hub : Hub) :
    SameFor id connection hub hub :=
  ⟨rfl, fun _ _ => rfl⟩

theorem SameFor.trans {id : ConnectionId} {connection : Connection} {first second third : Hub}
    (left : SameFor id connection first second) (right : SameFor id connection second third) :
    SameFor id connection first third :=
  ⟨right.entry.trans left.entry, fun outbox attached =>
    (right.outbox outbox attached).trans (left.outbox outbox attached)⟩

variable {hub : Hub} {id other : ConnectionId} {connection entry : Connection}

/-- The transport of another connection has another outbox. -/
theorem Separate.link_ne (separate : hub.Separate)
    (present : hub.connections.get? id = some connection)
    (found : hub.connections.get? other = some entry) (different : other ≠ id)
    {outbox : OutboxId} (attached : connection.link = .live outbox) :
    entry.link ≠ .live outbox := fun same =>
  different (separate other id entry connection outbox found present same attached)

/-- An entry may be revised or entered as long as nobody else has its outbox. -/
theorem Separate.set {later : Hub} (separate : hub.Separate) {revised : Connection}
    (alone : ∀ other entry outbox, other ≠ id → hub.connections.get? other = some entry →
      revised.link = .live outbox → entry.link ≠ .live outbox)
    (connections : later.connections = hub.connections.set id revised) : later.Separate := by
  intro first second left right outbox foundLeft foundRight attachedLeft attachedRight
  rw [connections, Table.get?_set] at foundLeft foundRight
  refine Decidable.byContradiction fun different => ?_
  split at foundLeft
  · rename_i sameLeft
    obtain rfl := Option.some.inj foundLeft
    rw [if_neg (sameLeft ▸ Ne.symm different)] at foundRight
    exact alone second right outbox (sameLeft ▸ Ne.symm different) foundRight attachedLeft
      attachedRight
  · split at foundRight
    · rename_i otherLeft sameRight
      obtain rfl := Option.some.inj foundRight
      exact alone first left outbox otherLeft foundLeft attachedRight attachedLeft
    · exact different (separate first second left right outbox foundLeft foundRight
        attachedLeft attachedRight)

/-- An entry may be revised as long as its transport stays. -/
theorem Separate.revise {later : Hub} (separate : hub.Separate) {revised : Connection}
    (present : hub.connections.get? id = some connection)
    (sameLink : ∀ outbox, revised.link = .live outbox → connection.link = .live outbox)
    (connections : later.connections = hub.connections.set id revised) : later.Separate :=
  separate.set (fun _ _ outbox different found attached =>
    separate.link_ne present found different (sameLink outbox attached)) connections

/-- Entries may leave. -/
theorem Separate.subset {later : Hub} (separate : hub.Separate)
    (fewer : ∀ id connection, later.connections.get? id = some connection →
      hub.connections.get? id = some connection) : later.Separate :=
  fun first second left right outbox foundLeft foundRight =>
    separate first second left right outbox (fewer _ _ foundLeft) (fewer _ _ foundRight)

theorem Separate.deliverTo (separate : hub.Separate) (payload : Payload) (id : ConnectionId) :
    (hub.deliverTo payload id).Separate := by
  cases present : hub.connections.get? id with
  | none =>
      rw [deliverTo_of_absent present]
      exact separate
  | some connection =>
      rw [deliverTo_of_present present]
      have agrees := connection.agreesButBacklog_deliver payload hub.outboxes
      exact separate.revise present (fun _ attached => agrees.link_eq ▸ attached) rfl

theorem sameFor_deliverTo (separate : hub.Separate)
    (present : hub.connections.get? id = some connection) (different : other ≠ id)
    (payload : Payload) : SameFor id connection hub (hub.deliverTo payload other) := by
  cases found : hub.connections.get? other with
  | none =>
      rw [deliverTo_of_absent found]
      exact .refl id connection hub
  | some entry =>
      rw [deliverTo_of_present found]
      exact ⟨Table.get?_set_of_ne _ different.symm _, fun outbox attached =>
        entry.get?_deliver_of_ne payload _ (separate.link_ne present found different attached)⟩

theorem sameFor_purge (separate : hub.Separate)
    (present : hub.connections.get? id = some connection) (different : other ≠ id) :
    SameFor id connection hub (hub.purge other) := by
  refine ⟨hub.get?_purge_of_ne different.symm, fun outbox attached => ?_⟩
  cases found : hub.connections.get? other with
  | none => rw [purge_of_absent found]
  | some entry =>
      rw [purge_of_present found]
      exact Connection.get?_releaseLink_of_ne _
        (separate.link_ne present found different attached)

/-- A message to other connections does not reach a connection. -/
theorem sameFor_deliverToAll (separate : hub.Separate)
    (present : hub.connections.get? id = some connection) (payload : Payload)
    {ids : List ConnectionId} (spared : id ∉ ids) :
    SameFor id connection hub (hub.deliverToAll payload ids) := by
  induction ids generalizing hub with
  | nil => exact .refl id connection hub
  | cons first rest induction =>
      rw [List.mem_cons, not_or] at spared
      have step := sameFor_deliverTo separate present (Ne.symm spared.1) payload
      exact step.trans
        (induction (separate.deliverTo payload first) (step.entry.trans present) spared.2)

/-! ## Messages -/

/-- The payloads that a connection has been handed, and nothing else, reached its
entry and the outbox of its transport. -/
structure Receives (id : ConnectionId) (connection : Connection) (payloads : List Payload)
    (hub later : Hub) : Prop where
  entry : later.connections.get? id =
    some (connection.deliverAll payloads hub.outboxes).2.1
  outbox : ∀ outbox, connection.link = .live outbox →
    later.outboxes.get? outbox =
      (connection.deliverAll payloads hub.outboxes).2.2.get? outbox

theorem SameFor.receives {later : Hub} (same : SameFor id connection hub later)
    (present : hub.connections.get? id = some connection) :
    Receives id connection [] hub later :=
  ⟨same.entry.trans present, same.outbox⟩

theorem receives_deliverAll {later : Hub} {payloads : List Payload}
    (connections : later.connections =
      hub.connections.set id (connection.deliverAll payloads hub.outboxes).2.1)
    (outboxes : later.outboxes = (connection.deliverAll payloads hub.outboxes).2.2) :
    Receives id connection payloads hub later := by
  refine ⟨?_, fun outbox _ => by rw [outboxes]⟩
  rw [connections]
  exact Table.get?_set_self _ _ _

/-- A message to several connections reaches each of them as if it were alone. -/
theorem receives_deliverToAll (separate : hub.Separate)
    (present : hub.connections.get? id = some connection) (payload : Payload)
    {ids : List ConnectionId} (distinct : ids.Nodup) :
    Receives id connection (if id ∈ ids then [payload] else []) hub
      (hub.deliverToAll payload ids) := by
  by_cases meant : id ∈ ids
  · obtain ⟨before, after, rfl⟩ := List.append_of_mem meant
    rw [List.nodup_append, List.nodup_cons] at distinct
    have notBefore : id ∉ before := fun member =>
      distinct.2.2 id member id List.mem_cons_self rfl
    have earlier := sameFor_deliverToAll separate present payload notBefore
    let middle := hub.deliverToAll payload before
    have there : middle.connections.get? id = some connection := earlier.entry.trans present
    have separateMiddle : middle.Separate :=
      deliverToAll_keeps (fun _ id separate => separate.deliverTo payload id) hub before separate
    have delivered := deliverTo_of_present there payload
    have thereAfter : (middle.deliverTo payload id).connections.get? id =
        some (connection.deliver payload middle.outboxes).2.1 := by
      rw [delivered]
      exact Table.get?_set_self _ _ _
    have later := sameFor_deliverToAll (separateMiddle.deliverTo payload id) thereAfter payload
      distinct.2.1.1
    have parts : hub.deliverToAll payload (before ++ id :: after) =
        (middle.deliverTo payload id).deliverToAll payload after := by
      unfold deliverToAll
      rw [List.foldl_append, List.foldl_cons]
      rfl
    obtain ⟨_, sameEntry, sameOutbox⟩ := connection.deliver_congr payload middle.outboxes
      hub.outboxes earlier.outbox
    rw [if_pos meant, parts]
    refine ⟨?_, fun outbox attached => ?_⟩
    · rw [later.entry, thereAfter, sameEntry]
      rfl
    · rw [later.outbox outbox ?_, delivered]
      · exact sameOutbox outbox attached
      · rw [(connection.agreesButBacklog_deliver payload _).link_eq]
        exact attached
  · rw [if_neg meant]
    exact (sameFor_deliverToAll separate present payload meant).receives present

theorem nodup_keys (table : Table ConnectionId Connection) : table.keys.Nodup := table.distinct

theorem Consistent.nodup_roomAudience (consistent : hub.Consistent) (room : RoomName)
    (sender : Option ConnectionId) : (hub.roomAudience room sender).Nodup :=
  (consistent.roster.rooms_full.nodup_group room).filter _

theorem nodup_nameAudience (hub : Hub) (name : DisplayName) : (hub.nameAudience name).Nodup :=
  hub.connections.distinct.sublist (List.filter_sublist.map _)

theorem mem_nameAudience_iff {name : DisplayName} :
    id ∈ hub.nameAudience name ↔ ∃ connection, hub.connections.get? id = some connection ∧
      connection.name = name := by
  simp only [nameAudience, List.mem_map, List.mem_filter, decide_eq_true_eq]
  constructor
  · rintro ⟨⟨key, connection⟩, ⟨member, named⟩, rfl⟩
    exact ⟨connection, Table.mem_entries_iff.1 member, named⟩
  · rintro ⟨connection, present, named⟩
    exact ⟨(id, connection), ⟨Table.mem_entries_iff.2 present, named⟩, rfl⟩

/-! ## Requests -/

/-- A registration of another connection does not reach this one, as long as it
brings another outbox. -/
theorem sameFor_register (separate : hub.Separate)
    (present : hub.connections.get? id = some connection) (different : other ≠ id)
    (name : DisplayName) {outbox : OutboxId} (elsewhere : connection.link ≠ .live outbox) :
    SameFor id connection hub (hub.register other name outbox).2 := by
  have elsewhere' {box : OutboxId} (attached : connection.link = .live box) : box ≠ outbox :=
    fun same => elsewhere (same ▸ attached)
  rcases hub.register_cases other name outbox with
    ⟨entry, found, result⟩ | ⟨limit, _, result⟩ | ⟨_, result⟩ <;> rw [result]
  · refine ⟨Table.get?_set_of_ne _ different.symm _, fun box attached => ?_⟩
    exact entry.get?_attach_of_ne name (hub.lastGeneration + 1) _ (elsewhere' attached)
      (separate.link_ne present found different attached)
  · exact ⟨rfl, fun box attached => Outboxes.get?_release_of_ne _ (elsewhere' attached)⟩
  · exact ⟨Table.get?_set_of_ne _ different.symm _, fun _ _ => rfl⟩

theorem sameFor_detach (separate : hub.Separate)
    (present : hub.connections.get? id = some connection) (different : other ≠ id)
    (generation : Generation) (undelivered : List Payload) :
    SameFor id connection hub (hub.detach other generation undelivered) := by
  rcases hub.detach_cases other generation undelivered with
    ⟨_, result⟩ | ⟨entry, found, _, result⟩ | ⟨_, _, _, _, result⟩ |
      ⟨entry, found, _, _, result⟩ <;> rw [result]
  · exact .refl id connection hub
  · exact ⟨Table.get?_set_of_ne _ different.symm _, fun _ attached =>
      entry.get?_deliverAll_of_ne undelivered _
        (separate.link_ne present found different attached)⟩
  · exact sameFor_purge separate present different
  · exact ⟨Table.get?_set_of_ne _ different.symm _, fun _ attached =>
      Connection.get?_releaseLink_of_ne _ (separate.link_ne present found different attached)⟩

/-- A request that neither attaches nor detaches nor removes a connection only hands
it payloads. -/
theorem receives_serve (consistent : hub.Consistent) (separate : hub.Separate)
    (present : hub.connections.get? id = some connection) {request : Request}
    (noRegister : ∀ name outbox, request ≠ .register id name outbox)
    (noDetach : ∀ undelivered, request ≠ .detach id connection.generation undelivered)
    (elsewhere : ∀ outbox, request.outbox? = some outbox → connection.link ≠ .live outbox)
    (stays : ¬hub.Removes id connection (.serve request)) :
    Receives id connection (hub.handed id request) hub (hub.serve request).2 := by
  have untouched {later : Hub} (nothing : hub.handed id request = [])
      (same : SameFor id connection hub later) :
      Receives id connection (hub.handed id request) hub later := by
    rw [nothing]
    exact same.receives present
  have known : hub.connections.contains id = true := Table.contains_of_get?_eq_some present
  cases request with
  | identify requested spare => exact untouched rfl (.refl id connection hub)
  | register other name outbox =>
      have different : other ≠ id := fun same => noRegister name outbox (by rw [same])
      exact untouched rfl (sameFor_register separate present different name (elsewhere outbox rfl))
  | unregister other generation =>
      refine untouched rfl ?_
      rcases hub.unregister_cases other generation with ⟨entry, found, current, result⟩ | result
      · have different : other ≠ id := by
          rintro rfl
          obtain rfl := Option.some.inj (found.symm.trans present)
          exact stays ⟨rfl, current.symm⟩
        simp only [serve, result]
        exact sameFor_purge separate present different
      · simp only [serve, result]
        exact .refl id connection hub
  | detach other generation undelivered =>
      by_cases same : other = id
      · subst same
        have superseded : connection.generation ≠ generation := by
          rintro rfl
          exact noDetach undelivered rfl
        have handed : hub.handed other (.detach other generation undelivered) = undelivered := by
          simp [Hub.handed, addressed, handedBack, present, superseded]
        rw [handed]
        refine receives_deliverAll ?_ ?_ <;> simp [serve, detach, present, superseded]
      · have handed : hub.handed id (.detach other generation undelivered) = [] := by
          simp [Hub.handed, addressed, handedBack, same]
        exact untouched handed (sameFor_detach separate present same generation undelivered)
  | expire other generation =>
      refine untouched rfl ?_
      rcases hub.expire_cases other generation with ⟨entry, found, current, dead, result⟩ | result
      · have different : other ≠ id := by
          rintro rfl
          obtain rfl := Option.some.inj (found.symm.trans present)
          exact stays ⟨rfl, current.symm, dead⟩
        simp only [serve, result]
        exact sameFor_purge separate present different
      · simp only [serve, result]
        exact .refl id connection hub
  | broadcast payload =>
      have handed : hub.handed id (.broadcast payload) =
          if id ∈ hub.connections.keys then [payload] else [] := by
        simp [Hub.handed, addressed, handedBack, Table.contains_iff_mem_keys]
      rw [handed]
      exact receives_deliverToAll separate present payload (nodup_keys hub.connections)
  | joinRoom other room =>
      refine untouched rfl ?_
      rcases hub.joinRoom_cases other room with ⟨_, result⟩ | ⟨_, _, _, _, result⟩ <;>
        simp only [serve, result]
      · exact .refl id connection hub
      · exact ⟨rfl, fun _ _ => rfl⟩
  | leaveRoom other room => exact untouched rfl ⟨rfl, fun _ _ => rfl⟩
  | sendToRoom room payload sender =>
      have handed : hub.handed id (.sendToRoom room payload sender) =
          if id ∈ hub.roomAudience room sender then [payload] else [] := by
        simp [Hub.handed, addressed, handedBack, known, roomAudience]
      rw [handed]
      exact receives_deliverToAll separate present payload
        (consistent.nodup_roomAudience room sender)
  | sendToName name payload =>
      have handed : hub.handed id (.sendToName name payload) =
          if id ∈ hub.nameAudience name then [payload] else [] := by
        simp [Hub.handed, addressed, handedBack, mem_nameAudience_iff, present]
      rw [handed]
      exact receives_deliverToAll separate present payload (hub.nodup_nameAudience name)
  | inspect => exact untouched rfl (.refl id connection hub)
  | shutdown => exact absurd trivial stays

end Hub
end Parley
