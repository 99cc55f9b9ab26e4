import Parley.Dispatch
import Parley.Proofs.Broker.Settle
import Parley.Proofs.Hub.Ceilings

/-!
# Frames and their effects

A frame of a peer has the effect of the one request that its command stands for, on
behalf of that peer, and a frame that stands for no request has no effect.  What the
peer is told afterwards is true of the hub.
-/

namespace Parley

/-! ## Commands and requests -/

/-- The request that a command of a peer stands for. -/
inductive Command.Means (sender : ConnectionId) : Command → Request → Prop
  | joinRoom (room : RoomName) : Means sender (.joinRoom room.text) (.joinRoom sender room)
  | leaveRoom (room : RoomName) : Means sender (.leaveRoom room.text) (.leaveRoom sender room)
  /-- A message to a room does not come back to its sender. -/
  | roomMessage (room : RoomName) (body : String) :
      Means sender (.roomMessage room.text body) (.sendToRoom room body (some sender))
  | privateMessage (name : DisplayName) (body : String) :
      Means sender (.privateMessage name.text body) (.sendToName name body)
  | broadcast (body : String) : Means sender (.broadcast body) (.broadcast body)

theorem RoomName.ofString_eq_ok_iff {text : String} {room : RoomName} :
    ofString text = .ok room ↔ text = room.text := by
  constructor
  · exact fun accepted => (text_of_ofString accepted).symm
  · rintro rfl
    exact room.ofString_text

theorem DisplayName.ofString_eq_ok_iff {text : String} {name : DisplayName} :
    ofString text = .ok name ↔ text = name.text := by
  constructor
  · exact fun accepted => (text_of_ofString accepted).symm
  · rintro rfl
    exact name.ofString_text

namespace Dispatch

variable {sender : ConnectionId} {command : Command} {request : Request}

theorem requestOf_eq_ok_iff :
    requestOf sender command = .ok request ↔ command.Means sender request := by
  constructor
  · intro accepted
    cases command with
    | joinRoom text =>
        obtain ⟨room, named, rfl⟩ := map_eq_ok_iff.1 accepted
        rw [RoomName.ofString_eq_ok_iff.1 named]
        exact .joinRoom room
    | leaveRoom text =>
        obtain ⟨room, named, rfl⟩ := map_eq_ok_iff.1 accepted
        rw [RoomName.ofString_eq_ok_iff.1 named]
        exact .leaveRoom room
    | roomMessage text body =>
        obtain ⟨room, named, rfl⟩ := map_eq_ok_iff.1 accepted
        rw [RoomName.ofString_eq_ok_iff.1 named]
        exact .roomMessage room body
    | privateMessage text body =>
        obtain ⟨name, named, rfl⟩ := map_eq_ok_iff.1 accepted
        rw [DisplayName.ofString_eq_ok_iff.1 named]
        exact .privateMessage name body
    | broadcast body =>
        cases accepted
        exact .broadcast body
  · rintro (_ | _ | _ | _ | _) <;> simp [requestOf, Except.map]

/-- A frame stands for a request exactly when it is a command that names one. -/
theorem request_eq_ok_iff {frame : String} :
    Dispatch.request sender frame = .ok (command, request) ↔
      Command.parse frame = .ok command ∧ command.Means sender request := by
  rw [← requestOf_eq_ok_iff]
  constructor
  · intro made
    unfold Dispatch.request at made
    split at made
    · cases made
    · rename_i parsed found
      split at made <;> cases made
      rename_i accepted
      exact ⟨found, accepted⟩
  · rintro ⟨found, accepted⟩
    simp [Dispatch.request, found, accepted]

/-- A frame that stands for no request is malformed or names nothing, and the transport
goes on. -/
theorem not_fatal_of_request_eq_error {frame : String} {cause : DispatchError}
    (refused : Dispatch.request sender frame = .error cause) : cause.isFatal = false := by
  unfold Dispatch.request at refused
  split at refused
  · cases refused
    rfl
  · split at refused <;> cases refused
    rfl

theorem ne_shutdown_of_means (means : command.Means sender request) : request ≠ .shutdown := by
  cases means <;> simp

theorem outbox?_of_means (means : command.Means sender request) : request.outbox? = none :=
  (requestOf_spec (requestOf_eq_ok_iff.2 means)).1

/-- Only a hub that has stopped makes an error fatal. -/
theorem isFatal_of_conclude {outcome : Outcome} {error : DispatchError}
    (concluded : conclude command outcome = .error error) :
    error.isFatal = true ↔ outcome = .error .stopped := by
  unfold conclude at concluded
  split at concluded <;> cases concluded
  rename_i refusal _
  cases refusal <;> simp [DispatchError.ofRefusal, DispatchError.isFatal]

theorem exists_refusal_of_conclude {outcome : Outcome} {error : DispatchError}
    (concluded : conclude command outcome = .error error) :
    ∃ refusal, outcome = .error refusal := by
  unfold conclude at concluded
  split at concluded <;> cases concluded
  exact ⟨_, rfl⟩

end Dispatch

/-! ## Confirmations -/

/-- A join is refused with the ceiling only when the room does not exist and there are
as many rooms as there may be. -/
theorem Roster.join_error {roster : Roster} {id : ConnectionId} {room : RoomName} {limit : Nat}
    (refused : roster.join id room = .error limit) :
    roster.containsRoom room = false ∧ roster.maxRooms = some limit ∧
      limit ≤ roster.roomCount := by
  unfold join at refused
  split at refused
  · split at refused <;> cases refused
  · rename_i absent
    split at refused
    · rename_i ceiling reached
      cases refused
      obtain ⟨same, full⟩ := Option.filter_eq_some_iff.1 reached
      exact ⟨by simp [containsRoom, Table.contains, absent], same, of_decide_eq_true full⟩
    · cases refused

/-- What a confirmation tells the sender of a request, of the hub before and after the
request: that it is in the room now, that the room could not be created and nothing
has changed, or that it is out of the room and nobody else has moved. -/
def Confirmation.Holds (sender : ConnectionId) (request : Request) (before after : Hub) :
    Confirmation → Prop
  | .joined text => ∃ room, room.text = text ∧ request = .joinRoom sender room ∧
      sender ∈ after.connections.keys ∧ sender ∈ after.roster.members room
  | .joinFailed text => ∃ room, room.text = text ∧ request = .joinRoom sender room ∧
      after.roster.containsRoom room = false ∧
      after.settings.maxRooms = some after.roster.roomCount ∧ after = before
  | .left text => ∃ room, room.text = text ∧ request = .leaveRoom sender room ∧
      sender ∉ after.roster.members room ∧
      ∀ id place, ¬(id = sender ∧ place = room) →
        (id ∈ after.roster.members place ↔ id ∈ before.roster.members place)

namespace Hub

variable {hub : Hub} {sender : ConnectionId} {command : Command} {request : Request}

theorem holds_joinRoom (limited : hub.Limited) {room : RoomName} {confirmation : Confirmation}
    (concluded : Dispatch.conclude (.joinRoom room.text) (hub.joinRoom sender room).1 =
      .ok (some confirmation)) :
    confirmation.Holds sender (.joinRoom sender room) hub (hub.joinRoom sender room).2 := by
  unfold joinRoom at concluded ⊢
  cases known : hub.connections.contains sender with
  | false => simp [known, Dispatch.conclude] at concluded
  | true =>
      cases joined : hub.roster.join sender room with
      | error limit =>
          simp only [known, joined, Dispatch.conclude] at concluded ⊢
          cases concluded
          obtain ⟨absent, ceiling, reached⟩ := Roster.join_error joined
          have enough : hub.roster.roomCount ≤ limit := limited.rooms limit ceiling
          have full : hub.settings.maxRooms = some hub.roster.roomCount := by
            rw [← limited.sameCeiling, ceiling, Nat.le_antisymm reached enough]
          exact ⟨room, rfl, rfl, absent, full, rfl⟩
      | ok result =>
          simp only [known, joined, Dispatch.conclude] at concluded ⊢
          cases concluded
          exact ⟨room, rfl, rfl, Table.contains_iff_mem_keys.1 known,
            (Roster.mem_members_join joined).2 (.inr ⟨rfl, rfl⟩)⟩

theorem holds_leaveRoom (room : RoomName) :
    (Confirmation.left room.text).Holds sender (.leaveRoom sender room) hub
      (hub.leaveRoom sender room) := by
  refine ⟨room, rfl, rfl, fun member => ?_, fun id place other => ?_⟩
  · exact ((hub.roster.mem_members_leave sender sender room room).1 member).2 ⟨rfl, rfl⟩
  · refine (hub.roster.mem_members_leave sender id room place).trans (and_iff_left fun same => ?_)
    exact other ⟨same.2, same.1⟩

/-- What a peer is told of the outcome of its command is true. -/
theorem holds_of_conclude (limited : hub.Limited) (means : command.Means sender request)
    {confirmation : Confirmation}
    (concluded : Dispatch.conclude command (hub.serve request).1 = .ok (some confirmation)) :
    confirmation.Holds sender request hub (hub.serve request).2 := by
  cases means with
  | joinRoom room => exact holds_joinRoom limited concluded
  | leaveRoom room =>
      cases concluded
      exact holds_leaveRoom room
  | roomMessage room body => cases concluded
  | privateMessage name body => cases concluded
  | broadcast body => cases concluded

/-- A request of a peer that is refused changes nothing. -/
theorem serve_of_conclude_error (means : command.Means sender request) {error : DispatchError}
    (concluded : Dispatch.conclude command (hub.serve request).1 = .error error) :
    (hub.serve request).2 = hub := by
  obtain ⟨refusal, refused⟩ := Dispatch.exists_refusal_of_conclude concluded
  rw [serve_of_refused refused, Dispatch.outbox?_of_means means]
  rfl

end Hub

/-! ## Frames -/

namespace Broker

variable {broker : Broker} {sender : ConnectionId} {command : Command} {request : Request}

/-- Ask a broker and let it serve until it has nothing to do. -/
def asking : Ask (StateM Broker) := fun request broker => broker.ask request

/-- What a peer is told about a frame, and what becomes of the broker. -/
def dispatch (broker : Broker) (sender : ConnectionId) (frame : String) :
    Except DispatchError (Option Confirmation) × Broker :=
  (Dispatch.execute asking sender frame).run broker

theorem dispatch_of_error {frame : String} {cause : DispatchError}
    (refused : Dispatch.request sender frame = .error cause) :
    broker.dispatch sender frame = (.error cause, broker) := by
  unfold dispatch Dispatch.execute
  rw [refused]
  rfl

theorem dispatch_of_request {frame : String}
    (accepted : Dispatch.request sender frame = .ok (command, request)) :
    broker.dispatch sender frame =
      (Dispatch.conclude command (broker.ask request).1, (broker.ask request).2) := by
  unfold dispatch Dispatch.execute
  rw [accepted]
  rfl

/-- What a dispatched request does, and what its sender is told of it. -/
structure Dispatched (sender : ConnectionId) (command : Command) (request : Request)
    (ready : Broker) (executed : Except DispatchError (Option Confirmation) × Broker) : Prop where
  /-- The hub carries out the request and nothing else. -/
  hub : executed.2.hub = if ready.running then (ready.hub.serve request).2 else ready.hub
  outcome : ready.running = true →
    executed.1 = Dispatch.conclude command (ready.hub.serve request).1
  truth : ∀ confirmation, executed.1 = .ok (some confirmation) →
    confirmation.Holds sender request ready.hub executed.2.hub
  rejected : ∀ refusal, executed.1 = .error (.rejected refusal) → executed.2.hub = ready.hub
  fatal : ∀ error, executed.1 = .error error →
    (error.isFatal = true ↔ executed.2.running = false)

theorem dispatched_of_running (reachable : broker.reachable = true)
    (running : broker.settle.running = true) (limited : broker.settle.hub.Limited)
    (means : command.Means sender request) {frame : String}
    (accepted : Dispatch.request sender frame = .ok (command, request)) :
    Dispatched sender command request broker.settle (broker.dispatch sender frame) := by
  rw [dispatch_of_request accepted,
    ask_of_running reachable running (Dispatch.ne_shutdown_of_means means)]
  refine ⟨(if_pos running).symm, fun _ => rfl, fun _ concluded =>
    Hub.holds_of_conclude limited means concluded, fun _ concluded =>
    Hub.serve_of_conclude_error means concluded, fun error concluded => ?_⟩
  rw [Dispatch.isFatal_of_conclude concluded]
  refine iff_of_false (broker.settle.hub.serve_ne_stopped request) ?_
  simp [serving, running]

theorem dispatched_of_stopped (reachable : broker.reachable = true)
    (stopped : broker.settle.running = false) (means : command.Means sender request)
    {frame : String} (accepted : Dispatch.request sender frame = .ok (command, request)) :
    Dispatched sender command request broker.settle (broker.dispatch sender frame) := by
  obtain ⟨plain, _, silent⟩ := Dispatch.requestOf_spec (Dispatch.requestOf_eq_ok_iff.2 means)
  obtain ⟨state, outcome⟩ := broker.ask_of_stopped reachable stopped request
  have hub : (broker.ask request).2.hub = broker.settle.hub := by
    rw [state, post_of_stopped stopped, plain]
    rfl
  have halted : (broker.ask request).2.running = false := by
    rw [state]
    exact (running_post _ request).trans stopped
  rw [dispatch_of_request accepted]
  -- the request is turned away, or nobody waits for its outcome
  rcases outcome with refused | ⟨_, unawaited, done⟩
  · rw [refused]
    have concluded : Dispatch.conclude command (.error .stopped) = .error .hubUnavailable := by
      cases means <;> rfl
    rw [concluded]
    refine ⟨hub.trans (by simp [stopped]), fun running => ?_, fun _ => nofun, fun _ => nofun,
      fun error same => ?_⟩
    · rw [stopped] at running
      cases running
    · cases same
      exact iff_of_true rfl halted
  · rw [done, silent unawaited]
    refine ⟨hub.trans (by simp [stopped]), fun running => ?_, fun _ => nofun, fun _ => nofun,
      fun _ => nofun⟩
    rw [stopped] at running
    cases running

theorem limited_run (settings : Settings) (startedAt : Stamp) (steps : List BrokerStep) :
    ((Broker.new settings startedAt).run steps).hub.Limited :=
  hub_run_keeps Hub.Limited (fun _ event limited => limited.step event)
    (fun _ outbox limited => limited.release outbox) _ steps
    (Hub.Limited.new settings startedAt)

/-- A peer's frame does what it says, and the peer is told what is true.  In every state
of a running hub that somebody can reach, and for every sender and every frame: (1) a
frame that is no command, or names no room or peer, has no effect; (2) any other frame
has the effect of the one request that its command stands for, once the hub comes to it,
and what is confirmed holds right afterwards; (3) an error is fatal exactly when the hub
has stopped; and (4) the hub comes to a request at once when no other request waits. -/
theorem frames_are_dispatched_truly (settings : Settings) (startedAt : Stamp)
    (steps : List BrokerStep) (sender : ConnectionId) (frame : String)
    (running : ((Broker.new settings startedAt).run steps).running = true)
    (reachable : ((Broker.new settings startedAt).run steps).reachable = true) :
    let broker := (Broker.new settings startedAt).run steps
    let ready := broker.settle
    let executed := (Dispatch.execute asking sender frame).run broker
    ((∀ command request, Command.parse frame = .ok command →
          ¬command.Means sender request) →
        executed.2 = broker ∧ ∃ error, executed.1 = .error error) ∧
      (∀ command request, Command.parse frame = .ok command → command.Means sender request →
        Dispatched sender command request ready executed) ∧
      (∀ error, executed.1 = .error error →
        (error.isFatal = true ↔ executed.2.running = false)) ∧
      (broker.mailbox = [] → ready = broker) := by
  intro broker ready executed
  have limited : ready.hub.Limited :=
    settle_keeps (fun broker => broker.hub.Limited)
      (hub_serveNext_keeps Hub.Limited (fun _ event limited => limited.step event)
        fun _ outbox limited => limited.release outbox)
      broker (limited_run settings startedAt steps)
  have dispatched (command : Command) (request : Request)
      (parsed : Command.parse frame = .ok command) (means : command.Means sender request) :
      Dispatched sender command request ready executed := by
    have accepted := Dispatch.request_eq_ok_iff.2 ⟨parsed, means⟩
    cases serves : ready.running with
    | true => exact dispatched_of_running reachable serves limited means accepted
    | false => exact dispatched_of_stopped reachable serves means accepted
  have waits : broker.mailbox = [] → ready = broker :=
    fun letters => (idle_of_empty letters reachable).settle_eq
  cases made : Dispatch.request sender frame with
  | error cause =>
      have refused : executed = (.error cause, broker) := dispatch_of_error made
      refine ⟨fun _ => by rw [refused]; exact ⟨rfl, cause, rfl⟩, dispatched, fun error same => ?_,
        waits⟩
      rw [refused] at same ⊢
      cases same
      simp [Dispatch.not_fatal_of_request_eq_error made, broker, running]
  | ok result =>
      obtain ⟨command, request⟩ := result
      obtain ⟨parsed, means⟩ := Dispatch.request_eq_ok_iff.1 made
      exact ⟨fun nothing => absurd means (nothing command request parsed), dispatched,
        (dispatched command request parsed means).fatal, waits⟩

/-- A registered peer asks to join a room, and is in the room when it is told so. -/
theorem join_is_dispatched_truly :
    let alice : ConnectionId := ⟨"alice", by decide⟩
    let lobby : RoomName := ⟨"lobby", by decide⟩
    let steps : List BrokerStep := [.bring 0 8, .submit (.register alice .default 0), .serve]
    let broker := (Broker.new {} 0).run steps
    let executed := (Dispatch.execute asking alice "join_room:lobby").run broker
    broker.running = true ∧ broker.reachable = true ∧
      executed.1 = .ok (some (.joined "lobby")) ∧
      alice ∈ executed.2.hub.roster.members lobby := by
  intro alice lobby steps broker executed
  have running : broker.running = true := by decide +kernel
  have reachable : broker.reachable = true := by decide +kernel
  have told : executed.1 = .ok (some (.joined "lobby")) := by rfl
  have parsed : Command.parse "join_room:lobby" = .ok (.joinRoom "lobby") := by rfl
  obtain ⟨_, dispatched, _⟩ :=
    frames_are_dispatched_truly {} 0 steps alice "join_room:lobby" running reachable
  obtain ⟨room, named, _, _, member⟩ :=
    (dispatched (.joinRoom "lobby") (.joinRoom alice lobby) parsed (.joinRoom lobby)).truth _ told
  refine ⟨running, reachable, told, ?_⟩
  have same : lobby = room := by
    cases room
    cases named
    rfl
  rw [same]
  exact member

end Broker
end Parley
