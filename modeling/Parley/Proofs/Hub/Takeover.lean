import Parley.Proofs.Hub.Replay
import Parley.Proofs.Hub.Stored

/-!
# The line for a transport

What a transport has taken from its outbox, what the outbox still holds, and what waits
behind it are one line.  As long as the transport stays, payloads join this line at its
end and leave it at its front.  This also goes for what a superseded transport hands
back late: it joins the end, behind everything that has joined since the takeover.
-/

namespace Parley
namespace Hub

variable {hub : Hub} {id : ConnectionId} {connection : Connection} {outbox : OutboxId}

/-- The confirmation that an event adds to an outbox. -/
def confirmedBy (outbox : OutboxId) : HubEvent → List Payload
  | .act other (.confirm confirmation) => if other = outbox then [confirmation.encode] else []
  | _ => []

/-- The payloads that an event adds to the line for a transport. -/
def joinedBy (hub : Hub) (id : ConnectionId) (outbox : OutboxId) (event : HubEvent) :
    List Payload :=
  hub.handedBy id event ++ confirmedBy outbox event

/-- The payloads that a run adds to the line for a transport, in order. -/
def joined (hub : Hub) (id : ConnectionId) (outbox : OutboxId) : List HubEvent → List Payload
  | [] => []
  | event :: rest => hub.joinedBy id outbox event ++ (hub.step event).joined id outbox rest

theorem joined_append (hub : Hub) (id : ConnectionId) (outbox : OutboxId)
    (first second : List HubEvent) :
    hub.joined id outbox (first ++ second) =
      hub.joined id outbox first ++ (hub.run first).joined id outbox second := by
  induction first generalizing hub with
  | nil => rfl
  | cons event rest induction =>
      rw [List.cons_append, joined, joined, induction, List.append_assoc, run_cons]

/-- When the hub delivers nothing, only confirmations join the line. -/
theorem joined_of_handedAll_eq_nil {events : List HubEvent}
    (nothing : hub.handedAll id events = []) (outbox : OutboxId) :
    hub.joined id outbox events = events.flatMap (confirmedBy outbox) := by
  induction events generalizing hub with
  | nil => rfl
  | cons event rest induction =>
      rw [handedAll, List.append_eq_nil_iff] at nothing
      rw [joined, joinedBy, nothing.1, induction nothing.2, List.nil_append, List.flatMap_cons]

/-- The transport takes payloads from the front, and its reader confirms only when
nothing waits behind the outbox. -/
theorem act_sublist {boxes : Outboxes} {box : Outbox} (caughtUp : connection.CaughtUp boxes)
    (live : connection.link = .live outbox) (found : boxes.get? outbox = some box)
    (act : OutboxAct) :
    (act.taken box ++ ((act.apply box).held ++ connection.backlog.held)).Sublist
      (box.held ++ connection.backlog.held ++ confirmedBy outbox (.act outbox act)) := by
  cases act with
  | take count =>
      have parts : box.held.take count ++ (box.held.drop count ++ connection.backlog.held) =
          box.held ++ connection.backlog.held := by
        rw [← List.append_assoc, List.take_append_drop]
      simp only [OutboxAct.taken, OutboxAct.apply, parts, confirmedBy, List.append_nil]
      exact .refl _
  | refuse => simp [OutboxAct.taken, OutboxAct.apply, Outbox.refuse, confirmedBy]
  | abandon => simp [OutboxAct.taken, OutboxAct.apply, Outbox.abandon, confirmedBy]
  | confirm confirmation =>
      simp only [OutboxAct.taken, OutboxAct.apply, Reader.confirm_eq, confirmedBy, if_true,
        List.nil_append]
      by_cases accepted : box.released = false ∧ box.answer = .accepted
      · have listening := (Outbox.answer_eq_accepted_iff.1 accepted.2).1
        have nothing : connection.backlog.held = [] :=
          caughtUp.nothing_waits (by simp [Connection.isOpen, live, found, listening])
        simp [accepted, nothing]
      · simp [accepted]

/-- As long as its transport stays, a connection gets payloads at the end of its line. -/
theorem step_of_live (settled : hub.Settled) {event : HubEvent} (admits : hub.Admits event)
    (present : hub.connections.get? id = some connection)
    (live : connection.link = .live outbox) (spares : Spares id connection.generation event)
    (stays : (hub.step event).connections.get? id ≠ none) :
    ∃ later, (hub.step event).connections.get? id = some later ∧
      later.link = connection.link ∧ later.generation = connection.generation ∧
      (hub.passedBy outbox event ++ later.stored (hub.step event).outboxes).Sublist
        (connection.stored hub.outboxes ++ hub.joinedBy id outbox event) := by
  have caughtUp := settled.caughtUp id connection present
  obtain ⟨box, found⟩ := caughtUp.exists_box outbox live
  cases event with
  | serve request =>
      have elsewhere (brought : OutboxId) (brings : request.outbox? = some brought) :
          connection.link ≠ .live brought := by
        cases request with
        | register other name given =>
            cases brings
            exact fun attached => admits.2 (mem_attached_iff.2 ⟨id, connection, present, attached⟩)
        | _ => cases brings
      have receives := receives_serve settled.consistent settled.separate present
        (fun name outbox same => by subst same; exact spares rfl)
        (fun undelivered same => by subst same; exact spares ⟨rfl, rfl⟩) elsewhere
        (fun removes => stays ((get?_step_eq_none_iff present _).2 removes))
      have agrees := connection.agreesButBacklog_deliverAll (hub.handed id request) hub.outboxes
      let given := (connection.deliverAll (hub.handed id request) hub.outboxes).2
      refine ⟨given.1, receives.entry, agrees.link_eq, agrees.generation_eq, ?_⟩
      have same : given.1.stored (hub.serve request).2.outboxes = given.1.stored given.2 :=
        Connection.stored_congr fun box attached =>
          receives.outbox box (agrees.link_eq ▸ attached)
      have grown : (given.1.stored given.2).Sublist
          (connection.stored hub.outboxes ++ hub.handed id request) :=
        Connection.stored_deliverAll_sublist caughtUp
          (settled.consistent.filed id connection present).fits _
      rw [← same] at grown
      have joins : hub.joinedBy id outbox (.serve request) = hub.handed id request :=
        List.append_nil _
      rw [joins]
      exact grown
  | stop => exact absurd (hub.get?_closeAll id) stays
  | bring other capacity =>
      refine ⟨connection, ?_, rfl, rfl, ?_⟩
      · rcases hub.bring_cases other capacity with result | ⟨_, result⟩ <;> rw [result] <;>
          exact present
      · have same : connection.stored (hub.step (.bring other capacity)).outboxes =
            connection.stored hub.outboxes := by
          refine Connection.stored_congr fun attached link => ?_
          obtain rfl := Link.live.inj (live.symm.trans link)
          rcases hub.bring_cases other capacity with result | ⟨absent, result⟩ <;> rw [result]
          refine Table.get?_set_of_ne _ ?_ _
          rintro rfl
          rw [absent] at found
          cases found
        rw [same]
        exact List.sublist_append_left _ _
  | act other act =>
      refine ⟨connection, present, rfl, rfl, ?_⟩
      by_cases own : other = outbox
      · subst own
        have after : (hub.step (.act other act)).outboxes.get? other = some (act.apply box) := by
          simp [step, Table.get?_modify, found]
        rw [Connection.stored_of_live live after, Connection.stored_of_live live found]
        simpa [passedBy, found, joinedBy, handedBy] using act_sublist caughtUp live found act
      · have same : connection.stored (hub.step (.act other act)).outboxes =
            connection.stored hub.outboxes := by
          refine Connection.stored_congr fun attached link => ?_
          obtain rfl := Link.live.inj (live.symm.trans link)
          exact (Table.get?_modify _ _ _ _).trans (if_neg (Ne.symm own))
        simp [same, passedBy, own]
  | elapse moment =>
      exact ⟨connection, present, rfl, rfl, List.sublist_append_left _ _⟩

/-- Along a run in which its transport stays, a connection gets payloads in the order in
which they join its line. -/
theorem run_of_live (settled : hub.Settled)
    (fits : hub.settings.backlogCapacity ≤ hub.settings.queueCapacity)
    {events : List HubEvent} (orderly : hub.Orderly events)
    (present : hub.connections.get? id = some connection)
    (live : connection.link = .live outbox)
    (spares : ∀ event ∈ events, Spares id connection.generation event) {last : Connection}
    (stays : (hub.run events).connections.get? id = some last) :
    last.generation = connection.generation ∧
      (hub.passed outbox events ++ last.stored (hub.run events).outboxes).Sublist
        (connection.stored hub.outboxes ++ hub.joined id outbox events) := by
  induction events generalizing hub connection with
  | nil =>
      obtain rfl := Option.some.inj (present.symm.trans stays)
      exact ⟨rfl, List.sublist_append_left _ _⟩
  | cons event rest induction =>
      rw [List.forall_mem_cons] at spares
      have staysFirst : (hub.step event).connections.get? id ≠ none := by
        intro gone
        have absent := get?_run_of_absent gone spares.2
        rw [run_cons, absent] at stays
        cases stays
      obtain ⟨middle, there, link, generation, first⟩ :=
        step_of_live settled orderly.1 present live spares.1 staysFirst
      obtain ⟨sameGeneration, later⟩ := induction (settled.step fits orderly.1)
        (by rwa [hub.settings_step event]) orderly.2 there (link.trans live)
        (by rw [generation]; exact spares.2) stays
      refine ⟨sameGeneration.trans generation, ?_⟩
      rw [passed, joined, List.append_assoc, ← List.append_assoc (connection.stored _)]
      refine (later.append_left _).trans ?_
      rw [← List.append_assoc]
      exact first.append_right _

/-! ## Late hand-backs -/

/-- A registration that takes a connection over gives it the next generation. -/
theorem generation_of_takeover {attached : Connection}
    (present : hub.connections.get? id = some connection) (name : DisplayName)
    (entry : (hub.register id name outbox).2.connections.get? id = some attached) :
    attached.generation = hub.lastGeneration + 1 ∧
      (hub.register id name outbox).2.lastGeneration = hub.lastGeneration + 1 := by
  rcases hub.register_cases id name outbox with
    ⟨before, _, result⟩ | ⟨_, absent, _⟩ | ⟨absent, _⟩
  · rw [result] at entry ⊢
    rw [Table.get?_set_self] at entry
    obtain rfl := Option.some.inj entry
    exact ⟨by rw [Connection.attach_eq], rfl⟩
  · exact absurd (absent.symm.trans present) (by simp)
  · exact absurd (absent.symm.trans present) (by simp)

/-- What is handed back for a superseded transport joins the line. -/
theorem joinedBy_of_superseded (present : hub.connections.get? id = some connection)
    {generation : Generation} (superseded : connection.generation ≠ generation)
    (undelivered : List Payload) (outbox : OutboxId) :
    hub.joinedBy id outbox (.serve (.detach id generation undelivered)) = undelivered := by
  simp [joinedBy, handedBy, handed, addressed, handedBack, confirmedBy, present, superseded]

/-- Without losses all of it gets into the line. -/
theorem stored_of_superseded (settled : hub.Settled)
    (present : hub.connections.get? id = some connection) {generation : Generation}
    (superseded : connection.generation ≠ generation) {undelivered : List Payload}
    (kept : ∀ delivery ∈ (connection.deliverAll undelivered hub.outboxes).1,
      delivery.isKept = true) :
    ∃ revised,
      (hub.detach id generation undelivered).connections.get? id = some revised ∧
        revised.stored (hub.detach id generation undelivered).outboxes =
          connection.stored hub.outboxes ++ undelivered := by
  rcases hub.detach_cases id generation undelivered with
    ⟨absent, _⟩ | ⟨entry, found, _, result⟩ | ⟨_, found, same, _⟩ | ⟨_, found, same, _⟩
  · rw [absent] at present
    cases present
  · obtain rfl := Option.some.inj (found.symm.trans present)
    rw [result]
    exact ⟨_, Table.get?_set_self _ _ _,
      Connection.stored_deliverAll (settled.caughtUp id entry present) kept⟩
  · obtain rfl := Option.some.inj (found.symm.trans present)
    exact absurd same superseded
  · obtain rfl := Option.some.inj (found.symm.trans present)
    exact absurd same superseded

/-- What a superseded transport hands back late joins the end of the line.  Along every
run in which each registration brings a fresh outbox, let a registration take over a
connection that is still attached, and let the superseded transport hand back later what
it could not write, while the new transport stays.  What the new transport gets is then,
in this order, what waited at the takeover, what has come in since, what is handed back,
and what comes in after that.  So the payloads that are handed back come before all that
the hub has delivered since the takeover when it has delivered nothing in between; and
whatever is handed back without a loss does get into the line. -/
theorem late_hand_back_joins_the_end (settings : Settings) (startedAt : Stamp)
    (fit : settings.fault = none) (before middle after : List HubEvent) (id : ConnectionId)
    (name : DisplayName) (outbox : OutboxId) (connection last : Connection)
    (undelivered : List Payload) :
    let start := Hub.new settings startedAt
    let takeover := HubEvent.serve (.register id name outbox)
    let handBack := HubEvent.serve (.detach id connection.generation undelivered)
    let taken := (start.run before).step takeover
    let met := taken.run middle
    let returned := met.step handBack
    let line := taken.passed outbox (middle ++ handBack :: after) ++
      last.stored (returned.run after).outboxes
    start.Orderly (before ++ takeover :: (middle ++ handBack :: after)) →
    (start.run before).connections.get? id = some connection →
    connection.isLive = true →
    (∀ event ∈ middle ++ after, Spares id taken.lastGeneration event) →
    (returned.run after).connections.get? id = some last →
    line.Sublist (connection.backlog.held ++ (taken.joined id outbox middle ++
        (undelivered ++ returned.joined id outbox after))) ∧
      (taken.handedAll id middle = [] →
        line.Sublist (connection.backlog.held ++ (middle.flatMap (confirmedBy outbox) ++
          (undelivered ++ returned.joined id outbox after)))) ∧
      ∃ there, met.connections.get? id = some there ∧
        ((∀ delivery ∈ (there.deliverAll undelivered met.outboxes).1, delivery.isKept = true) →
          ∃ revised, returned.connections.get? id = some revised ∧
            revised.stored returned.outboxes = there.stored met.outboxes ++ undelivered) := by
  intro start takeover handBack taken met returned line orderly present _ spares stays
  have fits : settings.backlogCapacity ≤ settings.queueCapacity :=
    Settings.backlogCapacity_le_queueCapacity fit
  have sameSettings : (start.run before).settings = settings := start.settings_run before
  have takenSettings : taken.settings = settings :=
    ((start.run before).settings_step takeover).trans sameSettings
  obtain ⟨orderlyBefore, unused, orderlyTaken⟩ := Orderly.append orderly
  have granted : Granted (start.grants before) (start.run before) :=
    (Granted.new settings startedAt).run before
  have settled : (start.run before).Settled :=
    (Settled.new settings startedAt).run fits orderlyBefore
  have settledTaken : taken.Settled := settled.step (by rwa [sameSettings]) unused
  obtain ⟨⟨attached, entry, live, nothing⟩, replayed⟩ :=
    register_of_detached settled (by rwa [sameSettings]) present unused name
  obtain ⟨generation, given⟩ := generation_of_takeover present name entry
  have newest : attached.generation = taken.lastGeneration := generation.trans given.symm
  have superseded : attached.generation ≠ connection.generation := by
    intro same
    have bounded := granted.le present
    rw [← same, generation] at bounded
    exact Nat.not_succ_le_self _ bounded
  have waited : attached.stored taken.outboxes = connection.backlog.held := by
    refine (Connection.stored_of_live live replayed).trans ?_
    rw [nothing, List.append_nil]
  rw [← newest] at spares
  have sparesAll : ∀ event ∈ middle ++ handBack :: after,
      Spares id attached.generation event := by
    intro event member
    rcases List.mem_append.1 member with early | late
    · exact spares event (List.mem_append_left _ early)
    · rcases List.mem_cons.1 late with rfl | later
      · exact fun both => superseded both.2.symm
      · exact spares event (List.mem_append_right _ later)
  have whole : taken.run (middle ++ handBack :: after) = returned.run after := by
    rw [run_append, run_cons]
  have sublist := (run_of_live settledTaken (by rwa [takenSettings]) orderlyTaken entry live
    sparesAll (whole ▸ stays)).2
  obtain ⟨there, found⟩ : ∃ there, met.connections.get? id = some there := by
    refine Option.ne_none_iff_exists'.1 fun gone => ?_
    have absent := get?_run_of_absent gone fun event member =>
      sparesAll event (List.mem_append_right middle member)
    rw [run_cons] at absent
    exact absurd (absent.symm.trans stays) (by simp)
  have sameGeneration := (run_of_live settledTaken (by rwa [takenSettings])
    (Orderly.append orderlyTaken).1 entry live
    (fun event member => sparesAll event (List.mem_append_left _ member)) found).1
  have supersededThere : there.generation ≠ connection.generation := sameGeneration ▸ superseded
  have joins : taken.joined id outbox (middle ++ handBack :: after) =
      taken.joined id outbox middle ++ (undelivered ++ returned.joined id outbox after) := by
    rw [joined_append, joined, joinedBy_of_superseded found supersededThere]
  rw [whole, waited, joins] at sublist
  refine ⟨sublist, fun quiet => ?_, there, found, fun kept => ?_⟩
  · rw [joined_of_handedAll_eq_nil quiet] at sublist
    exact sublist
  · have settledMet : met.Settled :=
      settledTaken.run (by rwa [takenSettings]) (Orderly.append orderlyTaken).1
    exact stored_of_superseded settledMet found supersededThere kept

/-- The superseded transport leaves and hands back a payload before the next one comes:
the new transport gets them in this order. -/
theorem hand_back_in_order :
    let alice : ConnectionId := ⟨"alice", by decide⟩
    let settings : Settings := {}
    let before : List HubEvent := [.bring 0 256, .serve (.register alice .default 0),
      .serve (.broadcast "old"), .bring 1 256]
    let middle : List HubEvent := [.act 0 .abandon]
    let after : List HubEvent := [.serve (.broadcast "new"), .act 1 (.take 1)]
    let lost : Connection :=
      { id := alice, name := .default, generation := 1, link := .live 0,
        backlog := { capacity := 100 }, connectedAt := 0 }
    let last : Connection := { lost with generation := 2, link := .live 1 }
    let handBack := HubEvent.serve (.detach alice lost.generation ["old"])
    let taken := ((Hub.new settings 0).run before).step (.serve (.register alice .default 1))
    let returned := (taken.run middle).step handBack
    settings.fault = none ∧ taken.handedAll alice middle = [] ∧
      (returned.run after).connections.get? alice = some last ∧
      returned.joined alice 1 after = ["new"] ∧
      (taken.passed 1 (middle ++ handBack :: after) ++
        last.stored (returned.run after).outboxes).Sublist
          (lost.backlog.held ++ (middle.flatMap (confirmedBy 1) ++
            (["old"] ++ returned.joined alice 1 after))) := by
  intro alice settings before middle after lost last handBack taken returned
  have fit : settings.fault = none := by decide
  have quiet : taken.handedAll alice middle = [] := by decide
  have stays : (returned.run after).connections.get? alice = some last := by decide
  have law := late_hand_back_joins_the_end settings 0 fit before middle after alice .default 1
    lost last ["old"] (by decide) (by decide) rfl (by decide) stays
  exact ⟨fit, quiet, stays, by decide, law.2.1 quiet⟩

/-- A payload that was put into the outbox of one transport before another was delivered
to its successor reaches the successor after that one, when the first transport hands it
back late. -/
theorem hand_back_out_of_order :
    let alice : ConnectionId := ⟨"alice", by decide⟩
    let before : List HubEvent := [.bring 0 256, .serve (.register alice .default 0),
      .serve (.broadcast "old"), .bring 1 256]
    let superseded := (Hub.new {} 0).run before
    let taken := superseded.step (.serve (.register alice .default 1))
    let met := taken.run [.serve (.broadcast "new")]
    let returned := met.step (.serve (.detach alice 1 ["old"]))
    superseded.heldIn 0 = ["old"] ∧ met.heldIn 1 = ["new"] ∧
      returned.heldIn 1 = ["new", "old"] ∧ ¬["old", "new"].Sublist (returned.heldIn 1) := by
  decide

end Hub
end Parley
