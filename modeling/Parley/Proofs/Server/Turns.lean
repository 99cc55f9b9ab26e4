import Parley.Proofs.Server.ServeSteps

/-!
# Transports take turns

Outboxes are numbered in the order of the upgrades, and registrations wait in the
mailbox in this order.  So the transports that carry payloads to the peer of a
connection come one after the other, and none comes back once the next has begun.
-/

namespace Parley
namespace Server

/-- The outbox that a connection is attached to. -/
def linked (server : Server) (id : ConnectionId) : List OutboxId :=
  ((server.broker.hub.connections.get? id).bind Connection.outbox?).toList

/-- The outboxes of the registrations that wait. -/
def brought (server : Server) : List OutboxId :=
  server.broker.mailbox.filterMap fun letter => letter.request.outbox?

/-- The transports that carried something to the peer of a connection, the one that it
is attached to, and those that are about to come. -/
structure TakesTurns (server : Server) (id : ConnectionId) (used : List OutboxId) : Prop where
  ordered : (used ++ (server.linked id ++ server.brought)).Pairwise (· ≤ ·)
  made : ∀ key ∈ used, key < server.nextOutbox

variable {server later : Server} {id : ConnectionId} {used : List OutboxId} {key : OutboxId}

theorem mem_linked_iff : key ∈ server.linked id ↔
    ∃ connection, server.broker.hub.connections.get? id = some connection ∧
      connection.link = .live key := by
  simp [linked, Option.bind_eq_some_iff, Connection.outbox?_eq_some_iff]

theorem linked_eq_of_mem (member : key ∈ server.linked id) : server.linked id = [key] := by
  unfold linked at *
  rw [Option.mem_toList] at member
  rw [member]
  rfl

theorem linked_cases (server : Server) (id : ConnectionId) :
    server.linked id = [] ∨ ∃ key, server.linked id = [key] := by
  cases linked : server.linked id with
  | nil => exact .inl rfl
  | cons key others =>
      have member : key ∈ server.linked id := by
        rw [linked]
        exact List.mem_cons_self
      exact .inr ⟨key, linked.symm.trans (linked_eq_of_mem member)⟩

theorem Wired.lt_of_linked (wired : server.Wired) (member : key ∈ server.linked id) :
    key < server.nextOutbox := by
  obtain ⟨connection, present, link⟩ := mem_linked_iff.1 member
  exact wired.lt_of_attached (Hub.mem_attached_iff.2 ⟨id, connection, present, link⟩)

theorem Wired.lt_of_brought (wired : server.Wired) (member : key ∈ server.brought) :
    key < server.nextOutbox := by
  obtain ⟨letter, waits, brings⟩ := List.mem_filterMap.1 member
  obtain ⟨session, present, _⟩ := wired.registered letter waits key brings
  obtain ⟨box, found⟩ := wired.boxed key session present
  exact wired.below key box found

theorem TakesTurns.new (settings : Settings) (startedAt : Stamp) (id : ConnectionId) :
    (Server.new settings startedAt).TakesTurns id [] where
  ordered := List.Pairwise.nil
  made _ member := by cases member

/-- Nobody new gets a turn. -/
theorem TakesTurns.sublist (turns : server.TakesTurns id used)
    (fewer : (later.linked id ++ later.brought).Sublist (server.linked id ++ server.brought))
    (made : server.nextOutbox ≤ later.nextOutbox) : later.TakesTurns id used where
  ordered := turns.ordered.sublist (fewer.append_left used)
  made key member := Nat.lt_of_lt_of_le (turns.made key member) made

/-- The transport whose turn it is carries something to the peer. -/
theorem TakesTurns.carry (turns : server.TakesTurns id used) (wired : server.Wired)
    (linked : key ∈ server.linked id) : server.TakesTurns id (used ++ [key]) where
  ordered := by
    have ordered := turns.ordered
    rw [linked_eq_of_mem linked] at ordered ⊢
    simp only [List.pairwise_append, List.pairwise_cons, List.mem_append, List.mem_cons] at *
    grind
  made other member := by
    rcases List.mem_append.1 member with earlier | last
    · exact turns.made other earlier
    · rw [List.mem_singleton.1 last]
      exact wired.lt_of_linked linked

/-- The last place in the line is for a new session. -/
theorem TakesTurns.join (turns : server.TakesTurns id used) (wired : server.Wired)
    (linked : later.linked id = server.linked id)
    (brought : later.brought = server.brought ++ [server.nextOutbox])
    (made : later.nextOutbox = server.nextOutbox + 1) : later.TakesTurns id used where
  ordered := by
    rw [linked, brought, ← List.append_assoc, ← List.append_assoc, List.pairwise_append]
    refine ⟨by simpa using turns.ordered, by simp, fun key member last equal => ?_⟩
    rw [List.mem_singleton.1 equal]
    refine Nat.le_of_lt ?_
    rcases List.mem_append.1 member with earlier | waits
    · rcases List.mem_append.1 earlier with before | attached
      · exact turns.made key before
      · exact wired.lt_of_linked attached
    · exact wired.lt_of_brought waits
  made key member := by
    rw [made]
    exact Nat.lt_succ_of_lt (turns.made key member)

/-! ## Steps -/

theorem brought_submit (server : Server) {request : Request} (plain : request.outbox? = none) :
    (server.submit request).2.brought = server.brought := by
  cases running : server.broker.running with
  | true =>
      rw [submit_of_running running]
      simp [brought, plain]
  | false =>
      rw [submit_of_stopped running plain]
      rfl

theorem TakesTurns.submit (turns : server.TakesTurns id used) {request : Request}
    (plain : request.outbox? = none) : (server.submit request).2.TakesTurns id used := by
  refine turns.sublist ?_ (Nat.le_refl _)
  rw [brought_submit server plain, linked, hub_submit server plain]
  exact .refl _

theorem TakesTurns.upgrade (turns : server.TakesTurns id used) (wired : server.Wired)
    (admission : Admission) : (server.upgrade admission).2.TakesTurns id used := by
  cases running : server.broker.running with
  | true =>
      rw [upgrade_of_running running]
      exact turns.join wired rfl (by simp [brought, Admission.registration, Request.outbox?]) rfl
  | false =>
      rw [upgrade_of_stopped running]
      exact turns.sublist (.refl _) (Nat.le_succ _)

theorem TakesTurns.progress (turns : server.TakesTurns id used) {session entry : Session}
    {box laterBox : Outbox} {request : Option Request} {carried added : List Payload}
    (moves : session.Moves server box entry laterBox request carried added) (key : OutboxId) :
    (server.progress key entry laterBox request).TakesTurns id used := by
  cases request with
  | none => exact turns.sublist (.refl _) (Nat.le_refl _)
  | some sent => exact (turns.submit (moves.plain rfl)).sublist (.refl _) (Nat.le_refl _)

theorem TakesTurns.tick (turns : server.TakesTurns id used) (moment : Moment) :
    (server.tick moment).TakesTurns id used :=
  @tick_keeps (fun server => server.TakesTurns id used) server moment
    (fun _ _ => turns.sublist (.refl _) (Nat.le_refl _)) fun _ _ _ kept => kept.submit rfl

/-- Whoever is registered was the next in line. -/
theorem TakesTurns.serve (turns : server.TakesTurns id used) (wired : server.Wired) :
    (server.step .serve).TakesTurns id used := by
  simp only [step]
  rcases serveNext_cases wired.numbered with ⟨_, same⟩ | ⟨letter, rest, _, letters, result⟩
  · rw [same]
    exact turns
  · have served : (server.served letter rest).TakesTurns id used := by
      refine turns.sublist ?_ (Nat.le_refl _)
      have waiting : server.brought =
          letter.request.outbox?.toList ++ (server.served letter rest).brought := by
        unfold brought Server.served
        rw [letters, List.filterMap_cons]
        cases letter.request.outbox? <;> rfl
      rw [waiting, ← List.append_assoc]
      refine List.Sublist.append_right ?_ _
      rcases (server.served letter rest).linked_cases id with nobody | ⟨key, attached⟩
      · rw [nobody]
        exact List.nil_sublist _
      · obtain ⟨connection, present, link⟩ := mem_linked_iff.1
          (attached ▸ List.mem_singleton_self key : key ∈ (server.served letter rest).linked id)
        rw [attached]
        rcases Hub.link_serve present link with before | ⟨name, registers⟩
        · rw [linked_eq_of_mem (mem_linked_iff.2 before)]
          exact List.sublist_append_left _ _
        · rw [registers]
          exact List.sublist_append_right _ _
    rw [result]
    split
    · refine served.sublist ?_ (Nat.le_refl _)
      have turned := (server.served letter rest).broker.turnsAway_stop
      have nobody : (server.served letter rest).halted.linked id = [] := by
        simp [linked, halted, turned.connections, Hub.get?_closeAll]
      have nothing : (server.served letter rest).halted.brought = [] := by
        simp [brought, halted, turned.mailbox]
      rw [nobody, nothing]
      exact List.nil_sublist _
    · exact served

/-- Only the transport that a connection is attached to has a writer. -/
theorem Follows.linked_of_writer {waiting : List Payload} (follows : server.Follows id waiting)
    {session : Session} {writer : Writer} (present : server.sessions.get? key = some session)
    (own : session.admission.id = id) (writing : session.writer? = some writer) :
    key ∈ server.linked id := by
  refine Classical.byContradiction fun apart => ?_
  have dormant := follows.dormant key session present own fun connection there link =>
    apart (mem_linked_iff.2 ⟨connection, there, link⟩)
  unfold Dormant at dormant
  rcases Session.exists_of_writer? writing with ⟨_, _, stage⟩ | ⟨_, _, stage⟩ <;>
    simp [stage] at dormant

/-- A step carries nothing to the peer, or one batch of a session with a writer. -/
theorem frameBy_cases (server : Server) (id : ConnectionId) (step : ServerStep) :
    server.frameBy id step = [] ∨ ∃ key session writer payloads,
      server.frameBy id step = [(key, payloads)] ∧ server.sessions.get? key = some session ∧
        session.admission.id = id ∧ session.writer? = some writer := by
  unfold frameBy
  split
  · rename_i key
    cases present : server.sessions.get? key with
    | none => exact .inl rfl
    | some session =>
        by_cases own : session.admission.id = id
        · cases writing : session.writer? with
          | none => simp [writing]
          | some writer =>
              dsimp only
              rw [if_pos own]
              split
              · exact .inr ⟨key, session, writer, _, rfl, present, own, writing⟩
              · exact .inl rfl
        · exact .inl (if_neg own)
  · exact .inl rfl

/-- Every step leaves the line in order. -/
theorem TakesTurns.step (turns : server.TakesTurns id used) (wired : server.Wired)
    {waiting : List Payload} (follows : server.Follows id waiting) {step : ServerStep}
    (plain : ∀ request, step = .submit request → request.outbox? = none) :
    (server.step step).TakesTurns id (used ++ (server.frameBy id step).map Prod.fst) := by
  have carried : server.TakesTurns id (used ++ (server.frameBy id step).map Prod.fst) := by
    rcases server.frameBy_cases id step with
      nothing | ⟨key, session, writer, payloads, frame, present, own, writing⟩
    · rw [nothing]
      simpa using turns
    · rw [frame]
      exact turns.carry wired (follows.linked_of_writer present own writing)
  cases concerns : step.session? with
  | some key =>
      rcases idles_or_advances concerns (wired.boxed key) with
        idles | ⟨session, box, entry, laterBox, request, _, _, advances⟩
      · rw [idles.result]
        exact carried
      · rw [advances.result]
        exact carried.progress advances.moves key
  | none =>
      cases step with
      | upgrade admission => exact carried.upgrade wired admission
      | submit request => exact carried.submit (plain request rfl)
      | tick moment =>
          exact carried.tick moment
      | serve => exact carried.serve wired
      | _ => cases concerns

end Server
end Parley
