import Parley.Proofs.Broker.Run

/-!
# Brokers at rest

A broker that serves as often as letters wait, and once more, has nothing left to do,
and serving more often changes nothing.  So a request that is sent and waited for finds
the hub as the letters before it leave it, and nothing comes between its answer and the
state of the hub right after it.
-/

namespace Parley
namespace Broker

variable {broker : Broker}

/-! ## Serving until nothing is left -/

theorem repeat_serveNext (count : Nat) (broker : Broker) :
    (count + 1).repeat serveNext broker = count.repeat serveNext broker.serveNext := by
  induction count with
  | zero => rfl
  | succ count induction => exact congrArg serveNext induction

theorem Idle.repeat (idle : broker.Idle) (count : Nat) :
    count.repeat serveNext broker = broker := by
  induction count with
  | zero => rfl
  | succ count induction => exact (congrArg serveNext induction).trans idle

/-- A broker that runs has one letter less after it has served. -/
theorem length_serveNext_le (broker : Broker) (running : broker.running = true) :
    broker.serveNext.mailbox.length ≤ broker.mailbox.length - 1 := by
  rcases broker.serveNext_possibilities with
    ⟨idle, settled⟩ | ⟨_, _, _, result⟩ | ⟨letter, rest, _, letters, ⟨_, result⟩ | ⟨_, result⟩⟩
  · rw [idle, (settled running).1]
    simp
  · simp [result, mailbox_stop]
  · simp [result, letters, serving]
  · simp [result, mailbox_stop]

/-- Serving as often as letters wait, and once more, leaves nothing to do. -/
theorem idle_repeat {count : Nat} (enough : broker.mailbox.length ≤ count) :
    ((count + 1).repeat serveNext broker).Idle := by
  induction count generalizing broker with
  | zero =>
      have letters : broker.mailbox = [] := List.length_eq_zero_iff.1 (Nat.le_zero.1 enough)
      rcases broker.serveNext_possibilities with
        ⟨idle, _⟩ | ⟨_, _, _, result⟩ | ⟨letter, rest, _, waiting, _⟩
      · rwa [idle.repeat]
      · change broker.serveNext.Idle
        rw [result]
        exact idle_of_stopped broker.running_stop
      · rw [letters] at waiting
        cases waiting
  | succ count induction =>
      cases running : broker.running with
      | false =>
          have idle := idle_of_stopped running
          rwa [idle.repeat]
      | true =>
          rw [repeat_serveNext]
          have shorter := broker.length_serveNext_le running
          exact induction (by omega)

theorem idle_settle (broker : Broker) : broker.settle.Idle := idle_repeat (Nat.le_refl _)

theorem Idle.settle_eq (idle : broker.Idle) : broker.settle = broker := idle.repeat _

/-- Serving more often than needed changes nothing. -/
theorem repeat_eq_settle {count : Nat} (enough : broker.mailbox.length ≤ count) :
    (count + 1).repeat serveNext broker = broker.settle := by
  obtain ⟨extra, rfl⟩ := Nat.exists_eq_add_of_le enough
  induction extra with
  | zero => rfl
  | succ extra induction =>
      have idle := idle_repeat (Nat.le_add_right broker.mailbox.length extra)
      exact idle.trans (induction (Nat.le_add_right _ _))

theorem settle_serveNext (broker : Broker) : broker.serveNext.settle = broker.settle := by
  have shorter : broker.serveNext.mailbox.length ≤ broker.mailbox.length := by
    cases running : broker.running with
    | false =>
        have same : broker.serveNext = broker := idle_of_stopped running
        exact Nat.le_of_eq (by rw [same])
    | true => exact Nat.le_trans (broker.length_serveNext_le running) (Nat.sub_le _ _)
  rw [← repeat_eq_settle shorter, ← repeat_serveNext]
  exact repeat_eq_settle (Nat.le_succ _)

/-- What serving keeps, settling keeps. -/
theorem settle_keeps (Kept : Broker → Prop)
    (serveKeeps : ∀ broker, Kept broker → Kept (serveNext broker))
    (broker : Broker) (start : Kept broker) : Kept broker.settle := by
  unfold settle
  generalize broker.mailbox.length + 1 = count
  induction count with
  | zero => exact start
  | succ count induction => exact serveKeeps _ induction

theorem running_of_running_settle (running : broker.settle.running = true) :
    broker.running = true :=
  settle_keeps (fun later => later.running = true → broker.running = true)
    (fun _ earlier running => earlier (running_of_running_serveNext running)) broker id running

/-- Serving changes neither who can reach the broker nor the next ticket. -/
theorem outside_serveNext (broker : Broker) :
    broker.serveNext.reachable = broker.reachable ∧
      broker.serveNext.nextTicket = broker.nextTicket := by
  have stopped (broker : Broker) :
      broker.stop.reachable = broker.reachable ∧ broker.stop.nextTicket = broker.nextTicket :=
    ⟨broker.turnsAway_stop.reachable, broker.turnsAway_stop.nextTicket⟩
  rcases broker.serveNext_possibilities with
    ⟨idle, _⟩ | ⟨_, _, _, result⟩ | ⟨letter, rest, _, _, ⟨_, result⟩ | ⟨_, result⟩⟩
  · rw [idle]
    exact ⟨rfl, rfl⟩
  · rw [result]
    exact stopped broker
  · rw [result]
    exact ⟨rfl, rfl⟩
  · rw [result]
    exact stopped (broker.serving letter rest)

theorem outside_settle (broker : Broker) :
    broker.settle.reachable = broker.reachable ∧
      broker.settle.nextTicket = broker.nextTicket :=
  settle_keeps
    (fun later => later.reachable = broker.reachable ∧ later.nextTicket = broker.nextTicket)
    (fun later same => ⟨later.outside_serveNext.1.trans same.1,
      later.outside_serveNext.2.trans same.2⟩) broker ⟨rfl, rfl⟩

/-! ## Requests that are waited for -/

/-- Turning letters away does not depend on the next ticket. -/
theorem foldl_turnAway_number (letters : List Letter) (broker : Broker) (nextTicket : Ticket) :
    letters.foldl turnAway { broker with nextTicket } =
      { letters.foldl turnAway broker with nextTicket } := by
  induction letters generalizing broker with
  | nil => rfl
  | cons letter rest induction =>
      have first : ({ broker with nextTicket } : Broker).turnAway letter =
          { broker.turnAway letter with nextTicket } := by
        rw [turnAway_eq, turnAway_eq]
        rfl
      rw [List.foldl_cons, List.foldl_cons, first, induction]

/-- A request that comes while others wait can as well come after the oldest of them was
served. -/
theorem serveNext_post {letter : Letter} {rest : List Letter} (running : broker.running = true)
    (letters : broker.mailbox = letter :: rest) (request : Request) :
    (broker.post request).2.serveNext = (broker.serveNext.post request).2 := by
  let last : Letter := ⟨broker.nextTicket, request⟩
  have posted : (broker.post request).2.mailbox = letter :: (rest ++ [last]) := by
    rw [post_of_running running]
    exact congrArg (· ++ [last]) letters
  have still : (broker.post request).2.running = true :=
    (broker.running_post request).trans running
  rw [serveNext_of_letter still posted, serveNext_of_letter running letters]
  by_cases closing : letter.request = .shutdown
  · rw [if_pos closing, if_pos closing]
    have stopped := (broker.serving letter rest).running_stop
    have ticket : (broker.serving letter rest).stop.nextTicket = broker.nextTicket :=
      (broker.serving letter rest).turnsAway_stop.nextTicket
    rw [post_of_stopped stopped, ticket, post_of_running running]
    -- the request is the last of the letters that the stop turns away
    unfold stop serving
    dsimp only
    rw [List.foldl_append, List.foldl_cons, List.foldl_nil, turnAway_eq]
    have renumbered := foldl_turnAway_number rest
      { broker with
        hub := (broker.hub.serve letter.request).2.closeAll
        mailbox := []
        replies := broker.replied letter (broker.hub.serve letter.request).1
        running := false } (broker.nextTicket + 1)
    exact congrArg
      (fun left : Broker =>
        { left with
          hub := request.outbox?.elim left.hub left.hub.release
          replies := left.replied last (.error .stopped) }) renumbered
  · have served : (broker.serving letter rest).running = true := running
    rw [if_neg closing, if_neg closing, post_of_running running, post_of_running served]
    rfl

/-- A request can as well come when everything before it has been served. -/
theorem settle_post (reachable : broker.reachable = true) (request : Request) :
    (broker.post request).2.settle = (broker.settle.post request).2.settle := by
  generalize waiting : broker.mailbox.length = count
  induction count using Nat.strongRecOn generalizing broker with
  | ind count induction =>
      rcases broker.serveNext_possibilities with
        ⟨idle, _⟩ | ⟨_, _, unreachable, _⟩ | ⟨letter, rest, running, letters, _⟩
      · rw [idle.settle_eq]
      · rw [reachable] at unreachable
        cases unreachable
      · have shorter := broker.length_serveNext_le running
        rw [waiting] at shorter
        rw [letters, List.length_cons] at waiting
        rw [← settle_serveNext (broker.post request).2, serveNext_post running letters,
          induction _ (by omega) (broker.outside_serveNext.1.trans reachable) rfl,
          settle_serveNext]

theorem snd_submit (broker : Broker) (request : Request) :
    (broker.submit request).2 = (broker.post request).2 := rfl

/-- What an asked broker answers: at once what it turns away or is not waited for, and
otherwise what it notes for the ticket. -/
theorem ask_eq (broker : Broker) (request : Request) :
    broker.ask request =
      (if broker.running = false then .error .stopped
        else if request.awaited = true then
          ((broker.post request).2.settle.replies.get? broker.nextTicket).getD (.error .stopped)
        else .ok .done,
        (broker.post request).2.settle) := by
  have ticket : (broker.post request).1 = broker.nextTicket := rfl
  cases running : broker.running <;> cases awaited : request.awaited <;>
    simp [ask, submit, running, awaited, ticket]

/-- A hub that serves a request nobody waits for is done with it. -/
theorem fst_serve_of_not_awaited (hub : Hub) {request : Request}
    (silent : request.awaited = false) : (hub.serve request).1 = .ok .done := by
  cases request with
  | unregister id generation => rfl
  | detach id generation undelivered => rfl
  | expire id generation => rfl
  | broadcast payload => rfl
  | sendToRoom room payload sender => rfl
  | sendToName name payload => rfl
  | _ => cases silent

/-- A broker that still runs when it has served what waits answers a request with the
outcome of the hub, and nothing else happens. -/
theorem ask_of_running (reachable : broker.reachable = true)
    (running : broker.settle.running = true) {request : Request} (ordinary : request ≠ .shutdown) :
    broker.ask request =
      ((broker.settle.hub.serve request).1,
        ({ broker.settle with nextTicket := broker.nextTicket + 1 } : Broker).serving
          ⟨broker.nextTicket, request⟩ []) := by
  have before := running_of_running_settle running
  obtain ⟨letters, _⟩ := broker.idle_settle.empty running
  have ticket := broker.outside_settle.2
  let last : Letter := ⟨broker.nextTicket, request⟩
  let asked : Broker :=
    { broker.settle with mailbox := [last], nextTicket := broker.nextTicket + 1 }
  have posted : (broker.settle.post request).2 = asked := by
    rw [post_of_running running, letters, ticket]
    rfl
  have settled : (broker.post request).2.settle = asked.serving last [] := by
    have still : asked.running = true := running
    have served : asked.serveNext = asked.serving last [] :=
      (serveNext_of_letter still rfl).trans (if_neg ordinary)
    have idle : (asked.serving last []).Idle :=
      idle_of_empty rfl (broker.outside_settle.1.trans reachable)
    rw [settle_post reachable, posted, ← settle_serveNext, served, idle.settle_eq]
  rw [ask_eq, settled, if_neg (by simp [before])]
  refine Prod.ext ?_ rfl
  dsimp only
  cases awaited : request.awaited with
  | true =>
      have noted : (asked.serving last []).replies.get? last.ticket =
          some (asked.hub.serve request).1 := get?_replied_of_awaited asked awaited _
      exact congrArg (Option.getD · _) noted
  | false => exact (fst_serve_of_not_awaited _ awaited).symm

/-- A broker that stops before it comes to a request turns it away. -/
theorem ask_of_stopped (reachable : broker.reachable = true)
    (stopped : broker.settle.running = false) (request : Request) :
    (broker.ask request).2 = (broker.settle.post request).2 ∧
      ((broker.ask request).1 = .error .stopped ∨
        broker.running = true ∧ request.awaited = false ∧ (broker.ask request).1 = .ok .done) := by
  have halted : (broker.settle.post request).2.running = false :=
    (running_post _ _).trans stopped
  have settled : (broker.post request).2.settle = (broker.settle.post request).2 := by
    rw [settle_post reachable]
    exact (idle_of_stopped halted).settle_eq
  rw [ask_eq, settled]
  refine ⟨rfl, ?_⟩
  cases running : broker.running with
  | false => exact .inl rfl
  | true =>
      cases awaited : request.awaited with
      | false => exact .inr ⟨rfl, rfl, rfl⟩
      | true =>
          have noted : (broker.settle.replied ⟨broker.nextTicket, request⟩
              (.error .stopped)).get? broker.nextTicket = some (.error .stopped) :=
            get?_replied_of_awaited broker.settle awaited _
          refine .inl ?_
          rw [post_of_stopped stopped, broker.outside_settle.2]
          exact congrArg (Option.getD · _) noted

end Broker
end Parley
