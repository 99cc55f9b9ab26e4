import Parley.Proofs.Hub.Settled

/-!
# Letters and tickets

A broker numbers requests in the order in which they come and serves them in that
order, so a ticket names one request, and its answer is given once.
-/

namespace Parley

/-- Only a broker that has stopped answers that the hub is gone. -/
theorem Hub.serve_ne_stopped (hub : Hub) (request : Request) :
    (hub.serve request).1 ≠ .error .stopped := by
  cases request with
  | identify requested spare =>
      simp only [serve, identify]
      split
      · simp
      · split <;> simp
  | register id name outbox =>
      simp only [serve]
      rcases hub.register_cases id name outbox with
        ⟨_, _, result⟩ | ⟨_, _, result⟩ | ⟨_, result⟩ <;> simp [result]
  | joinRoom id room =>
      simp only [serve, joinRoom]
      split
      · simp
      · split <;> simp
  | _ => simp [serve]

namespace Broker

/-- Letters are numbered in order and not answered yet, a stopped broker knows no
connections, and no other broker has answered that it has stopped. -/
structure Numbered (broker : Broker) : Prop where
  ascending : (broker.mailbox.map Letter.ticket).Pairwise (· < ·)
  below : ∀ letter ∈ broker.mailbox, letter.ticket < broker.nextTicket
  answered : ∀ ticket, broker.replies.get? ticket ≠ none → ticket < broker.nextTicket
  unanswered : ∀ letter ∈ broker.mailbox, broker.replies.get? letter.ticket = none
  reachable : broker.reachable = true
  stopped : broker.running = false →
    broker.mailbox = [] ∧ ∀ id, broker.hub.connections.get? id = none
  unstopped : broker.running = true → ∀ ticket, broker.replies.get? ticket ≠ some (.error .stopped)

variable {broker : Broker}

/-- The replies after one more. -/
def replied (broker : Broker) (letter : Letter) (outcome : Outcome) : Table Ticket Outcome :=
  if letter.request.awaited then broker.replies.set letter.ticket outcome else broker.replies

theorem reply_eq (broker : Broker) (letter : Letter) (outcome : Outcome) :
    broker.reply letter outcome = { broker with replies := broker.replied letter outcome } := by
  unfold reply replied
  split <;> rfl

theorem get?_replied_of_ne (broker : Broker) {letter : Letter} {ticket : Ticket}
    (different : ticket ≠ letter.ticket) (outcome : Outcome) :
    (broker.replied letter outcome).get? ticket = broker.replies.get? ticket := by
  unfold replied
  split
  · exact broker.replies.get?_set_of_ne different outcome
  · rfl

theorem get?_replied_of_awaited (broker : Broker) {letter : Letter}
    (awaited : letter.request.awaited = true) (outcome : Outcome) :
    (broker.replied letter outcome).get? letter.ticket = some outcome := by
  unfold replied
  rw [if_pos awaited]
  exact Table.get?_set_self _ _ _

/-- A reply is the one given now, or was there before. -/
theorem get?_replied_cases (broker : Broker) (letter : Letter) (outcome : Outcome)
    (ticket : Ticket) :
    (ticket = letter.ticket ∧ (broker.replied letter outcome).get? ticket = some outcome) ∨
      (broker.replied letter outcome).get? ticket = broker.replies.get? ticket := by
  by_cases same : ticket = letter.ticket
  · subst same
    cases awaited : letter.request.awaited with
    | true => exact .inl ⟨rfl, broker.get?_replied_of_awaited awaited outcome⟩
    | false => exact .inr (by simp [replied, awaited])
  · exact .inr (broker.get?_replied_of_ne same outcome)

/-! ## Posting -/

theorem post_of_running (running : broker.running = true) (request : Request) :
    broker.post request =
      (broker.nextTicket,
        { broker with
          mailbox := broker.mailbox ++ [⟨broker.nextTicket, request⟩]
          nextTicket := broker.nextTicket + 1 }) := by
  simp [post, running]

/-- A request that is turned away lets go of its outbox and is answered. -/
theorem turnAway_eq (broker : Broker) (letter : Letter) :
    broker.turnAway letter =
      { broker with
        hub := letter.request.outbox?.elim broker.hub broker.hub.release
        replies := broker.replied letter (.error .stopped) } := by
  unfold turnAway
  cases letter.request.outbox? <;> rw [reply_eq] <;> rfl

theorem post_of_stopped (stopped : broker.running = false) (request : Request) :
    broker.post request =
      (broker.nextTicket,
        { broker with
          hub := request.outbox?.elim broker.hub broker.hub.release
          replies := broker.replied ⟨broker.nextTicket, request⟩ (.error .stopped)
          nextTicket := broker.nextTicket + 1 }) := by
  simp only [post, stopped, turnAway_eq]
  rfl

theorem Numbered.congr {later : Broker} (numbered : broker.Numbered)
    (mailbox : later.mailbox = broker.mailbox) (replies : later.replies = broker.replies)
    (nextTicket : later.nextTicket = broker.nextTicket) (running : later.running = broker.running)
    (reachable : later.reachable = broker.reachable)
    (connections : later.hub.connections = broker.hub.connections) : later.Numbered where
  ascending := by rw [mailbox]; exact numbered.ascending
  below := by rw [mailbox, nextTicket]; exact numbered.below
  answered := by rw [replies, nextTicket]; exact numbered.answered
  unanswered := by rw [mailbox, replies]; exact numbered.unanswered
  reachable := reachable.trans numbered.reachable
  stopped := by rw [running, mailbox, connections]; exact numbered.stopped
  unstopped := by rw [running, replies]; exact numbered.unstopped

/-- Letters with one ticket are one letter. -/
theorem Numbered.eq_of_ticket_eq (numbered : broker.Numbered) {first second : Letter}
    (left : first ∈ broker.mailbox) (right : second ∈ broker.mailbox)
    (same : first.ticket = second.ticket) : first = second := by
  have ascending := numbered.ascending
  rw [List.pairwise_map] at ascending
  obtain ⟨i, hi, rfl⟩ := List.getElem_of_mem left
  obtain ⟨j, hj, rfl⟩ := List.getElem_of_mem right
  have ordered := List.pairwise_iff_getElem.1 ascending
  rcases Nat.lt_trichotomy i j with before | equal | after
  · exact absurd same (Nat.ne_of_lt (ordered i j hi hj before))
  · subst equal
    rfl
  · exact absurd same (Nat.ne_of_gt (ordered j i hj hi after))

/-- A ticket that was not given out yet has no answer. -/
theorem Numbered.get?_nextTicket (numbered : broker.Numbered) :
    broker.replies.get? broker.nextTicket = none :=
  Classical.byContradiction fun answered =>
    Nat.lt_irrefl _ (numbered.answered broker.nextTicket answered)

theorem Numbered.post (numbered : broker.Numbered) (request : Request) :
    (broker.post request).2.Numbered := by
  cases running : broker.running with
  | true =>
      rw [post_of_running running]
      refine ⟨?_, ?_, ?_, ?_, numbered.reachable, ?_, ?_⟩
      · rw [List.map_append, List.pairwise_append]
        refine ⟨numbered.ascending, List.pairwise_singleton _ _, ?_⟩
        intro ticket member other last
        obtain ⟨letter, earlier, rfl⟩ := List.mem_map.1 member
        rw [List.map_singleton, List.mem_singleton] at last
        rw [last]
        exact numbered.below letter earlier
      · intro letter member
        rcases List.mem_append.1 member with earlier | last
        · exact Nat.lt_succ_of_lt (numbered.below letter earlier)
        · rw [List.mem_singleton.1 last]
          exact Nat.lt_succ_self _
      · exact fun ticket answered => Nat.lt_succ_of_lt (numbered.answered ticket answered)
      · intro letter member
        rcases List.mem_append.1 member with earlier | last
        · exact numbered.unanswered letter earlier
        · rw [List.mem_singleton.1 last]
          exact numbered.get?_nextTicket
      · intro stopped
        rw [running] at stopped
        cases stopped
      · exact fun _ => numbered.unstopped running
  | false =>
      obtain ⟨noLetters, noConnections⟩ := numbered.stopped running
      rw [post_of_stopped running]
      refine ⟨?_, ?_, ?_, ?_, numbered.reachable, fun _ => ⟨noLetters, fun id => ?_⟩, ?_⟩
      · simp [noLetters]
      · simp [noLetters]
      · intro ticket answered
        rcases broker.get?_replied_cases ⟨broker.nextTicket, request⟩ (.error .stopped) ticket
          with ⟨same, _⟩ | earlier
        · rw [same]
          exact Nat.lt_succ_self _
        · rw [earlier] at answered
          exact Nat.lt_succ_of_lt (numbered.answered ticket answered)
      · simp [noLetters]
      · cases request.outbox? <;> exact noConnections id
      · intro running'
        rw [running] at running'
        cases running'

/-! ## Serving -/

/-- What turning letters away can change. -/
structure TurnsAway (letters : List Letter) (before after : Broker) : Prop where
  mailbox : after.mailbox = before.mailbox
  nextTicket : after.nextTicket = before.nextTicket
  running : after.running = before.running
  reachable : after.reachable = before.reachable
  settings : after.hub.settings = before.hub.settings
  connections : after.hub.connections = before.hub.connections
  roster : after.hub.roster = before.hub.roster
  lastGeneration : after.hub.lastGeneration = before.hub.lastGeneration
  outboxes : before.hub.outboxes.LetsGo after.hub.outboxes
  replies : ∀ ticket, after.replies.get? ticket = before.replies.get? ticket ∨
    (after.replies.get? ticket = some (.error .stopped) ∧
      ∃ letter ∈ letters, letter.ticket = ticket)
  answers : ∀ letter ∈ letters, letter.request.awaited = true →
    after.replies.get? letter.ticket = some (.error .stopped)

theorem turnsAway_turnAway (broker : Broker) (letter : Letter) :
    TurnsAway [letter] broker (broker.turnAway letter) := by
  have hub : (broker.turnAway letter).hub =
      letter.request.outbox?.elim broker.hub broker.hub.release := by rw [turnAway_eq]
  have replies : (broker.turnAway letter).replies = broker.replied letter (.error .stopped) := by
    rw [turnAway_eq]
  constructor
  case replies =>
    intro ticket
    rw [replies]
    rcases broker.get?_replied_cases letter (.error .stopped) ticket with ⟨same, given⟩ | earlier
    · exact .inr ⟨given, letter, List.mem_singleton_self _, same.symm⟩
    · exact .inl earlier
  case answers =>
    intro other member awaited
    obtain rfl := List.mem_singleton.1 member
    rw [replies]
    exact broker.get?_replied_of_awaited awaited _
  case outboxes =>
    rw [hub]
    cases letter.request.outbox? with
    | none => exact .refl _
    | some outbox => exact Outboxes.letsGo_release _ outbox
  case settings => rw [hub]; cases letter.request.outbox? <;> rfl
  case connections => rw [hub]; cases letter.request.outbox? <;> rfl
  case roster => rw [hub]; cases letter.request.outbox? <;> rfl
  case lastGeneration => rw [hub]; cases letter.request.outbox? <;> rfl
  all_goals rw [turnAway_eq]

theorem TurnsAway.cons {letter : Letter} {letters : List Letter} {before middle after : Broker}
    (first : TurnsAway [letter] before middle) (rest : TurnsAway letters middle after) :
    TurnsAway (letter :: letters) before after where
  mailbox := rest.mailbox.trans first.mailbox
  nextTicket := rest.nextTicket.trans first.nextTicket
  running := rest.running.trans first.running
  reachable := rest.reachable.trans first.reachable
  settings := rest.settings.trans first.settings
  connections := rest.connections.trans first.connections
  roster := rest.roster.trans first.roster
  lastGeneration := rest.lastGeneration.trans first.lastGeneration
  outboxes := first.outboxes.trans rest.outboxes
  replies ticket := by
    rcases rest.replies ticket with same | ⟨given, letter, member, numbered⟩
    · rcases first.replies ticket with earlier | ⟨given, letter, member, numbered⟩
      · exact .inl (same.trans earlier)
      · obtain rfl := List.mem_singleton.1 member
        exact .inr ⟨same.trans given, letter, List.mem_cons_self, numbered⟩
    · exact .inr ⟨given, letter, List.mem_cons_of_mem _ member, numbered⟩
  answers other member awaited := by
    rcases List.mem_cons.1 member with rfl | later
    · have given := first.answers other List.mem_cons_self awaited
      rcases rest.replies other.ticket with same | ⟨again, _⟩
      · exact same.trans given
      · exact again
    · exact rest.answers other later awaited

theorem turnsAway_foldl (letters : List Letter) (broker : Broker) :
    TurnsAway letters broker (letters.foldl turnAway broker) := by
  induction letters generalizing broker with
  | nil =>
      refine ⟨rfl, rfl, rfl, rfl, rfl, rfl, rfl, rfl, .refl _, fun _ => .inl rfl, ?_⟩
      intro letter member
      cases member
  | cons letter rest induction => exact (broker.turnsAway_turnAway letter).cons (induction _)

/-- A stop closes all connections and turns all letters away. -/
theorem turnsAway_stop (broker : Broker) :
    TurnsAway broker.mailbox
      { broker with hub := broker.hub.closeAll, mailbox := [], running := false } broker.stop :=
  turnsAway_foldl _ _

/-- A broker does nothing, serves its oldest letter, or is shut down by it. -/
theorem serveNext_cases (numbered : broker.Numbered) :
    (broker.mailbox = [] ∧ broker.serveNext = broker) ∨
      ∃ letter rest, broker.running = true ∧ broker.mailbox = letter :: rest ∧
        let served : Broker :=
          { broker with
            hub := (broker.hub.serve letter.request).2
            mailbox := rest
            replies := broker.replied letter (broker.hub.serve letter.request).1 }
        broker.serveNext = if letter.request = .shutdown then served.stop else served := by
  unfold serveNext
  cases running : broker.running with
  | false => exact .inl ⟨(numbered.stopped running).1, rfl⟩
  | true =>
      cases letters : broker.mailbox with
      | nil => exact .inl ⟨rfl, by simp [numbered.reachable]⟩
      | cons letter rest =>
          refine .inr ⟨letter, rest, rfl, rfl, ?_⟩
          simp only [reply_eq, replied]
          rfl

theorem Numbered.served (numbered : broker.Numbered) {letter : Letter} {rest : List Letter}
    (running : broker.running = true) (letters : broker.mailbox = letter :: rest) :
    ({ broker with
      hub := (broker.hub.serve letter.request).2
      mailbox := rest
      replies := broker.replied letter (broker.hub.serve letter.request).1 } : Broker).Numbered := by
  obtain ⟨ascending, below, answered, unanswered, reachable, stopped, unstopped⟩ := numbered
  rw [letters] at ascending below unanswered
  rw [List.map_cons, List.pairwise_cons] at ascending
  refine ⟨ascending.2, fun other member => below other (List.mem_cons_of_mem _ member),
    fun ticket given => ?_, fun other member => ?_, reachable, fun stopped => ?_,
    fun _ ticket given => ?_⟩
  · rcases broker.get?_replied_cases letter (broker.hub.serve letter.request).1 ticket with
      ⟨same, _⟩ | earlier
    · rw [same]
      exact below letter List.mem_cons_self
    · rw [earlier] at given
      exact answered ticket given
  · have later := ascending.1 other.ticket (List.mem_map_of_mem member)
    rw [broker.get?_replied_of_ne (Nat.ne_of_gt later)]
    exact unanswered other (List.mem_cons_of_mem _ member)
  · rw [running] at stopped
    cases stopped
  · rcases broker.get?_replied_cases letter (broker.hub.serve letter.request).1 ticket with
      ⟨_, now⟩ | earlier
    · rw [now] at given
      exact broker.hub.serve_ne_stopped letter.request (Option.some.inj given)
    · rw [earlier] at given
      exact unstopped running ticket given

theorem Numbered.stop (numbered : broker.Numbered) : broker.stop.Numbered := by
  have turned := broker.turnsAway_stop
  refine ⟨?_, ?_, fun ticket given => ?_, ?_, turned.reachable.trans numbered.reachable,
    fun _ => ⟨turned.mailbox, fun id => ?_⟩, fun running => ?_⟩
  · rw [turned.mailbox]
    exact List.Pairwise.nil
  · rw [turned.mailbox]
    simp
  · rw [turned.nextTicket]
    rcases turned.replies ticket with same | ⟨_, letter, member, rfl⟩
    · rw [same] at given
      exact numbered.answered ticket given
    · exact numbered.below letter member
  · rw [turned.mailbox]
    simp
  · rw [turned.connections]
    exact broker.hub.get?_closeAll id
  · rw [turned.running] at running
    cases running

/-! ## Settings and time -/

theorem terms_turnAway (broker : Broker) (letter : Letter) :
    (broker.turnAway letter).hub.terms = broker.hub.terms := by
  rw [turnAway_eq]
  cases letter.request.outbox? <;> rfl

theorem terms_stop (broker : Broker) : broker.stop.hub.terms = broker.hub.terms := by
  have turned (letters : List Letter) (broker : Broker) :
      (letters.foldl turnAway broker).hub.terms = broker.hub.terms := by
    induction letters generalizing broker with
    | nil => rfl
    | cons letter rest induction => exact (induction _).trans (broker.terms_turnAway letter)
  exact (turned _ _).trans broker.hub.terms_closeAll

theorem terms_post (broker : Broker) (request : Request) :
    (broker.post request).2.hub.terms = broker.hub.terms := by
  unfold post
  dsimp only
  split
  · rfl
  · exact terms_turnAway _ _

/-- A broker that serves changes neither the settings nor the time. -/
theorem terms_serveNext (broker : Broker) : broker.serveNext.hub.terms = broker.hub.terms := by
  unfold serveNext
  split
  · rfl
  · split
    · split
      · rfl
      · exact broker.terms_stop
    · rename_i letter rest letters
      have served : ({ broker with
          hub := (broker.hub.serve letter.request).2
          mailbox := rest }.reply letter (broker.hub.serve letter.request).1).hub.terms =
          broker.hub.terms := by
        rw [reply_eq]
        exact broker.hub.terms_serve letter.request
      dsimp only
      split
      · exact (terms_stop _).trans served
      · exact served

/-- Time passes up to a moment, unless it has passed already. -/
theorem terms_tick (broker : Broker) (moment : Moment) :
    (broker.tick moment).hub.terms = (broker.hub.settings, max broker.hub.now moment) := by
  have rung (expiries : List Expiry) (broker : Broker) :
      (expiries.foldl ring broker).hub.terms = broker.hub.terms := by
    induction expiries generalizing broker with
    | nil => rfl
    | cons expiry rest induction =>
        refine (induction _).trans ?_
        unfold ring
        split
        · exact broker.terms_post _
        · rfl
  exact rung _ _

end Broker
end Parley
