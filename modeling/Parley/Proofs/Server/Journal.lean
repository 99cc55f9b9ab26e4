import Parley.Proofs.Server.Chronicle

/-!
# The journal of a connection

What happens on behalf of a connection along a run, in order: the hub lets it into rooms,
and the outbox of its transport accepts payloads, each of which is fanned out through a
room, is another message, or confirms a command of the connection itself.
-/

namespace Parley

/-! ## Entries -/

/-- Where a payload in an outbox comes from. -/
inductive Source
  /-- The hub serves a message to a room. -/
  | fanOut (room : RoomName)
  /-- The hub serves a message to a name or to everybody. -/
  | message
  /-- The reader has learnt what became of its own command. -/
  | confirmation (ticket : Ticket) (confirmation : Confirmation)
  | other
  deriving DecidableEq, Repr

/-- What happens on behalf of a connection. -/
inductive JournalEntry
  /-- The hub has let the connection into a room that it asked for. -/
  | joined (ticket : Ticket) (room : RoomName)
  /-- The outbox of its transport has accepted a payload. -/
  | accepted (source : Source) (payload : Payload)
  deriving DecidableEq, Repr

/-- The payload that was accepted. -/
def JournalEntry.payload? : JournalEntry → Option Payload
  | .joined _ _ => none
  | .accepted _ payload => some payload

/-- What a connection was told last about a room is that it has left it, and it has not been
let in since. -/
def Parted (room : RoomName) (journal : List JournalEntry) : Prop :=
  ∃ before ticket payload after,
    journal = before ++ .accepted (.confirmation ticket (.left room.text)) payload :: after ∧
      ∀ later, .joined later room ∉ after

/-- An entry fits what came before it: nothing is fanned out to a connection through a room
that it was told to have left, and a join is confirmed after it. -/
def JournalEntry.Fits (before : List JournalEntry) : JournalEntry → Prop
  | .accepted (.fanOut room) _ => ¬Parted room before
  | .accepted (.confirmation ticket (.joined text)) _ =>
      ∃ room : RoomName, room.text = text ∧ .joined ticket room ∈ before
  | _ => True

/-- Every entry fits what came before it. -/
def Sound (journal : List JournalEntry) : Prop :=
  ∀ before entry after, journal = before ++ entry :: after → entry.Fits before

variable {room : RoomName} {first second : List JournalEntry}

theorem Parted.exists_confirmation (parted : Parted room first) :
    ∃ ticket payload,
      .accepted (.confirmation ticket (.left room.text)) payload ∈ first := by
  obtain ⟨before, ticket, payload, after, rfl, -⟩ := parted
  exact ⟨ticket, payload, List.mem_append_right _ List.mem_cons_self⟩

/-- Whoever has parted had done so earlier, without joining since, or does so now. -/
theorem Parted.of_append (parted : Parted room (first ++ second)) :
    (Parted room first ∧ ∀ ticket, .joined ticket room ∉ second) ∨ Parted room second := by
  obtain ⟨before, ticket, payload, after, split, absent⟩ := parted
  rcases List.append_eq_append_iff.1 split with ⟨between, rfl, rfl⟩ | ⟨between, rfl, rest⟩
  · exact .inr ⟨between, ticket, payload, after, rfl, absent⟩
  · cases between with
    | nil => exact .inr ⟨[], ticket, payload, after, rest.symm, absent⟩
    | cons entry between =>
        obtain ⟨rfl, rfl⟩ := List.cons.inj rest
        refine .inl ⟨⟨before, ticket, payload, between, rfl, fun later member => ?_⟩,
          fun later member => ?_⟩
        · exact absent later (List.mem_append_left _ member)
        · exact absent later (List.mem_append_right _ member)

theorem Sound.nil : Sound [] := by
  intro before entry after split
  exact absurd split.symm (List.append_ne_nil_of_right_ne_nil _ (List.cons_ne_nil _ _))

theorem Sound.append (sound : Sound first)
    (fits : ∀ before entry after, second = before ++ entry :: after →
      entry.Fits (first ++ before)) : Sound (first ++ second) := by
  intro before entry after split
  rcases List.append_eq_append_iff.1 split with ⟨between, rfl, rest⟩ | ⟨between, rfl, rest⟩
  · exact fits between entry after rest
  · cases between with
    | nil => simpa using fits [] entry after rest.symm
    | cons other between =>
        obtain ⟨rfl, rfl⟩ := List.cons.inj rest
        exact sound before entry between rfl

/-! ## Journals of runs -/

/-- What a session is about: it waits for its registration, reads, or reads no more. -/
inductive Stance
  | enrolling
  | reading (reader : Reader)
  | done
  deriving DecidableEq, Repr

/-- The stance of a session. -/
def Session.stance (session : Session) : Stance :=
  match session.stage with
  | .enrolling _ => .enrolling
  | .serving _ reader _ => .reading reader
  | .refusing _ | .leaving .. | .over => .done

namespace Server

/-- The stance of the session with an outbox. -/
def stance (server : Server) (key : OutboxId) : Option Stance :=
  (server.sessions.get? key).map Session.stance

/-- The letter that the broker serves next. -/
def oldest? (server : Server) : Option Letter :=
  if server.broker.running then server.broker.mailbox.head? else none

/-- The confirmation that a session is about to learn, with the ticket of its command. -/
def confirmation? (server : Server) (key : OutboxId) : Option (Ticket × Confirmation) :=
  match server.stance key with
  | some (.reading (.asking command ticket)) =>
      match (server.broker.replies.get? ticket).map (Dispatch.conclude command) with
      | some (.ok (some confirmation)) => some (ticket, confirmation)
      | _ => none
  | _ => none

/-- Where the payloads come from that the outbox of a session accepts in a step. -/
def sourceBy (server : Server) (key : OutboxId) : ServerStep → Source
  | .serve =>
      match server.oldest? with
      | some ⟨_, .sendToRoom room _ _⟩ => .fanOut room
      | some ⟨_, .sendToName _ _⟩ | some ⟨_, .broadcast _⟩ => .message
      | _ => .other
  | .answer other =>
      if other = key then
        (server.confirmation? key).elim .other fun told => .confirmation told.1 told.2
      else .other
  | _ => .other

/-- The room that the hub lets a connection into in a step. -/
def joinedBy (server : Server) (id : ConnectionId) : ServerStep → List JournalEntry
  | .serve =>
      match server.oldest? with
      | some ⟨ticket, .joinRoom other room⟩ =>
          match (server.broker.hub.joinRoom other room).1 with
          | .ok _ => if other = id then [.joined ticket room] else []
          | .error _ => []
      | _ => []
  | _ => []

/-- What a step adds to the journal of a connection. -/
def journalBy (server : Server) (id : ConnectionId) (key : OutboxId) (step : ServerStep) :
    List JournalEntry :=
  server.joinedBy id step ++
    (server.noted key step).accepted.map (.accepted (server.sourceBy key step))

/-- The journal of a connection and its transport along a run. -/
def journal (server : Server) (id : ConnectionId) (key : OutboxId) :
    List ServerStep → List JournalEntry
  | [] => []
  | step :: rest => server.journalBy id key step ++ (server.step step).journal id key rest

theorem exists_of_mem_joinedBy {server : Server} {id : ConnectionId} {step : ServerStep}
    {entry : JournalEntry} (member : entry ∈ server.joinedBy id step) :
    ∃ ticket room, entry = .joined ticket room := by
  unfold joinedBy at member
  split at member
  · split at member
    · split at member
      · split at member
        · exact ⟨_, _, List.mem_singleton.1 member⟩
        · cases member
      · cases member
    · cases member
  · cases member

theorem mem_journalBy_iff {server : Server} {id : ConnectionId} {key : OutboxId}
    {step : ServerStep} {source : Source} {payload : Payload} :
    .accepted source payload ∈ server.journalBy id key step ↔
      source = server.sourceBy key step ∧ payload ∈ (server.noted key step).accepted := by
  rw [journalBy, List.mem_append, List.mem_map]
  constructor
  · rintro (joins | ⟨_, member, same⟩)
    · obtain ⟨_, _, same⟩ := exists_of_mem_joinedBy joins
      cases same
    · cases same
      exact ⟨rfl, member⟩
  · rintro ⟨rfl, member⟩
    exact .inr ⟨payload, member, rfl⟩

/-- Only a session that is about to learn of its command adds a confirmation. -/
theorem sourceBy_eq_confirmation {server : Server} {key : OutboxId} {step : ServerStep}
    {ticket : Ticket} {confirmation : Confirmation}
    (source : server.sourceBy key step = .confirmation ticket confirmation) :
    step = .answer key ∧ server.confirmation? key = some (ticket, confirmation) := by
  unfold sourceBy at source
  split at source
  · split at source <;> cases source
  · rename_i other
    split at source
    · rename_i same
      subst same
      cases told : server.confirmation? other with
      | none =>
          rw [told] at source
          cases source
      | some answer =>
          rw [told] at source
          cases source
          exact ⟨rfl, rfl⟩
    · cases source
  · cases source

/-- The journal tells of all that the outbox accepts, in order. -/
theorem payloads_journal (server : Server) (id : ConnectionId) (key : OutboxId)
    (steps : List ServerStep) :
    (server.journal id key steps).filterMap JournalEntry.payload? =
      (server.chronicle key steps).accepted := by
  induction steps generalizing server with
  | nil => rfl
  | cons step rest induction =>
      have nothing : (server.joinedBy id step).filterMap JournalEntry.payload? = [] := by
        refine List.filterMap_eq_nil_iff.2 fun entry member => ?_
        obtain ⟨_, _, rfl⟩ := exists_of_mem_joinedBy member
        rfl
      have accepted (source : Source) (payloads : List Payload) :
          (payloads.map (JournalEntry.accepted source)).filterMap JournalEntry.payload? =
            payloads := by
        rw [List.filterMap_map]
        exact List.filterMap_some
      rw [journal, chronicle, Chronicle.accepted_append, List.filterMap_append, induction,
        journalBy, List.filterMap_append, nothing, accepted, List.nil_append]

end Server
end Parley
