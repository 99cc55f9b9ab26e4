import Parley.Hub.Basic

/-!
# Brokers

A broker puts a hub behind a mailbox.  Requests wait there in the order of their
arrival, and the hub serves one after the other until it is shut down or nobody
can reach it any more.
-/

namespace Parley

/-- Names a request whose answer is waited for. -/
abbrev Ticket := Nat

/-- A request in the mailbox. -/
structure Letter where
  ticket : Ticket
  request : Request
  deriving DecidableEq, Repr

/-- What the sender of a request learns when it is sent. -/
inductive Receipt
  /-- The outcome, as far as the sender ever learns it. -/
  | settled (outcome : Outcome)
  /-- The outcome is still to come. -/
  | pending (ticket : Ticket)

/-- A hub behind a mailbox. -/
structure Broker where
  hub : Hub
  /-- The requests that wait, oldest first. -/
  mailbox : List Letter := []
  /-- The answers to requests that were waited for. -/
  replies : Table Ticket Outcome := .empty
  nextTicket : Ticket := 0
  /-- Whether requests are still served. -/
  running : Bool := true
  /-- Whether somebody can still send requests. -/
  reachable : Bool := true

namespace Broker

/-- A broker with a fresh hub. -/
def new (settings : Settings) (startedAt : Stamp) : Broker :=
  { hub := Hub.new settings startedAt }

/-- Note the answer to a request. -/
def reply (broker : Broker) (letter : Letter) (outcome : Outcome) : Broker :=
  if letter.request.awaited then
    { broker with replies := broker.replies.set letter.ticket outcome }
  else broker

/-- Turn a request away because the hub has stopped; an outbox that it hands over
is let go. -/
def turnAway (broker : Broker) (letter : Letter) : Broker :=
  let broker := match letter.request.outbox? with
    | some outbox => { broker with hub := broker.hub.release outbox }
    | none => broker
  broker.reply letter (.error .stopped)

/-- Stop serving: all connections are closed and all waiting requests turned
away. -/
def stop (broker : Broker) : Broker :=
  broker.mailbox.foldl turnAway
    { broker with hub := broker.hub.closeAll, mailbox := [], running := false }

/-- Put a request into the mailbox. -/
def post (broker : Broker) (request : Request) : Ticket × Broker :=
  let letter : Letter := { ticket := broker.nextTicket, request }
  let numbered := { broker with nextTicket := broker.nextTicket + 1 }
  (letter.ticket,
    if broker.running then { numbered with mailbox := numbered.mailbox ++ [letter] }
    else numbered.turnAway letter)

/-- Serve the oldest waiting request.  With an empty mailbox that nobody can
reach, stop. -/
def serveNext (broker : Broker) : Broker :=
  if !broker.running then broker
  else
    match broker.mailbox with
    | [] => if broker.reachable then broker else broker.stop
    | letter :: rest =>
        let (outcome, hub) := broker.hub.serve letter.request
        let served := { broker with hub, mailbox := rest }.reply letter outcome
        if letter.request = .shutdown then served.stop else served

/-- Serve requests until none waits. -/
def settle (broker : Broker) : Broker :=
  (broker.mailbox.length + 1).repeat serveNext broker

/-- Send a request.  A request whose answer is not waited for is as good as done
when the broker takes it. -/
def submit (broker : Broker) (request : Request) : Receipt × Broker :=
  let (ticket, posted) := broker.post request
  (if !broker.running then .settled (.error .stopped)
    else if request.awaited then .pending ticket
    else .settled (.ok .done), posted)

/-- Send a request and let the broker serve until it has nothing to do. -/
def ask (broker : Broker) (request : Request) : Outcome × Broker :=
  let (receipt, sent) := broker.submit request
  let settled := sent.settle
  match receipt with
  | .settled outcome => (outcome, settled)
  | .pending ticket => ((settled.replies.get? ticket).getD (.error .stopped), settled)

/-- Everybody who could send requests is gone. -/
def abandon (broker : Broker) : Broker :=
  { broker with reachable := false }.settle

/-- The hub is told that a grace is over. -/
def ring (broker : Broker) (expiry : Expiry) : Broker :=
  if broker.running && broker.reachable then
    (broker.post (.expire expiry.id expiry.generation)).2
  else broker

/-- Whether a grace is over. -/
def isOver (moment : Moment) (expiry : Expiry) : Bool := Moment.roundUp expiry.due ≤ moment

/-- The graces that are over, in the order of their ends. -/
def overdue (broker : Broker) (moment : Moment) : List Expiry :=
  (broker.hub.expiries.filter (isOver moment)).mergeSort fun left right => left.due ≤ right.due

/-- The clock moves on to a moment, and the graces that are over by then are rung
out. -/
def tick (broker : Broker) (moment : Moment) : Broker :=
  let expiries := broker.hub.expiries.filter fun expiry => !isOver moment expiry
  let now := max broker.hub.now moment
  (broker.overdue moment).foldl ring { broker with hub := { broker.hub with expiries, now } }

/-- When the next grace is over. -/
def due? (broker : Broker) : Option Moment :=
  (broker.hub.expiries.map fun expiry => Moment.roundUp expiry.due).min?

/-- Let time pass up to a moment; whenever a grace is over, the broker serves until
it has nothing to do. -/
def advance (broker : Broker) (target : Moment) : Broker :=
  let stops := (broker.overdue target).map fun expiry => Moment.roundUp expiry.due
  (stops.foldl (fun broker moment => (broker.tick moment).settle) broker).tick target

end Broker
end Parley
