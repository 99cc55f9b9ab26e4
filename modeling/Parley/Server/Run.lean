import Parley.Server.Basic

/-!
# Runs

A run is a sequence of steps of a server in any order.
-/

namespace Parley

/-- A step of a server. -/
inductive ServerStep
  /-- The socket of an admitted peer exists. -/
  | upgrade (admission : Admission)
  /-- Somebody else sends a request. -/
  | submit (request : Request)
  | serve
  | answer (session : OutboxId)
  | arrive (session : OutboxId) (arrival : Arrival)
  | fallSilent (session : OutboxId)
  | turn (session : OutboxId)
  | written (session : OutboxId)
  | unwritten (session : OutboxId)
  | giveUpWrite (session : OutboxId)
  | joinReader (session : OutboxId)
  | joinWriter (session : OutboxId)
  | tick (moment : Moment)
  deriving DecidableEq, Repr

namespace Server

/-- Carry out one step. -/
def step (server : Server) : ServerStep → Server
  | .upgrade admission => (server.upgrade admission).2
  | .submit request => (server.submit request).2
  | .serve => server.serveNext
  | .answer session => server.answer session
  | .arrive session arrival => server.arrive session arrival
  | .fallSilent session => server.fallSilent session
  | .turn session => server.turn session
  | .written session => server.written session
  | .unwritten session => server.unwritten session
  | .giveUpWrite session => server.giveUpWrite session
  | .joinReader session => server.joinReader session
  | .joinWriter session => server.joinWriter session
  | .tick moment => server.tick moment

/-- Carry out steps in order. -/
def run (server : Server) (steps : List ServerStep) : Server := steps.foldl step server

@[simp] theorem run_nil (server : Server) : server.run [] = server := rfl

/-- What every step keeps, a run keeps. -/
theorem run_keeps {Kept : Server → Prop} {steps : List ServerStep}
    (stepKeeps : ∀ server, ∀ next ∈ steps, Kept server → Kept (step server next))
    (server : Server) (start : Kept server) : Kept (server.run steps) := by
  induction steps generalizing server with
  | nil => exact start
  | cons first rest induction =>
      refine induction (fun later next member => ?_) (server.step first) ?_
      · exact stepKeeps later next (List.mem_cons_of_mem _ member)
      · exact stepKeeps server first List.mem_cons_self start

end Server
end Parley
