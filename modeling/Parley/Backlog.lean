import Parley.Outbox

/-!
# Backlogs

A backlog keeps the newest payloads that a connection missed, up to its
capacity.
-/

namespace Parley

/-- A bounded queue that loses its oldest payloads. -/
structure Backlog where
  capacity : Nat
  /-- The payloads held, oldest first. -/
  held : List Payload := []
  deriving DecidableEq, Repr

namespace Backlog

/-- The capacity of a backlog that was given none. -/
def defaultCapacity : Nat := 100

/-- The number of payloads held. -/
def size (backlog : Backlog) : Nat := backlog.held.length

/-- Add a payload at the back, and tell whether one was lost for it: the oldest
of a full backlog, or the payload itself when there is no room at all. -/
def push (backlog : Backlog) (payload : Payload) : Bool × Backlog :=
  if backlog.capacity = 0 then (true, backlog)
  else if backlog.capacity ≤ backlog.held.length then
    (true, { backlog with held := backlog.held.drop 1 ++ [payload] })
  else (false, { backlog with held := backlog.held ++ [payload] })

/-- The newest payloads of a list, as many as there is room for. -/
def newest (capacity : Nat) (payloads : List Payload) : List Payload :=
  payloads.drop (payloads.length - capacity)

/-- Put payloads in front of all others, and tell how many of the oldest were
lost to stay within the capacity. -/
def restoreFront (backlog : Backlog) (payloads : List Payload) : Nat × Backlog :=
  let held := payloads ++ backlog.held
  (held.length - backlog.capacity, { backlog with held := newest backlog.capacity held })

/-- Take all payloads, oldest first. -/
def take (backlog : Backlog) : List Payload × Backlog :=
  (backlog.held, { backlog with held := [] })

/-- The newest payloads fit into the room there is for them. -/
theorem length_newest_le (capacity : Nat) (payloads : List Payload) :
    (newest capacity payloads).length ≤ capacity := by
  rw [newest, List.length_drop]
  omega

/-- Payloads that fit are all kept. -/
theorem newest_of_length_le {capacity : Nat} {payloads : List Payload}
    (fits : payloads.length ≤ capacity) : newest capacity payloads = payloads := by
  rw [newest, Nat.sub_eq_zero_of_le fits, List.drop_zero]

@[simp]
theorem capacity_push (backlog : Backlog) (payload : Payload) :
    (backlog.push payload).2.capacity = backlog.capacity := by
  unfold push
  split
  · rfl
  · split <;> rfl

/-- Pushing keeps the newest payloads. -/
theorem held_push {backlog : Backlog} (fits : backlog.held.length ≤ backlog.capacity)
    (payload : Payload) :
    (backlog.push payload).2.held = newest backlog.capacity (backlog.held ++ [payload]) := by
  unfold push newest
  split
  · rename_i noRoom
    have nothing : backlog.held = [] := List.eq_nil_of_length_eq_zero (by omega)
    simp [nothing, noRoom]
  · split
    · rename_i room full
      have dropsOne : (backlog.held ++ [payload]).length - backlog.capacity = 1 := by
        rw [List.length_append, List.length_singleton]
        omega
      have present : 1 ≤ backlog.held.length := by omega
      rw [dropsOne, List.drop_append_of_le_length present]
    · rename_i room notFull
      have dropsNone : (backlog.held ++ [payload]).length - backlog.capacity = 0 := by
        rw [List.length_append, List.length_singleton]
        omega
      rw [dropsNone, List.drop_zero]

/-- Restoring keeps the newest payloads. -/
theorem held_restoreFront (backlog : Backlog) (payloads : List Payload) :
    (backlog.restoreFront payloads).2.held =
      newest backlog.capacity (payloads ++ backlog.held) := rfl

end Backlog
end Parley
