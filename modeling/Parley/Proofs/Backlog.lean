import Parley.Backlog

/-!
# More about backlogs

Keeping the newest payloads composes: what several pushes and restorations leave
is the newest end of everything that ever came in.
-/

namespace Parley
namespace Backlog

/-- Payloads in front of enough newer ones are not among the newest. -/
theorem newest_append_of_le {capacity : Nat} (older : List Payload) {newer : List Payload}
    (enough : capacity ≤ newer.length) :
    newest capacity (older ++ newer) = newest capacity newer := by
  have dropped : (older ++ newer).length - capacity =
      older.length + (newer.length - capacity) := by
    rw [List.length_append]
    omega
  rw [newest, newest, dropped, ← List.drop_drop, List.drop_left]

/-- Payloads that come in later displace the same ones, whether the newest were
kept before or not. -/
theorem newest_newest_append (capacity : Nat) (first second : List Payload) :
    newest capacity (newest capacity first ++ second) = newest capacity (first ++ second) := by
  by_cases fits : first.length ≤ capacity
  · rw [newest_of_length_le fits]
  · have split : first.take (first.length - capacity) ++ newest capacity first = first :=
      List.take_append_drop _ first
    have enough : capacity ≤ (newest capacity first ++ second).length := by
      rw [List.length_append, newest, List.length_drop]
      omega
    calc newest capacity (newest capacity first ++ second)
        = newest capacity
            (first.take (first.length - capacity) ++ (newest capacity first ++ second)) :=
          (newest_append_of_le _ enough).symm
      _ = newest capacity (first ++ second) := by rw [← List.append_assoc, split]

/-- A backlog that holds no more than its capacity. -/
def Fits (backlog : Backlog) : Prop := backlog.held.length ≤ backlog.capacity

/-- A push keeps a backlog within its capacity. -/
theorem Fits.push {backlog : Backlog} (fits : backlog.Fits) (payload : Payload) :
    (backlog.push payload).2.Fits := by
  unfold Fits
  rw [held_push fits, capacity_push]
  exact length_newest_le _ _

/-- A restoration brings a backlog within its capacity. -/
theorem Fits.restoreFront (backlog : Backlog) (payloads : List Payload) :
    (backlog.restoreFront payloads).2.Fits :=
  length_newest_le _ _

/-- A push tells of a loss exactly when there is one payload too many. -/
theorem toNat_fst_push {backlog : Backlog} (fits : backlog.Fits) (payload : Payload) :
    (backlog.push payload).1.toNat =
      (backlog.held ++ [payload]).length - backlog.capacity := by
  unfold Fits at fits
  rw [List.length_append, List.length_singleton]
  unfold push
  split
  · dsimp only [Bool.toNat_true]
    omega
  · split
    · dsimp only [Bool.toNat_true]
      omega
    · dsimp only [Bool.toNat_false]
      omega

/-- What a push loses are the oldest payloads. -/
theorem take_append_held_push {backlog : Backlog} (fits : backlog.Fits) (payload : Payload) :
    (backlog.held ++ [payload]).take (backlog.push payload).1.toNat ++
      (backlog.push payload).2.held = backlog.held ++ [payload] := by
  rw [held_push fits, toNat_fst_push fits]
  exact List.take_append_drop _ _

/-- What a restoration loses are the oldest payloads. -/
theorem take_append_held_restoreFront (backlog : Backlog) (payloads : List Payload) :
    (payloads ++ backlog.held).take (backlog.restoreFront payloads).1 ++
      (backlog.restoreFront payloads).2.held = payloads ++ backlog.held :=
  List.take_append_drop _ _

/-- A push that loses nothing puts the payload behind all others. -/
theorem held_push_of_kept {backlog : Backlog} {payload : Payload}
    (kept : (backlog.push payload).1 = false) :
    (backlog.push payload).2.held = backlog.held ++ [payload] := by
  unfold push at kept ⊢
  split
  · rename_i noRoom
    simp [noRoom] at kept
  · rename_i room
    split
    · rename_i full
      simp [room, full] at kept
    · rfl

/-- A restoration that loses nothing puts the payloads in front of all others. -/
theorem held_restoreFront_of_kept {backlog : Backlog} {payloads : List Payload}
    (kept : (backlog.restoreFront payloads).1 = 0) :
    (backlog.restoreFront payloads).2.held = payloads ++ backlog.held := by
  rw [held_restoreFront]
  exact newest_of_length_le (Nat.le_of_sub_eq_zero kept)

end Backlog
end Parley
