import Mathlib.Logic.Basic

/-!
# A broadcast channel of bounded capacity

Each value sent has its position in the list of all values sent, and each receiver the position it
reads next. The channel keeps the last `capacity` values: a receiver farther behind is told how many
values it lost and goes on at the oldest one kept.
-/

namespace VsFleet

/-- What a receiver reads: a value, or how many values it lost. -/
inductive Received (α : Type) where
  | value (a : α)
  | lagged (skipped : Nat)

section Broadcast

variable {α : Type} (capacity : Nat) (sent : List α) (next : Nat)

/-- A read, with the position after it; `none` where nothing was sent since the last one. -/
def recv : Option (Received α × Nat) :=
  if next + capacity < sent.length then
    some (.lagged (sent.length - capacity - next), sent.length - capacity)
  else sent[next]?.map (fun a => (.value a, next + 1))

/-- A receiver within the capacity reads the next value sent. -/
theorem recv_value {next : Nat} (behind : next < sent.length)
    (intime : sent.length ≤ next + capacity) :
    recv capacity sent next = some (.value sent[next], next + 1) := by
  rw [recv, if_neg (by omega), List.getElem?_eq_getElem behind]
  rfl

/-- A receiver beyond the capacity goes on at the oldest value kept. -/
theorem recv_lagged {next : Nat} (late : next + capacity < sent.length) :
    recv capacity sent next =
      some (.lagged (sent.length - capacity - next), sent.length - capacity) := by
  rw [recv, if_pos late]

/-- A receiver that has read everything waits. -/
theorem recv_waits : recv capacity sent sent.length = none := by
  rw [recv, if_neg (by omega), List.getElem?_eq_none (Nat.le_refl _)]
  rfl

end Broadcast

end VsFleet
