import Mathlib.Order.Basic

/-!
# A latch on a signal

A flag that the rising edge of a signal sets, its falling edge clears, and a reset clears while the
signal is up. It is set exactly when the signal has risen and neither fallen nor been reset since.
Time is counted in steps; `reset k` is the reset on the way from `k` to `k + 1`.
-/

namespace VsFleet

/-- The flag follows the edges of the signal and the resets up to time `n`. -/
structure Latch (signal reset flag : Nat → Bool) (n : Nat) : Prop where
  down : signal 0 = false
  clear : flag 0 = false
  step : ∀ k < n, flag (k + 1) =
    if signal k = signal (k + 1) then flag k && !reset k else signal (k + 1)

variable {signal reset flag : Nat → Bool} {n : Nat}

theorem Latch.mono {m : Nat} (h : Latch signal reset flag n) (le : m ≤ n) :
    Latch signal reset flag m :=
  ⟨h.down, h.clear, fun k hk => h.step k (Nat.lt_of_lt_of_le hk le)⟩

/-- The flag is up when the signal rose at some step, stayed up and was not reset after it. -/
theorem Latch.flag_iff (h : Latch signal reset flag n) :
    flag n = true ↔ ∃ j < n, signal j = false ∧ (∀ k, j < k → k ≤ n → signal k = true) ∧
      ∀ k, j < k → k < n → reset k = false := by
  induction n with
  | zero => simp [h.clear]
  | succ n ih =>
    have ih := ih (h.mono (Nat.le_succ n))
    rw [h.step n (Nat.lt_succ_self n)]
    cases before : signal n with
    | false =>
      cases after : signal (n + 1) with
      | false =>
        constructor
        · intro up
          simp only [if_true, Bool.and_eq_true] at up
          obtain ⟨j, hj, -, stays, -⟩ := ih.mp up.1
          rw [stays n hj (Nat.le_refl n)] at before
          cases before
        · rintro ⟨j, hj, -, stays, -⟩
          rw [stays (n + 1) hj (Nat.le_refl _)] at after
          cases after
      | true =>
        simp only [Bool.false_eq_true, if_false, true_iff]
        refine ⟨n, Nat.lt_succ_self n, before, ?_, ?_⟩
        · intro k hk hk'
          have same : k = n + 1 := by omega
          rw [same, after]
        · intro k hk hk'
          omega
    | true =>
      cases after : signal (n + 1) with
      | false =>
        constructor
        · intro up
          simp at up
        · rintro ⟨j, hj, -, stays, -⟩
          rw [stays (n + 1) hj (Nat.le_refl _)] at after
          cases after
      | true =>
        simp only [if_true, Bool.and_eq_true, Bool.not_eq_true', ih]
        constructor
        · rintro ⟨⟨j, hj, low, stays, quiet⟩, unreset⟩
          refine ⟨j, by omega, low, ?_, ?_⟩
          · intro k hk hk'
            rcases Nat.lt_or_ge n k with late | early
            · have same : k = n + 1 := by omega
              rw [same, after]
            · exact stays k hk early
          · intro k hk hk'
            rcases Nat.lt_or_ge k n with early | late
            · exact quiet k hk early
            · have same : k = n := by omega
              rw [same, unreset]
        · rintro ⟨j, hj, low, stays, quiet⟩
          have earlier : j < n := by
            rcases Nat.lt_or_ge j n with early | late
            · exact early
            · have same : j = n := by omega
              rw [same, before] at low
              cases low
          exact ⟨⟨j, earlier, low, fun k hk hk' => stays k hk (by omega),
            fun k hk hk' => quiet k hk (by omega)⟩, quiet n earlier (Nat.lt_succ_self n)⟩

end VsFleet
