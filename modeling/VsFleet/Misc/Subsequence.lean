import Mathlib.Data.List.Basic

/-!
# The greedy search for a subsequence

The scan takes the elements sought at the first places it can. It finds them just in case they are a
subsequence, and at the first places of all just in case they are a prefix.
-/

namespace VsFleet

section Greedy

variable {α : Type} [DecidableEq α]

/-- The places, from `n` on, where the scan takes the elements sought. -/
def greedyPlaces : List α → List α → Nat → Option (List Nat)
  | [], _, _ => some []
  | _ :: _, [], _ => none
  | q :: qs, t :: ts, n =>
    if t = q then (greedyPlaces qs ts (n + 1)).map (n :: ·) else greedyPlaces (q :: qs) ts (n + 1)

/-- The greedy search is complete. -/
theorem greedyPlaces_isSome {qs ts : List α} {n : Nat} :
    (greedyPlaces qs ts n).isSome = true ↔ qs.Sublist ts := by
  fun_induction greedyPlaces qs ts n with
  | case1 => simp
  | case2 => simp
  | case3 qs t ts n ih => simp [ih]
  | case4 q qs t ts n ne ih =>
    rw [ih]
    refine ⟨List.Sublist.cons t, fun sub => ?_⟩
    cases sub with
    | cons _ sub => exact sub
    | cons_cons _ sub => exact absurd rfl ne

theorem greedyPlaces_length {qs ts : List α} {n : Nat} :
    ∀ {places : List Nat}, greedyPlaces qs ts n = some places → places.length = qs.length := by
  fun_induction greedyPlaces qs ts n with
  | case1 => simp
  | case2 => simp
  | case3 qs t ts n ih =>
    intro places found
    obtain ⟨rest, later, rfl⟩ := Option.map_eq_some_iff.mp found
    simp [ih later]
  | case4 q qs t ts n ne ih => exact ih

/-- The places are from the first one on, each after the one before it. -/
theorem greedyPlaces_increasing {qs ts : List α} {n : Nat} :
    ∀ {places : List Nat}, greedyPlaces qs ts n = some places →
      places.Pairwise (· < ·) ∧ ∀ p ∈ places, n ≤ p := by
  fun_induction greedyPlaces qs ts n with
  | case1 => simp
  | case2 => simp
  | case3 qs t ts n ih =>
    intro places found
    obtain ⟨rest, later, rfl⟩ := Option.map_eq_some_iff.mp found
    obtain ⟨increasing, after⟩ := ih later
    refine ⟨List.pairwise_cons.mpr ⟨after, increasing⟩, fun p mem => ?_⟩
    rcases List.mem_cons.mp mem with rfl | mem
    · exact Nat.le_refl _
    · exact Nat.le_of_succ_le (after p mem)
  | case4 q qs t ts n ne ih =>
    intro places found
    exact ⟨(ih found).1, fun p mem => Nat.le_of_succ_le ((ih found).2 p mem)⟩

/-- The places are the first ones just in case the elements sought are a prefix. -/
theorem greedyPlaces_range' {qs ts : List α} {n : Nat} :
    greedyPlaces qs ts n = some (List.range' n qs.length) ↔ qs <+: ts := by
  fun_induction greedyPlaces qs ts n with
  | case1 => simp
  | case2 => simp
  | case3 qs t ts n ih =>
    rw [List.prefix_cons_inj, ← ih, List.length_cons, List.range'_succ, Option.map_eq_some_iff]
    simp
  | case4 q qs t ts n ne ih =>
    refine iff_of_false (fun found => ?_) (fun prefix_of => ne ?_)
    · have := (greedyPlaces_increasing found).2 n (by simp)
      omega
    · exact (List.cons_prefix_cons.mp prefix_of).1.symm

end Greedy

end VsFleet
