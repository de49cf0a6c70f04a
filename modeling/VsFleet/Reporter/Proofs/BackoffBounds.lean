import Mathlib.Algebra.Order.Ring.Nat
import Mathlib.Data.Nat.Find
import VsFleet.Reporter.Backoff

/-!
# The bounds of the backoff

A delay is cut to whole milliseconds before it is multiplied, and the product, cut off at the
maximum, is cast to 64 bits. So the delays after a failure are those of a sequence of numbers, and
they keep to their bounds as long as neither the cut nor the cast leads down.
-/

namespace VsFleet

namespace Backoff

/-! ## The delays in milliseconds -/

/-- The next delay in milliseconds, after one of `x`. -/
def nextOf (factor maxMs x : Nat) : Nat := min (x * factor) maxMs % 0x10000000000000000

/-- The first delay times a power of the factor, in 64 bits. -/
def powerMs (initialMs factor n : Nat) : Nat := initialMs * factor ^ n % 0x10000000000000000

/-- The products do not go down before they reach the maximum, and the one that does is at most what
the maximum is in 64 bits. -/
structure WrapsUpward (initialMs maxMs factor : Nat) : Prop where
  climbs : ∀ n, (∀ k ≤ n, powerMs initialMs factor k * factor < maxMs) →
    powerMs initialMs factor n ≤ powerMs initialMs factor (n + 1)
  lands : ∀ n, (∀ k < n, powerMs initialMs factor k * factor < maxMs) →
    maxMs ≤ powerMs initialMs factor n * factor →
    powerMs initialMs factor n ≤ maxMs % 0x10000000000000000

section Sequence

variable {factor maxMs a : Nat}

theorem nextOf_lt (x : Nat) : nextOf factor maxMs x < 0x10000000000000000 :=
  Nat.mod_lt _ (by decide)

theorem nextOf_le (x : Nat) : nextOf factor maxMs x ≤ maxMs :=
  (Nat.mod_le _ _).trans (Nat.min_le_right _ _)

/-- Below `2 ^ 64` the cast changes nothing, and a number that is multiplied does not go down. -/
theorem nextOf_of_small (small : maxMs < 0x10000000000000000) (x : Nat) :
    nextOf factor maxMs x = min (x * factor) maxMs :=
  Nat.mod_eq_of_lt ((Nat.min_le_right _ _).trans_lt small)

theorem iterate_le_of_small (small : maxMs < 0x10000000000000000) (grows : 1 ≤ factor)
    (start : a ≤ maxMs) (n : Nat) :
    (nextOf factor maxMs)^[n] a ≤ (nextOf factor maxMs)^[n + 1] a := by
  rw [Function.iterate_succ_apply', nextOf_of_small small]
  refine le_min (Nat.le_mul_of_pos_right _ grows) ?_
  cases n with
  | zero => exact start
  | succ n =>
    rw [Function.iterate_succ_apply']
    exact nextOf_le _

theorem min_mul_ne_iff (grows : 1 ≤ factor) (start : a ≤ maxMs) :
    min (a * factor) maxMs ≠ a ↔ 1 ≤ a ∧ 2 ≤ factor ∧ a < maxMs := by
  constructor
  · intro moved
    refine ⟨?_, ?_, ?_⟩ <;> by_contra stays <;> refine moved ?_
    · obtain rfl : a = 0 := by omega
      rw [Nat.zero_mul, Nat.zero_min]
    · obtain rfl : factor = 1 := by omega
      rw [Nat.mul_one, Nat.min_eq_left start]
    · obtain rfl : a = maxMs := by omega
      exact Nat.min_eq_right (Nat.le_mul_of_pos_right a grows)
  · rintro ⟨positive, doubles, below⟩
    have := Nat.mul_le_mul_left a doubles
    omega

theorem powerMs_succ (a factor n : Nat) :
    powerMs a factor (n + 1) = powerMs a factor n * factor % 0x10000000000000000 := by
  rw [powerMs, powerMs, Nat.mod_mul_mod, pow_succ, Nat.mul_assoc]

/-- Before the maximum is reached, the numbers are the products. -/
theorem iterate_eq_power (small : a < 0x10000000000000000) {n : Nat}
    (below : ∀ k < n, powerMs a factor k * factor < maxMs) :
    (nextOf factor maxMs)^[n] a = powerMs a factor n := by
  induction n with
  | zero => simp [powerMs, Nat.mod_eq_of_lt small]
  | succ n ih =>
    rw [Function.iterate_succ_apply', ih (fun k before => below k (Nat.lt_succ_of_lt before)), nextOf,
      Nat.min_eq_left (below n (Nat.lt_succ_self n)).le, powerMs_succ]

/-- Once the maximum is reached from below, the numbers stay where it is cast to. -/
theorem iterate_of_reached {x : Nat} (reached : maxMs ≤ x * factor)
    (up : x ≤ maxMs % 0x10000000000000000) (n : Nat) :
    (nextOf factor maxMs)^[n + 1] x = maxMs % 0x10000000000000000 := by
  induction n with
  | zero => rw [Function.iterate_one, nextOf, Nat.min_eq_right reached]
  | succ n ih =>
    rw [Function.iterate_succ_apply', ih, nextOf,
      Nat.min_eq_right (reached.trans (Nat.mul_le_mul_right _ up))]

/-- From the first product that reaches the maximum on, the numbers stay the same. -/
theorem WrapsUpward.settles (up : WrapsUpward a maxMs factor) (small : a < 0x10000000000000000)
    {first : Nat} (below : ∀ k < first, powerMs a factor k * factor < maxMs)
    (reached : maxMs ≤ powerMs a factor first * factor) (n : Nat) :
    (nextOf factor maxMs)^[n + 1 + first] a = maxMs % 0x10000000000000000 := by
  rw [Function.iterate_add_apply, iterate_eq_power small below,
    iterate_of_reached reached (up.lands first below reached)]

theorem WrapsUpward.of_iterate_le (small : a < 0x10000000000000000)
    (up : ∀ n, (nextOf factor maxMs)^[n] a ≤ (nextOf factor maxMs)^[n + 1] a) :
    WrapsUpward a maxMs factor := by
  refine ⟨fun n below => ?_, fun n below reached => ?_⟩
  · have step := up n
    rwa [iterate_eq_power small (fun k before => below k before.le),
      iterate_eq_power small (fun k before => below k (Nat.le_of_lt_succ before))] at step
  · have step := up n
    rwa [Function.iterate_succ_apply', iterate_eq_power small below, nextOf,
      Nat.min_eq_right reached] at step

theorem WrapsUpward.iterate_le (up : WrapsUpward a maxMs factor) (small : a < 0x10000000000000000)
    (n : Nat) : (nextOf factor maxMs)^[n] a ≤ (nextOf factor maxMs)^[n + 1] a := by
  by_cases below : ∀ k ≤ n, powerMs a factor k * factor < maxMs
  · rw [iterate_eq_power small (fun k before => below k before.le),
      iterate_eq_power small (fun k before => below k (Nat.le_of_lt_succ before))]
    exact up.climbs n below
  · obtain ⟨k, within, reached⟩ : ∃ k ≤ n, maxMs ≤ powerMs a factor k * factor := by
      simpa using below
    have reaches : ∃ k, maxMs ≤ powerMs a factor k * factor := ⟨k, reached⟩
    have before : ∀ k < Nat.find reaches, powerMs a factor k * factor < maxMs :=
      fun k earlier => not_le.mp (Nat.find_min reaches earlier)
    have first := Nat.find_spec reaches
    have settled := up.settles small before first
    obtain ⟨m, rfl⟩ := Nat.exists_eq_add_of_le ((Nat.find_min' reaches reached).trans within)
    cases m with
    | zero =>
      have next := settled 0
      rw [Nat.zero_add, Nat.add_comm] at next
      rw [Nat.add_zero, next, iterate_eq_power small before]
      exact up.lands _ before first
    | succ m =>
      have here := settled m
      have next := settled (m + 1)
      rw [Nat.add_comm] at here next
      rw [here]
      exact next.ge

theorem iterate_le_iff (small : a < 0x10000000000000000) :
    (∀ n, (nextOf factor maxMs)^[n] a ≤ (nextOf factor maxMs)^[n + 1] a) ↔
      WrapsUpward a maxMs factor :=
  ⟨.of_iterate_le small, fun up => up.iterate_le small⟩

end Sequence

/-! ## The delays -/

/-- The delay of the `n`-th failure after the first one. -/
def delayAt (initial max : Duration) (factor : Nat) : Nat → Duration
  | 0 => initial
  | n + 1 => .fromMillis (UInt64.ofNat ((nextOf factor max.asMillis)^[n + 1] initial.asMillis))

/-- Since the start or the last reset, `n` attempts have failed. -/
structure AfterFailures (initial max : Duration) (factor n : Nat) (b : Backoff) : Prop where
  initial_eq : b.initial = initial
  max_eq : b.max = max
  factor_eq : b.factor = factor
  failures : b.consecutiveFailures = 0 ↔ n = 0
  current : b.current = delayAt initial max factor (n - 1)

section Delays

theorem min_asMillis_u128 (d : Duration) (x : Nat) :
    min (min x 0xffffffffffffffffffffffffffffffff) d.asMillis = min x d.asMillis := by
  have := d.secs_lt
  have := d.nanos_lt
  unfold Duration.asMillis
  omega

variable {initial max : Duration} {factor n : Nat} {b : Backoff}

theorem toNat_iterate_nextOf (a n : Nat) :
    (UInt64.ofNat ((nextOf factor max.asMillis)^[n + 1] a)).toNat =
      (nextOf factor max.asMillis)^[n + 1] a := by
  rw [Function.iterate_succ_apply', UInt64.toNat_ofNat', Nat.mod_eq_of_lt (nextOf_lt _)]

theorem asMillis_delayAt (n : Nat) : (delayAt initial max factor n).asMillis =
    (nextOf factor max.asMillis)^[n] initial.asMillis := by
  cases n with
  | zero => rfl
  | succ n => rw [delayAt, Duration.asMillis_fromMillis, toNat_iterate_nextOf]

theorem toNanos_delayAt_succ (n : Nat) : (delayAt initial max factor (n + 1)).toNanos =
    (nextOf factor max.asMillis)^[n + 1] initial.asMillis * 1000000 := by
  rw [delayAt, Duration.toNanos_fromMillis, toNat_iterate_nextOf]

theorem afterFailures_new (ordered : initial ≤ max) (grows : 1 ≤ factor) :
    AfterFailures initial max factor 0 (.new initial max factor) :=
  ⟨rfl, max_eq_left ordered, Nat.max_eq_left grows, Iff.rfl, rfl⟩

theorem AfterFailures.recordFailure (h : AfterFailures initial max factor n b)
    (ordered : initial ≤ max) : b.recordFailure.1 = delayAt initial max factor n ∧
      AfterFailures initial max factor (n + 1) b.recordFailure.2 := by
  have current : b.recordFailure.1 = delayAt initial max factor n := by
    have current := h.current
    have failures := h.failures
    cases n with
    | zero =>
      rw [Backoff.recordFailure, if_neg (by omega), h.initial_eq, h.max_eq]
      exact min_eq_left ordered
    | succ n =>
      rw [Nat.add_sub_cancel] at current
      rw [Backoff.recordFailure, if_pos (by omega), delayAt, Function.iterate_succ_apply', nextMs,
        current, h.factor_eq, h.max_eq, asMillis_delayAt, min_asMillis_u128]
      exact congrArg Duration.fromMillis UInt64.ofNat_mod_size.symm
  refine ⟨current, h.initial_eq, h.max_eq, h.factor_eq, ?_, current⟩
  simp only [Backoff.recordFailure]
  omega

theorem AfterFailures.recordSuccess (h : AfterFailures initial max factor n b) :
    AfterFailures initial max factor 0 b.recordSuccess :=
  ⟨h.initial_eq, h.max_eq, h.factor_eq, by simp [Backoff.recordSuccess], h.initial_eq⟩

theorem AfterFailures.run (ordered : initial ≤ max) (attempts : List Attempt) :
    ∀ {n b}, AfterFailures initial max factor n b →
      ∃ n, AfterFailures initial max factor n (attempts.foldl step b) := by
  induction attempts with
  | nil => exact fun h => ⟨_, h⟩
  | cons attempt attempts ih =>
    intro n b h
    cases attempt with
    | failed => exact ih (h.recordFailure ordered).2
    | succeeded => exact ih h.recordSuccess

theorem AfterFailures.replicate (ordered : initial ≤ max) (m : Nat) :
    ∀ {n b}, AfterFailures initial max factor n b →
      AfterFailures initial max factor (n + m) ((List.replicate m .failed).foldl step b) := by
  induction m with
  | zero => exact fun h => h
  | succ m ih =>
    intro n b h
    rw [List.replicate_succ, List.foldl_cons, Nat.add_comm m 1, ← Nat.add_assoc]
    exact ih (h.recordFailure ordered).2

end Delays

/-! ## The bounds -/

/-- In whatever run of attempts, the delay a failure returns is within the bounds, the one of a
failure right after it is no less, and a success brings the first delay back. -/
def Bounded (initial max : Duration) (factor : Nat) : Prop :=
  ∀ attempts : List Attempt, let b := attempts.foldl step (.new initial max factor)
    (initial ≤ b.recordFailure.1 ∧ b.recordFailure.1 ≤ max) ∧
    b.recordFailure.1 ≤ b.recordFailure.2.recordFailure.1 ∧
    b.recordSuccess.currentDelay = initial ∧ b.recordSuccess.recordFailure.1 = initial

/-- Neither the cut to milliseconds nor the cast to 64 bits leads down. -/
def Sound (initial max : Duration) (factor : Nat) : Prop :=
  if max.asMillis < 0x10000000000000000 then
    initial.WholeMillis ∨ (1 ≤ initial.asMillis ∧ 2 ≤ factor ∧ initial.asMillis < max.asMillis)
  else
    initial.asMillis < 0x10000000000000000 ∧
      WrapsUpward initial.asMillis max.asMillis factor ∧
      (initial.WholeMillis ∨
        min (initial.asMillis * factor) max.asMillis % 0x10000000000000000 ≠ initial.asMillis)

section Bounds

variable {initial max : Duration} {factor : Nat}

theorem delayAt_le (ordered : initial ≤ max) (n : Nat) : delayAt initial max factor n ≤ max := by
  cases n with
  | zero => exact ordered
  | succ n =>
    have capped : nextOf factor max.asMillis ((nextOf factor max.asMillis)^[n] initial.asMillis) ≤
        max.asMillis := nextOf_le _
    rw [Duration.le_iff_toNanos, toNanos_delayAt_succ, Function.iterate_succ_apply']
    rw [Duration.asMillis_eq max] at capped ⊢
    omega

/-- The delays of the runs are all those of the sequence. -/
theorem bounded_iff_delays (ordered : initial ≤ max) (grows : 1 ≤ factor) :
    Bounded initial max factor ↔
      ∀ n, delayAt initial max factor n ≤ delayAt initial max factor (n + 1) := by
  have start := afterFailures_new ordered grows
  constructor
  · intro bounded n
    have after := start.replicate ordered n
    rw [Nat.zero_add] at after
    obtain ⟨first, next⟩ := after.recordFailure ordered
    have up := (bounded (List.replicate n .failed)).2.1
    rwa [first, (next.recordFailure ordered).1] at up
  · intro up attempts
    obtain ⟨n, after⟩ := start.run ordered attempts
    obtain ⟨first, next⟩ := after.recordFailure ordered
    have reset := after.recordSuccess
    dsimp only
    rw [first, (next.recordFailure ordered).1, (reset.recordFailure ordered).1]
    have above : delayAt initial max factor 0 ≤ delayAt initial max factor n :=
      monotone_nat_of_le_succ up (Nat.zero_le n)
    exact ⟨⟨above, delayAt_le ordered n⟩, up n, reset.current, rfl⟩

/-- The first delay alone may have a part of a millisecond, which the next one has lost. -/
theorem delays_iff_iterates : (∀ n, delayAt initial max factor n ≤
      delayAt initial max factor (n + 1)) ↔
    (∀ n, (nextOf factor max.asMillis)^[n] initial.asMillis ≤
        (nextOf factor max.asMillis)^[n + 1] initial.asMillis) ∧
      (initial.WholeMillis ∨ nextOf factor max.asMillis initial.asMillis ≠ initial.asMillis) := by
  have first : initial ≤ delayAt initial max factor 1 ↔
      initial.asMillis ≤ nextOf factor max.asMillis initial.asMillis ∧ (initial.WholeMillis ∨
        nextOf factor max.asMillis initial.asMillis ≠ initial.asMillis) := by
    have cut := initial.asMillis_eq
    rw [Duration.le_iff_toNanos, toNanos_delayAt_succ, Function.iterate_one,
      Duration.wholeMillis_iff]
    omega
  have later : ∀ n, delayAt initial max factor (n + 1) ≤ delayAt initial max factor (n + 1 + 1) ↔
      (nextOf factor max.asMillis)^[n + 1] initial.asMillis ≤
        (nextOf factor max.asMillis)^[n + 1 + 1] initial.asMillis := by
    intro n
    rw [Duration.le_iff_toNanos, toNanos_delayAt_succ, toNanos_delayAt_succ]
    omega
  constructor
  · intro up
    refine ⟨fun n => ?_, (first.mp (up 0)).2⟩
    cases n with
    | zero => exact (first.mp (up 0)).1
    | succ n => exact (later n).mp (up (n + 1))
  · rintro ⟨up, whole⟩ n
    cases n with
    | zero => exact first.mpr ⟨up 0, whole⟩
    | succ n => exact (later n).mpr (up (n + 1))

end Bounds

/-- The delays keep to their bounds exactly where neither the cut to milliseconds nor the cast to 64
bits leads down. -/
theorem bounded_iff_sound (initial max : Duration) (factor : Nat)
    (ordered : initial ≤ max) (grows : 1 ≤ factor) :
    Bounded initial max factor ↔ Sound initial max factor := by
  rw [bounded_iff_delays ordered grows, delays_iff_iterates, Sound]
  have ordered_ms : initial.asMillis ≤ max.asMillis := by
    rw [Duration.asMillis_eq, Duration.asMillis_eq]
    exact Nat.div_le_div_right ordered
  split
  · rename_i small
    have moves : min (initial.asMillis * factor) max.asMillis ≠ initial.asMillis ↔
        1 ≤ initial.asMillis ∧ 2 ≤ factor ∧ initial.asMillis < max.asMillis :=
      min_mul_ne_iff grows ordered_ms
    rw [nextOf_of_small small, moves]
    exact and_iff_right (iterate_le_of_small small grows ordered_ms)
  · constructor
    · rintro ⟨up, whole⟩
      have small : initial.asMillis < 0x10000000000000000 := (up 0).trans_lt (nextOf_lt _)
      exact ⟨small, (iterate_le_iff small).mp up, whole⟩
    · rintro ⟨small, up, whole⟩
      exact ⟨(iterate_le_iff small).mpr up, whole⟩

/-- The default policy, and one whose delay is cast down to itself: three times `2 ^ 63` is `2 ^ 63`
in 64 bits. -/
theorem bounded_iff_sound_default :
    (∀ attempts : List Attempt,
      .fromMillis 200 ≤ (attempts.foldl step defaultPolicy).recordFailure.1 ∧
        (attempts.foldl step defaultPolicy).recordFailure.1 ≤ .fromSecs 30) ∧
    Bounded (.fromMillis 0x8000000000000000) ⟨0xffffffffffffffff, 0, by decide, by decide⟩ 3 := by
  have same : ∀ n, powerMs 0x8000000000000000 3 n = 0x8000000000000000 := by
    intro n
    induction n with
    | zero => rfl
    | succ n ih => rw [powerMs_succ, ih]
  have wraps : WrapsUpward 0x8000000000000000 0x3e7fffffffffffffc18 3 :=
    ⟨fun n _ => by rw [same, same], fun n _ reached => by rw [same] at reached; omega⟩
  constructor
  · have bounded : Bounded (.fromMillis 200) (.fromSecs 30) 2 :=
      (bounded_iff_sound _ _ 2 (by decide) (by decide)).mpr ((if_pos (by decide)).mpr (.inl rfl))
    exact fun attempts => (bounded attempts).1
  · exact (bounded_iff_sound _ _ 3 (by decide) (by decide)).mpr
      ((if_neg (by decide)).mpr ⟨by decide, wraps, .inl rfl⟩)

/-- A half millisecond is cut, and the second delay is none. -/
theorem halfMillisecond_collapses : ¬ ∀ (initial max : Duration) (factor : Nat),
    0 < initial.toNanos → initial ≤ max → 1 ≤ factor → Bounded initial max factor :=
  fun bounded => absurd (bounded ⟨0, 500000, by decide, by decide⟩ ⟨1, 0, by decide, by decide⟩ 2
    (by decide) (by decide) (by decide) [.failed]).1.1 (by decide)

end Backoff

end VsFleet
