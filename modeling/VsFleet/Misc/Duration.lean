import Mathlib.Data.Nat.Basic
import Mathlib.Order.Lattice

/-!
# Spans of time

The `Duration` of the standard library of Rust: whole seconds in 64 bits and the nanoseconds of a
last second that is not whole. It is ordered as its count of nanoseconds is.
-/

namespace VsFleet

/-- `std::time::Duration`. -/
structure Duration where
  secs : Nat
  nanos : Nat
  secs_lt : secs < 0x10000000000000000
  nanos_lt : nanos < 1000000000

namespace Duration

/-- A duration in nanoseconds. -/
def toNanos (d : Duration) : Nat := d.secs * 1000000000 + d.nanos

theorem toNanos_injective : Function.Injective toNanos := by
  rintro ⟨secs, nanos, _, nanos_lt⟩ ⟨secs', nanos', _, nanos_lt'⟩ same
  obtain ⟨rfl, rfl⟩ : secs = secs' ∧ nanos = nanos' := by
    simp only [toNanos] at same
    omega
  rfl

instance : LinearOrder Duration := LinearOrder.lift' toNanos toNanos_injective

/-- The order compares the seconds first. -/
theorem le_iff {d e : Duration} :
    d ≤ e ↔ d.secs < e.secs ∨ d.secs = e.secs ∧ d.nanos ≤ e.nanos := by
  have := d.nanos_lt
  have := e.nanos_lt
  change d.secs * 1000000000 + d.nanos ≤ e.secs * 1000000000 + e.nanos ↔ _
  omega

theorem le_iff_toNanos {d e : Duration} : d ≤ e ↔ d.toNanos ≤ e.toNanos := Iff.rfl

/-- `as_millis`: a millisecond that is not whole is cut. -/
def asMillis (d : Duration) : Nat := d.secs * 1000 + d.nanos / 1000000

/-- `from_millis`. -/
def fromMillis (ms : UInt64) : Duration where
  secs := ms.toNat / 1000
  nanos := ms.toNat % 1000 * 1000000
  secs_lt := (Nat.div_le_self _ _).trans_lt ms.toNat_lt
  nanos_lt := by omega

/-- `from_secs`. -/
def fromSecs (secs : UInt64) : Duration where
  secs := secs.toNat
  nanos := 0
  secs_lt := secs.toNat_lt
  nanos_lt := Nat.succ_pos _

/-- Nothing is cut. -/
def WholeMillis (d : Duration) : Prop := d.nanos % 1000000 = 0

theorem asMillis_eq (d : Duration) : d.asMillis = d.toNanos / 1000000 := by
  unfold asMillis toNanos
  omega

theorem wholeMillis_iff (d : Duration) : d.WholeMillis ↔ d.toNanos = d.asMillis * 1000000 := by
  unfold WholeMillis asMillis toNanos
  omega

@[simp] theorem toNanos_fromMillis (ms : UInt64) :
    (fromMillis ms).toNanos = ms.toNat * 1000000 := by
  simp only [fromMillis, toNanos]
  omega

@[simp] theorem asMillis_fromMillis (ms : UInt64) : (fromMillis ms).asMillis = ms.toNat := by
  rw [asMillis_eq, toNanos_fromMillis, Nat.mul_div_cancel _ (by decide)]

end Duration

end VsFleet
