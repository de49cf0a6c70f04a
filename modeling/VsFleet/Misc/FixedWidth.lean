import Mathlib.Algebra.Order.Ring.Nat
import Mathlib.Data.List.Basic

/-!
# Numbers of a fixed width

Decimal numerals of as many digits as their field is wide, and texts that fill in such fields. The
texts of one pattern are ordered as their numbers are, the first field first.
-/

namespace VsFleet

/-- The last `width` decimal digits. -/
def fixedDigits : Nat → Nat → List Char
  | 0, _ => []
  | width + 1, n => fixedDigits width (n / 10) ++ [Nat.digitChar (n % 10)]

@[simp] theorem length_fixedDigits (width : Nat) :
    ∀ n, (fixedDigits width n).length = width := by
  induction width with
  | zero => exact fun _ => rfl
  | succ width ih =>
    intro n
    rw [fixedDigits, List.length_append, ih, List.length_singleton]

theorem fixedDigits_zero (width : Nat) : fixedDigits width 0 = List.replicate width '0' := by
  induction width with
  | zero => rfl
  | succ width ih => rw [fixedDigits, Nat.zero_div, ih, List.replicate_succ']; rfl

/-- A numeral that fits in its field is filled up with zeros. -/
theorem padded_toDigits (width : Nat) : ∀ {n}, n < 10 ^ (width + 1) →
    List.replicate (width + 1 - (Nat.toDigits 10 n).length) '0' ++ Nat.toDigits 10 n =
      fixedDigits (width + 1) n := by
  induction width with
  | zero =>
    intro n fits
    have digit : n < 10 := fits
    rw [Nat.toDigits_of_lt_base digit, fixedDigits, Nat.mod_eq_of_lt digit]
    rfl
  | succ width ih =>
    intro n fits
    by_cases digit : n < 10
    · rw [Nat.toDigits_of_lt_base digit, fixedDigits, Nat.mod_eq_of_lt digit,
        Nat.div_eq_of_lt digit, fixedDigits_zero]
      rfl
    · have shorter : n / 10 < 10 ^ (width + 1) := by
        rw [pow_succ] at fits
        omega
      rw [Nat.toDigits_of_base_le (by decide) (not_lt.mp digit), fixedDigits, ← ih shorter,
        List.length_append, List.length_singleton, Nat.add_sub_add_right, List.append_assoc]

/-- Texts of one length are ordered by them, whatever comes behind. -/
theorem append_lt_append {a b : List Char} (c d : List Char) :
    a.length = b.length → a < b → a ++ c < b ++ d := by
  induction a generalizing b with
  | nil =>
    intro len lt
    rw [List.length_nil, eq_comm, List.length_eq_zero_iff] at len
    exact absurd (len ▸ lt) (List.lt_irrefl [])
  | cons x a ih =>
    intro len lt
    cases b with
    | nil => cases len
    | cons y b =>
      rw [List.cons_append, List.cons_append, List.cons_lt_cons_iff]
      exact (List.cons_lt_cons_iff.mp lt).imp_right
        (And.imp_right (ih (Nat.succ_inj.mp len)))

theorem digitChar_lt : ∀ {n m : Nat}, n < m → m < 10 → Nat.digitChar n < Nat.digitChar m := by
  have each : ∀ m < 10, ∀ n < m, Nat.digitChar n < Nat.digitChar m := by decide
  exact fun {_ _} lt fits => each _ fits _ lt

theorem fixedDigits_lt {width : Nat} : ∀ {n m}, n < m → m < 10 ^ width →
    fixedDigits width n < fixedDigits width m := by
  induction width with
  | zero =>
    intro n m lt fits
    omega
  | succ width ih =>
    intro n m lt fits
    rw [pow_succ] at fits
    by_cases tens : n / 10 < m / 10
    · exact append_lt_append _ _ (by simp) (ih tens (by omega))
    · have same : n / 10 = m / 10 := by omega
      rw [fixedDigits, fixedDigits, same]
      exact List.append_left_lt (List.cons_lt_cons_iff.mpr (.inl (digitChar_lt (by omega) (by omega))))

/-- A text of a pattern: each field is a width and the character behind it. -/
def fillIn : List (Nat × Char) → List Nat → List Char
  | (width, mark) :: pattern, n :: ns => fixedDigits width n ++ mark :: fillIn pattern ns
  | _, _ => []

/-- There is a number for each field, and it fits in it. -/
def Fits (pattern : List (Nat × Char)) (ns : List Nat) : Prop :=
  List.Forall₂ (fun field n => n < 10 ^ field.1) pattern ns

theorem fillIn_lt {pattern : List (Nat × Char)} {ns ms : List Nat} (fits : Fits pattern ns) :
    Fits pattern ms → ns < ms → fillIn pattern ns < fillIn pattern ms := by
  induction fits generalizing ms with
  | nil =>
    intro fits lt
    cases fits
    exact absurd lt (List.lt_irrefl [])
  | @cons field n pattern ns _ _ ih =>
    intro fits lt
    cases fits with
    | @cons _ m _ ms fits_m fits_ms =>
      rcases List.cons_lt_cons_iff.mp lt with first | ⟨rfl, rest⟩
      · exact append_lt_append _ _ (by simp) (fixedDigits_lt first fits_m)
      · exact List.append_left_lt (List.cons_lt_cons_iff.mpr (.inr ⟨rfl, ih fits_ms rest⟩))

end VsFleet
