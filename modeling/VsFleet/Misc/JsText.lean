import Mathlib.Data.List.Basic
import Mathlib.Data.List.TakeWhile

/-!
# Text and numbers of JavaScript

A string is a list of code units; `parseInt` reads a number off the front of one. A number is the
double nearest to the digits, as engines have it for the radix ten.
-/

namespace VsFleet

/-- A string, by its code units. -/
abbrev JsString := List UInt16

namespace JsText

/-- The string of a text without characters beyond the basic plane. -/
def ofString (s : String) : JsString := s.toList.map (fun c => c.toNat.toUInt16)

/-- `indexOf` and the two `slice`s around it: the string in front of the first of a code unit and
the one behind it, if there is one. -/
def splitFirst (c : UInt16) : JsString → JsString × Option JsString
  | [] => ([], none)
  | d :: s => if d = c then ([], some s) else ((d :: (splitFirst c s).1), (splitFirst c s).2)

section Split

variable {c : UInt16} {a : JsString}

theorem splitFirst_of_not_mem (h : c ∉ a) : splitFirst c a = (a, none) := by
  induction a with
  | nil => rfl
  | cons d a ih =>
    obtain ⟨other, later⟩ := List.ne_and_not_mem_of_not_mem_cons h
    rw [splitFirst, if_neg (Ne.symm other), ih later]

theorem splitFirst_append (h : c ∉ a) (b : JsString) :
    splitFirst c (a ++ c :: b) = (a, some b) := by
  induction a with
  | nil => rw [List.nil_append, splitFirst, if_pos rfl]
  | cons d a ih =>
    obtain ⟨other, later⟩ := List.ne_and_not_mem_of_not_mem_cons h
    rw [List.cons_append, splitFirst, if_neg (Ne.symm other), ih later]

theorem not_mem_splitFirst : c ∉ (splitFirst c a).1 := by
  induction a with
  | nil => exact List.not_mem_nil
  | cons d a ih =>
    rw [splitFirst]
    split_ifs with h
    · exact List.not_mem_nil
    · exact List.not_mem_cons_of_ne_of_not_mem (Ne.symm h) ih

/-- The parts make up the string. -/
theorem splitFirst_join : (splitFirst c a).1 ++
    (match (splitFirst c a).2 with | some b => c :: b | none => []) = a := by
  induction a with
  | nil => rfl
  | cons d a ih =>
    rw [splitFirst]
    split_ifs with h
    · rw [h]
      rfl
    · exact congrArg (List.cons d) ih

end Split

/-- White space and line terminators. -/
def isSpace (c : UInt16) : Bool :=
  c ∈ [0x9, 0xa, 0xb, 0xc, 0xd, 0x20, 0xa0, 0x1680, 0x2028, 0x2029, 0x202f, 0x205f, 0x3000,
    0xfeff] || (0x2000 ≤ c && c ≤ 0x200a)

/-- An ASCII digit. -/
def isDigit (c : UInt16) : Bool := 0x30 ≤ c && c ≤ 0x39

/-- The number of some digits. -/
def decimal (digits : JsString) : Nat :=
  digits.foldl (fun n c => 10 * n + (c.toNat - 0x30)) 0

/-- The double nearest to a natural number, of two the one with the even significand; there is none
from the middle behind the greatest on. -/
def toDouble (n : Nat) : Option Nat :=
  if n < 0x20000000000000 then some n
  else
    let exponent := n.log2 - 52
    let significand := n >>> exponent
    let rest := n - significand <<< exponent
    let half := 1 <<< (exponent - 1)
    let rounded :=
      if half < rest ∨ rest = half ∧ significand % 2 = 1 then significand + 1 else significand
    let double := rounded <<< exponent
    if double.log2 < 1024 then some double else none

/-- A number as `parseInt` returns it: there is no telling the two zeros apart. -/
inductive Number where
  | nan
  | infinite (negative : Bool)
  | finite (value : Int)
  deriving DecidableEq, Repr

/-- The sign at the front of a string, and what is behind it. -/
def sign : JsString → Bool × JsString
  | c :: s => if c = 0x2d then (true, s) else if c = 0x2b then (false, s) else (false, c :: s)
  | [] => (false, [])

/-- `parseInt` with the radix ten. -/
def parseInt (s : JsString) : Number :=
  let (negative, rest) := sign (s.dropWhile isSpace)
  let digits := rest.takeWhile isDigit
  if digits.isEmpty then .nan
  else match toDouble (decimal digits) with
    | some n => .finite (if negative then -(n : Int) else n)
    | none => .infinite negative

/-- Some decimal digits, at least one. -/
def Digits (s : JsString) : Prop := s ≠ [] ∧ s.all isDigit

instance (s : JsString) : Decidable (Digits s) := inferInstanceAs (Decidable (_ ∧ _))

theorem isDigit_not_space {c : UInt16} (h : isDigit c) : isSpace c = false := by
  obtain ⟨low, high⟩ : 0x30 ≤ c ∧ c ≤ 0x39 := by simpa [isDigit] using h
  have low' : 48 ≤ c.toNat := UInt16.le_iff_toNat_le.mp low
  have high' : c.toNat ≤ 57 := UInt16.le_iff_toNat_le.mp high
  rw [Bool.eq_false_iff]
  intro space
  simp only [isSpace, List.mem_cons, List.not_mem_nil, or_false, Bool.or_eq_true,
    decide_eq_true_eq, Bool.and_eq_true, ← UInt16.toNat_inj, UInt16.le_iff_toNat_le,
    UInt16.toNat_ofNat] at space
  omega

/-- Digits are read to their end. -/
theorem parseInt_digits {s : JsString} (h : Digits s) : parseInt s =
    match toDouble (decimal s) with
    | some n => .finite n
    | none => .infinite false := by
  obtain ⟨some_digit, all⟩ := h
  rw [List.all_eq_true] at all
  obtain ⟨c, rest, rfl⟩ := List.exists_cons_of_ne_nil some_digit
  have digit := all c (List.mem_cons_self ..)
  have no_space : (c :: rest).dropWhile isSpace = c :: rest :=
    List.dropWhile_cons_of_neg (by rw [isDigit_not_space digit]; exact Bool.false_ne_true)
  have no_sign : sign (c :: rest) = (false, c :: rest) := by
    have not_minus : c ≠ 0x2d := by rintro rfl; exact absurd digit (by decide)
    have not_plus : c ≠ 0x2b := by rintro rfl; exact absurd digit (by decide)
    rw [sign, if_neg not_minus, if_neg not_plus]
  have whole : (c :: rest).takeWhile isDigit = c :: rest := List.takeWhile_eq_self_iff.mpr all
  simp only [parseInt, no_space, no_sign, whole, List.isEmpty_cons, Bool.false_eq_true, if_false]

end JsText

end VsFleet
