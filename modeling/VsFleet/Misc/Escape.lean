import Mathlib.Data.List.Basic

/-!
# Bytes escaped in a text

A scheme writes a byte as the ASCII character of its value, or as a mark and the two hexadecimal
digits of it. The mark is not written for itself, so the bytes can be read back.
-/

namespace VsFleet

/-- The value of a hexadecimal digit of either case. -/
def hexValue (c : Char) : Option Nat :=
  if 48 ≤ c.toNat ∧ c.toNat ≤ 57 then some (c.toNat - 48)
  else if 65 ≤ c.toNat ∧ c.toNat ≤ 70 then some (c.toNat - 55)
  else if 97 ≤ c.toNat ∧ c.toNat ≤ 102 then some (c.toNat - 87)
  else none

theorem toNat_ofNat_ascii {n : Nat} (ascii : n < 128) : (Char.ofNat n).toNat = n := by
  rw [Char.ofNat, dif_pos (.inl (by omega))]
  rfl

theorem utf8EncodeChar_ofNat {byte : UInt8} (ascii : byte.toNat < 128) :
    String.utf8EncodeChar (Char.ofNat byte.toNat) = [byte] := by
  have value : (Char.ofNat byte.toNat).val.toNat = byte.toNat := toNat_ofNat_ascii ascii
  have size : (Char.ofNat byte.toNat).utf8Size = 1 := by
    rw [Char.utf8Size_eq_one_iff, UInt32.le_iff_toNat_le, value]
    exact Nat.le_of_lt_succ ascii
  rw [String.utf8EncodeChar_eq_singleton size, List.singleton_inj, ← UInt8.toNat_inj,
    UInt32.toNat_toUInt8, value]
  exact Nat.mod_eq_of_lt byte.toNat_lt

/-- The bytes of a text in which a mark stands in front of two hexadecimal digits: any other
character is the bytes of its UTF-8 encoding, and a mark without its digits is an error. -/
def unescape (mark : Char) : List Char → Option (List UInt8)
  | [] => some []
  | c :: text =>
    if c = mark then
      match text with
      | high :: low :: text => do
        let high ← hexValue high
        let low ← hexValue low
        let bytes ← unescape mark text
        return UInt8.ofNat (high * 16 + low) :: bytes
      | _ => none
    else (unescape mark text).map (fun bytes => String.utf8EncodeChar c ++ bytes)

theorem unescape_kept {mark c : Char} (h : c ≠ mark) (text : List Char) :
    unescape mark (c :: text) =
      (unescape mark text).map (fun bytes => String.utf8EncodeChar c ++ bytes) := by
  rw [unescape.eq_def]
  simp only [if_neg h]

/-- A text of characters that are kept and of escapes. -/
inductive Escaped (mark : Char) (kept digit : Char → Prop) : List Char → Prop
  | nil : Escaped mark kept digit []
  | kept {c : Char} {text : List Char} :
      kept c → Escaped mark kept digit text → Escaped mark kept digit (c :: text)
  | escape {high low : Char} {text : List Char} : digit high → digit low →
      Escaped mark kept digit text → Escaped mark kept digit (mark :: high :: low :: text)

theorem Escaped.forall_mem {mark : Char} {kept digit P : Char → Prop} {text : List Char}
    (h : Escaped mark kept digit text) (of_mark : P mark) (of_kept : ∀ c, kept c → P c)
    (of_digit : ∀ c, digit c → P c) : ∀ c ∈ text, P c := by
  induction h with
  | nil => exact fun c mem => absurd mem List.not_mem_nil
  | kept own _ ih => exact List.forall_mem_cons.mpr ⟨of_kept _ own, ih⟩
  | escape high low _ ih =>
    exact List.forall_mem_cons.mpr ⟨of_mark, List.forall_mem_cons.mpr ⟨of_digit _ high,
      List.forall_mem_cons.mpr ⟨of_digit _ low, ih⟩⟩⟩

/-- Which bytes are written for themselves, and with which digits the others are. -/
structure EscapeScheme where
  mark : Char
  plain : UInt8 → Bool
  digit : Nat → Char
  ascii : ∀ byte, plain byte = true → byte.toNat < 128
  mark_escaped : plain (UInt8.ofNat mark.toNat) = false
  hexValue_digit : ∀ n < 16, hexValue (digit n) = some n

namespace EscapeScheme

variable (scheme : EscapeScheme) (bytes : List UInt8)

/-- A byte that is plain stays, and any other is written as the mark and two digits. -/
def escapeByte (byte : UInt8) : List Char :=
  if scheme.plain byte then [Char.ofNat byte.toNat]
  else [scheme.mark, scheme.digit (byte.toNat / 16), scheme.digit (byte.toNat % 16)]

/-- A text, byte by byte. -/
def escape : List Char := bytes.flatMap scheme.escapeByte

variable {scheme} in
theorem ne_mark {byte : UInt8} (plain : scheme.plain byte = true) :
    Char.ofNat byte.toNat ≠ scheme.mark := by
  intro same
  have own := scheme.mark_escaped
  rw [← same, toNat_ofNat_ascii (scheme.ascii byte plain), UInt8.ofNat_toNat, plain] at own
  cases own

/-- A byte that was written is the first one read. -/
theorem unescape_escapeByte (byte : UInt8) (text : List Char) :
    unescape scheme.mark (scheme.escapeByte byte ++ text) =
      (unescape scheme.mark text).map (fun bytes => byte :: bytes) := by
  unfold escapeByte
  split
  · rename_i plain
    rw [List.singleton_append, unescape_kept (ne_mark plain),
      utf8EncodeChar_ofNat (scheme.ascii byte plain)]
    rfl
  · have high := scheme.hexValue_digit (byte.toNat / 16) (by have := byte.toNat_lt; omega)
    have low := scheme.hexValue_digit (byte.toNat % 16) (Nat.mod_lt _ (by decide))
    have joined : UInt8.ofNat (byte.toNat / 16 * 16 + byte.toNat % 16) = byte := by
      rw [Nat.div_add_mod', UInt8.ofNat_toNat]
    simp only [List.cons_append, List.nil_append, unescape, if_true, high, low,
      Option.bind_eq_bind, Option.bind_some, joined]
    cases unescape scheme.mark text <;> rfl

theorem unescape_escape : unescape scheme.mark (scheme.escape bytes) = some bytes := by
  induction bytes with
  | nil => rfl
  | cons byte bytes ih =>
    rw [escape, List.flatMap_cons, unescape_escapeByte, ← escape, ih]
    rfl

theorem escape_injective : Function.Injective scheme.escape := by
  intro a b same
  have read := scheme.unescape_escape a
  rw [same, scheme.unescape_escape b] at read
  exact (Option.some.inj read).symm

theorem escaped_escape {kept digit : Char → Prop}
    (plain_kept : ∀ byte, scheme.plain byte = true → kept (Char.ofNat byte.toNat))
    (digits : ∀ n < 16, digit (scheme.digit n)) :
    Escaped scheme.mark kept digit (scheme.escape bytes) := by
  induction bytes with
  | nil => exact .nil
  | cons byte bytes ih =>
    rw [escape, List.flatMap_cons, ← escape, escapeByte]
    split
    · exact .kept (plain_kept byte ‹_›) ih
    · have := byte.toNat_lt
      exact .escape (digits _ (by omega)) (digits _ (by omega)) ih

end EscapeScheme

end VsFleet
