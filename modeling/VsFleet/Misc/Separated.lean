import Mathlib.Data.List.Basic

/-!
# Texts with a separator

The parts of a text between its separators, and the text that puts parts together.
-/

namespace VsFleet

variable {α : Type} {separator : α} {parts : List (List α)} {part : List α}

/-- No part of a text has the separator in it. -/
theorem not_mem_of_mem_splitOn [DecidableEq α] (text : List α) :
    ∀ part ∈ text.splitOn separator, separator ∉ part := by
  induction text with
  | nil => simp
  | cons c text ih =>
    rw [List.splitOn_cons_eq_if_modifyHead]
    split
    · intro part mem
      rcases List.mem_cons.mp mem with rfl | mem
      · exact List.not_mem_nil
      · exact ih part mem
    · rename_i other
      have ne : separator ≠ c := fun same => other (beq_iff_eq.mpr same.symm)
      cases split_text : text.splitOn separator with
      | nil => exact absurd split_text (List.splitOn_ne_nil _ _)
      | cons first later =>
        rw [split_text] at ih
        intro part mem
        rcases List.mem_cons.mp mem with rfl | mem
        · exact List.not_mem_cons_of_ne_of_not_mem ne (ih first List.mem_cons_self)
        · exact ih part (List.mem_cons_of_mem first mem)

/-- A part more comes behind a separator. -/
theorem intercalate_snoc (some_part : parts ≠ []) :
    [separator].intercalate (parts ++ [part]) =
      [separator].intercalate parts ++ separator :: part := by
  induction parts with
  | nil => exact absurd rfl some_part
  | cons first parts ih =>
    cases parts with
    | nil => simp
    | cons second parts =>
      rw [List.cons_append, List.cons_append, List.intercalate_cons_cons,
        List.intercalate_cons_cons, ← List.cons_append, ih (List.cons_ne_nil _ _)]
      simp

end VsFleet
