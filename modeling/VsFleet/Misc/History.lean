import Mathlib.Data.List.Basic

/-!
# Logs

What a log of happenings, oldest first, says about the present: that something has happened and
nothing has undone it since, and what the last happening of a kind brought.
-/

namespace VsFleet

section History

variable {α β : Type}

/-- Something with `P` has happened, and nothing with `Q` since. -/
def Standing (P Q : α → Prop) (log : List α) : Prop :=
  ∃ before a after, log = before ++ a :: after ∧ P a ∧ ∀ b ∈ after, ¬ Q b

/-- What the last happening of the kind `f` picks out brought. -/
def latest (f : α → Option β) (log : List α) : Option β := (log.filterMap f).getLast?

variable {P Q : α → Prop} {f : α → Option β} {log : List α} {a : α}

theorem not_standing_nil : ¬ Standing P Q [] := by
  rintro ⟨before, a, after, parts, -⟩
  cases before <;> cases parts

theorem standing_concat :
    Standing P Q (log ++ [a]) ↔ P a ∨ (Standing P Q log ∧ ¬ Q a) := by
  constructor
  · rintro ⟨before, c, after, parts, happened, kept⟩
    rcases List.eq_nil_or_concat after with rfl | ⟨after, b, rfl⟩
    · obtain ⟨-, same⟩ := List.append_inj' parts rfl
      rw [List.singleton_inj] at same
      exact Or.inl (same ▸ happened)
    · rw [List.concat_eq_append, ← List.cons_append, ← List.append_assoc] at parts
      obtain ⟨rfl, same⟩ := List.append_inj' parts rfl
      rw [List.singleton_inj] at same
      rw [List.concat_eq_append] at kept
      exact Or.inr ⟨⟨before, c, after, rfl, happened,
        fun d hd => kept d (List.mem_append_left _ hd)⟩, same ▸ kept b (by simp)⟩
  · rintro (happened | ⟨⟨before, c, after, rfl, happened, kept⟩, quiet⟩)
    · exact ⟨log, a, [], rfl, happened, fun b hb => absurd hb List.not_mem_nil⟩
    · refine ⟨before, c, after ++ [a], by simp, happened, ?_⟩
      intro d hd
      rcases List.mem_append.mp hd with old | new
      · exact kept d old
      · exact List.mem_singleton.mp new ▸ quiet

theorem latest_concat : latest f (log ++ [a]) = (f a).or (latest f log) := by
  unfold latest
  rw [List.filterMap_append, List.filterMap_cons]
  cases f a with
  | none => simp
  | some b => simp

end History

end VsFleet
