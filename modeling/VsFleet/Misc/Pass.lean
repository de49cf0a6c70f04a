import Mathlib.Data.List.Nodup

/-!
# A pass over distinct keys

A loop visits keys one by one, and a visit says whether it changed anything; the loop keeps the list
of the keys whose visit did. Where each visit edits what the store holds for its own key only, the
pass edits every key it visits as if that visit were the only one.
-/

namespace VsFleet

section Pass

variable {σ κ : Type}

/-- The store after the visits, and the keys whose visit changed something. -/
def pass (visit : σ → κ → σ × Bool) : List κ → σ → σ × List κ
  | [], s => (s, [])
  | k :: ks, s =>
    let (s, moved) := visit s k
    let (s, changed) := pass visit ks s
    (s, if moved then k :: changed else changed)

theorem pass_kept {visit : σ → κ → σ × Bool} {β : Type} {f : σ → β}
    (kept : ∀ s k, f (visit s k).1 = f s) (ks : List κ) (s : σ) :
    f (pass visit ks s).1 = f s := by
  induction ks generalizing s with
  | nil => rfl
  | cons k ks ih => exact (ih _).trans (kept s k)

variable {τ : Type} [DecidableEq κ]

/-- A loop over labels of distinct keys that edits the entry of each label's own key edits it once,
and no other. -/
theorem entry_foldl {α : Type} (key : α → κ) (entry : σ → κ → τ) (edit : α → τ → τ)
    {visit : σ → α → σ}
    (own : ∀ s a k, entry (visit s a) k = if k = key a then edit a (entry s k) else entry s k)
    {as : List α} (distinct : (as.map key).Nodup) (s : σ) :
    (∀ a ∈ as, entry (as.foldl visit s) (key a) = edit a (entry s (key a))) ∧
      ∀ k ∉ as.map key, entry (as.foldl visit s) k = entry s k := by
  induction as generalizing s with
  | nil => simp
  | cons b as ih =>
    rw [List.map_cons, List.nodup_cons] at distinct
    obtain ⟨visited, others⟩ := ih distinct.2 (visit s b)
    constructor
    · intro a mem
      rw [List.foldl_cons]
      rcases List.mem_cons.mp mem with rfl | later
      · rw [others (key a) distinct.1, own, if_pos rfl]
      · have other : key a ≠ key b := by
          intro same
          exact distinct.1 (same ▸ List.mem_map_of_mem later)
        rw [visited a later, own, if_neg other]
    · intro k absent
      rw [List.map_cons, List.mem_cons, not_or] at absent
      rw [List.foldl_cons, others k absent.2, own, if_neg absent.1]

/-- A visit edits the entry of its own key, and reports by that entry whether it did. -/
structure Visit (entry : σ → κ → τ) (visit : σ → κ → σ × Bool) (edit : κ → τ → τ)
    (moves : κ → τ → Prop) : Prop where
  entry_visit : ∀ s k k', entry (visit s k).1 k' = if k' = k then edit k (entry s k) else entry s k'
  moved : ∀ s k, (visit s k).2 = true ↔ moves k (entry s k)

namespace Visit

variable {entry : σ → κ → τ} {visit : σ → κ → σ × Bool} {edit : κ → τ → τ} {moves : κ → τ → Prop}

theorem entry_pass (h : Visit entry visit edit moves) {ks : List κ} (distinct : ks.Nodup) (s : σ)
    (k : κ) : entry (pass visit ks s).1 k = if k ∈ ks then edit k (entry s k) else entry s k := by
  induction ks generalizing s with
  | nil => rfl
  | cons k' ks ih =>
    obtain ⟨fresh, rest⟩ := List.nodup_cons.mp distinct
    simp only [pass, ih rest, h.entry_visit, List.mem_cons]
    by_cases own : k = k'
    · subst own
      simp [fresh]
    · simp [own]

theorem mem_pass (h : Visit entry visit edit moves) {ks : List κ} (distinct : ks.Nodup) (s : σ)
    (k : κ) : k ∈ (pass visit ks s).2 ↔ k ∈ ks ∧ moves k (entry s k) := by
  induction ks generalizing s with
  | nil => simp [pass]
  | cons k' ks ih =>
    obtain ⟨fresh, rest⟩ := List.nodup_cons.mp distinct
    have later := ih rest (visit s k').1
    have here := h.moved s k'
    rw [h.entry_visit] at later
    simp only [pass, List.mem_cons]
    by_cases own : k = k'
    · subst own
      have absent : k ∉ (pass visit ks (visit s k).1).2 := fun again => fresh (later.mp again).1
      rw [← here]
      split
      · rename_i moved
        simp [moved]
      · rename_i still
        simp [absent, still]
    · rw [if_neg own] at later
      rw [or_iff_right own, ← later]
      split
      · rw [List.mem_cons, or_iff_right own]
      · rfl

end Visit

end Pass

end VsFleet
