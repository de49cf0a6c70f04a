import Mathlib.Data.List.Induction
import Mathlib.Logic.Basic

/-!
# Runs of a deterministic step

A run feeds a list of labels to a step function. A condition on a step is read in the state the
step starts from; an invariant that every step under the condition keeps holds at the end of
every run under it, and so, a beginning of such a run being one, in every state on the way.
-/

namespace VsFleet

section Runs

variable {σ α : Type} (step : σ → α → σ) (ok : σ → α → Prop)

/-- Every step of the run meets the condition in the state it starts from. -/
def Along : σ → List α → Prop
  | _, [] => True
  | s, a :: as => ok s a ∧ Along (step s a) as

variable {step ok}

instance decidableAlong [∀ s a, Decidable (ok s a)] : ∀ s as, Decidable (Along step ok s as)
  | _, [] => isTrue trivial
  | s, a :: as =>
    have := decidableAlong (step s a) as
    inferInstanceAs (Decidable (ok s a ∧ Along step ok (step s a) as))

theorem Along.invariant {P : σ → Prop} (hstep : ∀ s a, P s → ok s a → P (step s a))
    (as : List α) : ∀ s, P s → Along step ok s as → P (as.foldl step s) := by
  induction as with
  | nil => exact fun _ h _ => h
  | cons a as ih => exact fun s h along => ih (step s a) (hstep s a h along.1) along.2

/-- A condition on the labels alone may be added to the one on the steps. -/
theorem Along.and {q : α → Prop} {as : List α} (labels : ∀ a ∈ as, q a) :
    ∀ {s : σ}, Along step ok s as → Along step (fun s a => q a ∧ ok s a) s as := by
  induction as with
  | nil => exact fun h => h
  | cons a as ih =>
    exact fun along => ⟨⟨labels a (by simp), along.1⟩,
      ih (fun b hb => labels b (List.mem_cons_of_mem a hb)) along.2⟩

theorem Along.inter {ok' : σ → α → Prop} {as : List α} : ∀ {s : σ}, Along step ok s as →
    Along step ok' s as → Along step (fun s a => ok s a ∧ ok' s a) s as := by
  induction as with
  | nil => exact fun h _ => h
  | cons a as ih => exact fun h h' => ⟨⟨h.1, h'.1⟩, ih h.2 h'.2⟩

theorem Along.append {as bs : List α} : ∀ {s : σ}, Along step ok s (as ++ bs) ↔
    Along step ok s as ∧ Along step ok (as.foldl step s) bs := by
  induction as with
  | nil => simp [Along]
  | cons a as ih =>
    intro s
    simp only [List.cons_append, Along, List.foldl_cons, ih, and_assoc]

/-- The condition holds along a run where it holds after each beginning of it. -/
theorem Along.iff_take {as : List α} : ∀ {s : σ}, Along step ok s as ↔
    ∀ k (hk : k < as.length), ok ((as.take k).foldl step s) as[k] := by
  induction as with
  | nil =>
    intro s
    exact iff_of_true trivial (fun k hk => absurd hk (Nat.not_lt_zero k))
  | cons a as ih =>
    intro s
    rw [Along, ih]
    constructor
    · rintro ⟨here, later⟩ k hk
      cases k with
      | zero => exact here
      | succ k => exact later k (Nat.lt_of_succ_lt_succ hk)
    · intro h
      exact ⟨h 0 (Nat.succ_pos _), fun k hk => h (k + 1) (Nat.succ_lt_succ hk)⟩

/-- A property that a step under the condition keeps, and any other step loses, holds on all the way
of the runs under the condition. -/
theorem Along.iff_invariant {P : σ → Prop} (kept : ∀ s a, P s → (P (step s a) ↔ ok s a))
    (as : List α) : ∀ {s}, P s → (Along step ok s as ↔ ∀ k, P ((as.take k).foldl step s)) := by
  induction as with
  | nil =>
    intro s start
    exact iff_of_true trivial (fun k => by rwa [List.take_nil])
  | cons a as ih =>
    intro s start
    constructor
    · rintro ⟨here, later⟩ k
      have next := (kept s a start).mpr here
      cases k with
      | zero => exact start
      | succ k => exact (ih next).mp later k
    · intro h
      have next : P (step s a) := h 1
      exact ⟨(kept s a start).mp next, (ih next).mpr fun k => h (k + 1)⟩

/-- A condition gives another along a run where it does in every state that steps under it lead
to. -/
theorem Along.of_invariant {ok' : σ → α → Prop} {P : σ → Prop} {q : α → Prop}
    (gives : ∀ s a, P s → ok s a → ok' s a)
    (hstep : ∀ s a, q a → P s → ok s a → P (step s a)) (as : List α) :
    ∀ {s}, (∀ a ∈ as, q a) → P s → Along step ok s as → Along step ok' s as := by
  induction as with
  | nil => exact fun _ _ _ => trivial
  | cons a as ih =>
    intro s labels h along
    have later := hstep s a (labels a (List.mem_cons_self ..)) h along.1
    exact ⟨gives s a h along.1,
      ih (fun b hb => labels b (List.mem_cons_of_mem a hb)) later along.2⟩

/-- Two conditions hold along the same runs where they agree in every such state. -/
theorem Along.iff_of_invariant {ok' : σ → α → Prop} {P : σ → Prop} {q : α → Prop}
    (agree : ∀ s a, P s → (ok s a ↔ ok' s a))
    (hstep : ∀ s a, q a → P s → ok s a → P (step s a)) (as : List α) {s : σ}
    (labels : ∀ a ∈ as, q a) (h : P s) : Along step ok s as ↔ Along step ok' s as :=
  ⟨Along.of_invariant (fun s a h => (agree s a h).mp) hstep as labels h,
    Along.of_invariant (fun s a h => (agree s a h).mpr)
      (fun s a label h met => hstep s a label h ((agree s a h).mpr met)) as labels h⟩

/-- Labels are taken out of a run without a trace when each of them keeps a relation to a state that
stands still, and every other label keeps it in step. -/
theorem Along.purge {τ : Type} {step' : τ → α → τ} {R : σ → τ → Prop} {kept : α → Bool}
    (together : ∀ s t a, kept a = true → R s t → ok s a → R (step s a) (step' t a))
    (alone : ∀ s t a, kept a = false → R s t → ok s a → R (step s a) t) (as : List α) :
    ∀ {s t}, R s t → Along step ok s as → R (as.foldl step s) ((as.filter kept).foldl step' t) := by
  induction as with
  | nil => exact fun h _ => h
  | cons a as ih =>
    intro s t h along
    cases keep : kept a with
    | true =>
      rw [List.filter_cons_of_pos keep]
      exact ih (together s t a keep h along.1) along.2
    | false =>
      rw [List.filter_cons_of_neg (by rw [keep]; exact Bool.false_ne_true)]
      exact ih (alone s t a keep h along.1) along.2

/-- What every step keeps holds at the end of a run. -/
theorem foldl_invariant (inv : σ → Prop) (keeps : ∀ s a, inv s → inv (step s a)) (as : List α) :
    ∀ s, inv s → inv (as.foldl step s) := by
  induction as with
  | nil => exact fun _ h => h
  | cons a as ih => exact fun s h => ih (step s a) (keeps s a h)

/-- The run came into a mode by a label with a property and has stayed in it since. -/
def Since (step : σ → α → σ) (P : α → Prop) (M : σ → Prop) (s : σ) (as : List α) : Prop :=
  ∃ before a after, as = before ++ a :: after ∧ P a ∧
    ∀ k, M ((before ++ a :: after.take k).foldl step s)

theorem Since.mono {P : α → Prop} {M M' : σ → Prop} {s : σ} {as : List α}
    (h : Since step P M s as) (weaker : ∀ s, M s → M' s) : Since step P M' s as := by
  obtain ⟨before, a, after, parts, ha, mode⟩ := h
  exact ⟨before, a, after, parts, ha, fun k => weaker _ (mode k)⟩

/-- A run that ends in a mode it did not start in came into it, where only labels with the property
bring the mode about. -/
theorem Since.of_enters {P : α → Prop} {M inv : σ → Prop} (keeps : ∀ s a, inv s → inv (step s a))
    (enters : ∀ s a, inv s → ¬ M s → M (step s a) → P a) {s : σ} (start : inv s)
    (out : ¬ M s) (as : List α) (into : M (as.foldl step s)) : Since step P M s as := by
  have along : ∀ as : List α, inv (as.foldl step s) := fun as =>
    foldl_invariant inv keeps as s start
  induction as using List.reverseRecOn with
  | nil => exact absurd into out
  | append_singleton as a ih =>
    by_cases before : M (as.foldl step s)
    · obtain ⟨first, b, after, rfl, hb, mode⟩ := ih before
      refine ⟨first, b, after ++ [a], by simp, hb, fun k => ?_⟩
      by_cases short : k ≤ after.length
      · rw [List.take_append_of_le_length short]
        exact mode k
      · rw [List.take_of_length_le (by simp; omega)]
        simpa using into
    · rw [List.foldl_append] at into
      refine ⟨as, a, [], rfl, enters _ a (along as) before into, fun k => ?_⟩
      simpa using into

/-! ## What a run puts out -/

/-- What the steps of a run put out, in order. -/
def produced {β : Type} (step : σ → α → σ) (out : σ → α → List β) : σ → List α → List β
  | _, [] => []
  | s, a :: as => out s a ++ produced step out (step s a) as

/-- A log to which each step adds what it puts out. -/
theorem foldl_produced {β : Type} {out : σ → α → List β} (log : σ → List β)
    (adds : ∀ s a, log (step s a) = log s ++ out s a) (as : List α) :
    ∀ s, log (as.foldl step s) = log s ++ produced step out s as := by
  induction as with
  | nil => exact fun s => (List.append_nil (log s)).symm
  | cons a as ih =>
    intro s
    rw [List.foldl_cons, ih, adds, List.append_assoc, produced]

/-- What has gone into a queue, over a run, is what has come out of it and what is still there, in
this order. -/
theorem produced_fifo {β : Type} (queue : σ → List β) {into out : σ → α → List β}
    (conserves : ∀ s a, queue s ++ into s a = out s a ++ queue (step s a)) (as : List α) :
    ∀ s, queue s ++ produced step into s as = produced step out s as ++ queue (as.foldl step s) := by
  induction as with
  | nil => exact fun s => List.append_nil (queue s)
  | cons a as ih =>
    intro s
    rw [produced, produced, List.foldl_cons, ← List.append_assoc, conserves, List.append_assoc,
      ih, List.append_assoc]

theorem map_produced {β γ : Type} (f : β → γ) (out : σ → α → List β) (as : List α) : ∀ s,
    (produced step out s as).map f = produced step (fun s a => (out s a).map f) s as := by
  induction as with
  | nil => exact fun _ => rfl
  | cons a as ih => exact fun s => by rw [produced, produced, List.map_append, ih]

theorem filterMap_produced {β γ : Type} (f : β → Option γ) (out : σ → α → List β) (as : List α) :
    ∀ s, (produced step out s as).filterMap f =
      produced step (fun s a => (out s a).filterMap f) s as := by
  induction as with
  | nil => exact fun _ => rfl
  | cons a as ih => exact fun s => by rw [produced, produced, List.filterMap_append, ih]

/-! ## Cells -/

/-- Where each step acts on the cell of its label's key and leaves the others, a cell after a run is
what its own labels alone make of it. -/
theorem foldl_cell {κ ν : Type} [DecidableEq κ] (key : α → Option κ) (cell : σ → κ → ν)
    (act : ν → α → ν) {inv : σ → Prop} {q : α → Prop}
    (hstep : ∀ s a, inv s → q a → inv (step s a) ∧
      ∀ k, cell (step s a) k = if key a = some k then act (cell s k) a else cell s k)
    (k : κ) (as : List α) : ∀ {s}, inv s → (∀ a ∈ as, q a) →
      cell (as.foldl step s) k = (as.filter (fun a => key a = some k)).foldl act (cell s k) := by
  induction as with
  | nil => exact fun _ _ => rfl
  | cons a as ih =>
    intro s h labels
    obtain ⟨kept, cells⟩ := hstep s a h (labels a (List.mem_cons_self ..))
    rw [List.foldl_cons, ih kept (fun b hb => labels b (List.mem_cons_of_mem a hb)), cells]
    by_cases own : key a = some k
    · simp only [own, if_true, decide_true, List.filter_cons, List.foldl_cons]
    · simp only [own, if_false, decide_false, Bool.false_eq_true, List.filter_cons]

end Runs

end VsFleet
