import Mathlib.Data.Finset.Card
import VsFleet.HostCore.Proofs.FaceSimulation
import VsFleet.Hub.Proofs.MessageSteps

/-!
# A garbage-collection pass that is whole

A pass removes its victims one by one and leaves at the first append that fails, without the
events of the removals before it. It is whole, all of it or nothing, where no append of it fails
or its first one does; the appends it makes are one for each distinct victim.
-/

namespace VsFleet

open MergeEngine (Mutation)

/-- The store moved from `F` to `F'` and the events tell a face so. -/
structure Told (store : StateStore) (events : List Event) (F F' : Fleet) : Prop where
  live : Refines store.engine F'
  fold : events.foldl Event.fold F.sessions = F'.sessions

theorem Told.append {store store' : StateStore} {events more : List Event} {F F' F'' : Fleet}
    (h : Told store events F F') (h' : Told store' more F' F'') :
    Told store' (events ++ more) F F'' := by
  refine ⟨h'.live, ?_⟩
  rw [List.foldl_append, h.fold, h'.fold]

theorem Told.nothing {store : StateStore} {F : Fleet} (h : Refines store.engine F) :
    Told store [] F F := ⟨h, rfl⟩

/-- The body of a removal loop: an absent victim is skipped, a present one takes one append and is
gone after it. -/
structure Removal {α : Type} [DecidableEq α]
    (remove : StateStore → α → Except PersistError (List Event) × StateStore)
    (present : Fleet → α → Bool) : Prop where
  skips : ∀ {store F v}, Refines store.engine F → present F v = false →
    remove store v = (.ok [], store)
  fails : ∀ {store F v}, Refines store.engine F → present F v = true →
    store.log.faults.headD false = true →
    remove store v = (.error .sqlite, { store with log := store.log.failed })
  removes : ∀ {store F v}, Refines store.engine F → present F v = true →
    store.log.faults.headD false = false → ∃ events store' F',
      remove store v = (.ok events, store') ∧ Told store' events F F' ∧
      store'.log.faults = store.log.faults.tail ∧
      ∀ w, present F' w = (present F w && decide (w ≠ v))

namespace Removal

variable {α : Type} [DecidableEq α]
  {remove : StateStore → α → Except PersistError (List Event) × StateStore}
  {present : Fleet → α → Bool}

/-- With no fault among the appends of the loop and `k` more, the loop is whole and leaves the `k`
without a fault. -/
theorem loop (r : Removal remove present) (victims : List α) :
    ∀ {store : StateStore} {F : Fleet} {k : Nat}, Refines store.engine F →
      true ∉ store.log.faults.take ((victims.filter (present F)).toFinset.card + k) →
      ∃ events store' F', StateStore.removeAll remove victims store = (.ok events, store') ∧
        Told store' events F F' ∧ true ∉ store'.log.faults.take k := by
  induction victims with
  | nil =>
    intro store F k h healthy
    exact ⟨[], store, F, rfl, Told.nothing h, by simpa using healthy⟩
  | cons v victims ih =>
    intro store F k h healthy
    cases hv : present F v with
    | false =>
      rw [List.filter_cons_of_neg (by simp [hv])] at healthy
      obtain ⟨events, store', F', eq, told, rest⟩ := ih h healthy
      exact ⟨events, store', F', by simp only [StateStore.removeAll, r.skips h hv, eq,
        List.nil_append], told, rest⟩
    | true =>
      rw [List.filter_cons_of_pos (by simp [hv]), List.toFinset_cons,
        ← Finset.insert_erase (Finset.mem_insert_self v _), Finset.erase_insert_eq_erase,
        Finset.card_insert_of_notMem (Finset.notMem_erase v _)] at healthy
      have first : store.log.faults.headD false = false := by
        cases hf : store.log.faults with
        | nil => rfl
        | cons fault faults =>
          rw [hf, Nat.add_right_comm, List.take_succ_cons, List.mem_cons, not_or] at healthy
          simpa using healthy.1
      obtain ⟨events, after, F₁, eq, told, faults, gone⟩ := r.removes h hv first
      have left : (victims.filter (present F₁)).toFinset =
          (victims.filter (present F)).toFinset.erase v := by
        ext w
        simp [gone, and_comm, and_left_comm, and_assoc]
      have healthy' : true ∉ after.log.faults.take
          ((victims.filter (present F₁)).toFinset.card + k) := by
        rw [left, faults]
        intro fault
        apply healthy
        cases hf : store.log.faults with
        | nil => simp [hf] at fault
        | cons b bs =>
          rw [hf, List.tail_cons] at fault
          rw [Nat.add_right_comm, List.take_succ_cons]
          exact List.mem_cons_of_mem _ fault
      obtain ⟨more, store', F', eq', told', rest⟩ := ih told.live healthy'
      exact ⟨events ++ more, store', F', by simp only [StateStore.removeAll, eq, eq'],
        told.append told', rest⟩

/-- With a fault at the first append, the loop leaves before it changed anything, or had nothing
to remove. -/
theorem loop_failed (r : Removal remove present) (victims : List α) {store : StateStore} {F : Fleet}
    (h : Refines store.engine F) (fault : store.log.faults.headD false = true) :
    StateStore.removeAll remove victims store = (.ok [], store) ∨
      StateStore.removeAll remove victims store =
        (.error .sqlite, { store with log := store.log.failed }) := by
  induction victims with
  | nil => exact Or.inl rfl
  | cons v victims ih =>
    cases hv : present F v with
    | false =>
      simp only [StateStore.removeAll, r.skips h hv]
      rcases ih with eq | eq
      · rw [eq]
        exact Or.inl rfl
      · rw [eq]
        exact Or.inr rfl
    | true =>
      right
      simp only [StateStore.removeAll, r.fails h hv fault]

end Removal

/-! ## The two loops -/

namespace Fleet

/-- The session of the id holds a run of the run id. -/
def holdsRun (F : Fleet) (victim : String × String) : Bool :=
  ((F.get? victim.1).map (fun s => s.runs.any (fun r => r.runId = victim.2))).getD false

/-- The session is there. -/
def holdsSession (F : Fleet) (id : String) : Bool := (F.get? id).isSome

theorem holdsRun_revise (F : Fleet) (victim w : String × String) :
    (F.revise victim.1 (fun runs => runs.filter (fun r => r.runId ≠ victim.2))).holdsRun w =
      (F.holdsRun w && decide (w ≠ victim)) := by
  obtain ⟨id, runId⟩ := victim
  obtain ⟨id', runId'⟩ := w
  simp only [holdsRun, revise, get?_edit, Option.map_map]
  cases found : F.get? id' with
  | none => simp
  | some s =>
    have own := (get?_eq_some_iff.mp found).2
    by_cases same : id' = id
    · subst same
      rw [Bool.eq_iff_iff]
      simp only [Option.map_some, Function.comp_apply, Edit.only, own, if_true, settled,
        Edit.setRuns, Session.settle_runs, Session.recomputeRollups_runs, Option.getD_some,
        List.any_eq_true, List.mem_filter, decide_eq_true_eq, ne_eq, decide_not,
        Bool.not_eq_true', decide_eq_false_iff_not, Bool.and_eq_true, Prod.mk.injEq, true_and]
      constructor
      · rintro ⟨r, ⟨hr, hne⟩, rfl⟩
        exact ⟨⟨r, hr, rfl⟩, hne⟩
      · rintro ⟨⟨r, hr, rfl⟩, hne⟩
        exact ⟨r, ⟨hr, hne⟩, rfl⟩
    · simp [Edit.only, own, same]

theorem holdsSession_remove (F : Fleet) (id w : String) :
    (F.remove id).holdsSession w = (F.holdsSession w && decide (w ≠ id)) := by
  rw [holdsSession, holdsSession, remove, get?_edit, Option.isSome_map, get?_drop]
  by_cases same : w = id <;> simp [same]

end Fleet

theorem Refines.runOf {store : StateStore} {F : Fleet} (h : Refines store.engine F)
    (sid rid : String) : (store.runOf sid rid).isSome = F.holdsRun (sid, rid) := by
  rw [StateStore.runOf, h.session, Fleet.holdsRun]
  cases F.get? sid with
  | none => rfl
  | some s =>
    rw [Bool.eq_iff_iff]
    simp

theorem runRemoval : Removal (fun store (v : String × String) => store.applyRunRemove v.1 v.2)
    Fleet.holdsRun where
  skips := by
    intro store F v h absent
    rw [← h.runOf] at absent
    rcases store.applyRunRemove_cases v.1 v.2 with ⟨-, eq⟩ | ⟨run, found, -⟩ | ⟨run, found, -⟩
    · exact eq
    · simp [found] at absent
    · simp [found] at absent
  fails := by
    intro store F v h here fault
    rw [← h.runOf] at here
    rcases store.applyRunRemove_cases v.1 v.2 with ⟨none, -⟩ | ⟨-, -, -, eq⟩ | ⟨-, -, fine, -⟩
    · simp [none] at here
    · exact eq
    · rw [fault] at fine
      cases fine
  removes := by
    intro store F v h here fine
    rw [← h.runOf] at here
    rcases store.applyRunRemove_cases v.1 v.2 with ⟨none, -⟩ | ⟨-, -, fault, -⟩ | ⟨run, -, -, eq⟩
    · simp [none] at here
    · rw [fine] at fault
      cases fault
    · refine ⟨_, _, F.mutate (.removeRun v.1 v.2), eq, ⟨?_, ?_⟩, by simp; rfl, ?_⟩
      · rw [StateStore.pruneDurable_engine]
        exact h.removeRun v.1 v.2
      · exact h.mutate_fold (.removeRun v.1 v.2) trivial
      · exact F.holdsRun_revise v

theorem sessionRemoval : Removal (fun store id => store.applySessionRemove id)
    Fleet.holdsSession where
  skips := by
    intro store F id h absent
    rw [Fleet.holdsSession, ← h.session] at absent
    rcases store.applySessionRemove_cases id with ⟨-, eq⟩ | ⟨found, -⟩ | ⟨found, -⟩
    · exact eq
    · simp [found] at absent
    · simp [found] at absent
  fails := by
    intro store F id h here fault
    rw [Fleet.holdsSession, ← h.session] at here
    rcases store.applySessionRemove_cases id with ⟨none, -⟩ | ⟨-, -, eq⟩ | ⟨-, fine, -⟩
    · simp [none] at here
    · exact eq
    · rw [fault] at fine
      cases fine
  removes := by
    intro store F id h here fine
    rw [Fleet.holdsSession, ← h.session] at here
    rcases store.applySessionRemove_cases id with ⟨none, -⟩ | ⟨-, fault, -⟩ | ⟨-, -, eq⟩
    · simp [none] at here
    · rw [fine] at fault
      cases fault
    · refine ⟨_, _, F.mutate (.removeSessionEvents id), eq, ⟨?_, ?_⟩, by simp; rfl, ?_⟩
      · rw [StateStore.dropSessionReclaim_engine]
        exact (h.removeSessionEvents id).1
      · exact h.mutate_fold (.removeSessionEvents id) trivial
      · exact F.holdsSession_remove id

/-! ## The pass -/

section Pass

variable (parseEpochSecs : String → Option Int) (now : String) (grace sessionTtl : Nat)

/-- The appends a pass makes where none fails: one for each distinct run to reap and one for each
session to sweep. -/
def StateStore.due (store : StateStore) : Nat :=
  (store.reapVictims parseEpochSecs now grace).toFinset.card +
    (store.sweepVictims parseEpochSecs now sessionTtl).length

/-- No append of the pass fails, or the first one does. -/
def StateStore.PassWhole (store : StateStore) : Prop :=
  store.log.faults.headD false = true ∨
    true ∉ store.log.faults.take (store.due parseEpochSecs now grace sessionTtl)

/-- The ids and the time stamps of the sessions, all a sweep looks at. -/
def Fleet.stamps (F : Fleet) : List (String × String) :=
  F.sessions.map (fun s => (s.sessionId, s.updatedAt))

variable {parseEpochSecs now grace sessionTtl}

theorem Refines.sweepVictims {store : StateStore} {F : Fleet} (h : Refines store.engine F) :
    store.sweepVictims parseEpochSecs now sessionTtl =
      (F.stamps.filter (fun stamp =>
        timestampLt parseEpochSecs stamp.2 (subtract parseEpochSecs now sessionTtl))).map
        Prod.fst := by
  rw [StateStore.sweepVictims, StateStore.snapshot, h.snapshot, Fleet.stamps, List.filter_map,
    List.map_map]
  rfl

theorem Fleet.stamps_revise (F : Fleet) (id : String) (f : List AgentRun → List AgentRun) :
    (F.revise id f).stamps = F.stamps := by
  rw [stamps, stamps, revise, edit_sessions, List.map_map]
  apply List.map_congr_left
  intro s _
  by_cases own : s.sessionId = id
  · simp only [Function.comp_apply, Edit.only, own, if_true, Edit.sessionId_act]
    rfl
  · simp [Edit.only, own]

/-- Reaping does not change what the sweep after it looks at. -/
theorem reapDead_stamps (parseEpochSecs : String → Option Int) (now : String) (grace : Nat)
    {store : StateStore} {F : Fleet} (h : Refines store.engine F) :
    ∃ F', Refines (store.reapDead parseEpochSecs now grace).2.engine F' ∧ F'.stamps = F.stamps := by
  refine StateStore.removeAll_invariant
    (P := fun store => ∃ F', Refines store.engine F' ∧ F'.stamps = F.stamps) ?_ _ ⟨F, h, rfl⟩
  rintro store ⟨sid, rid⟩ ⟨F', h', same⟩
  rcases (store.applyRunRemove_did sid rid).refines h' with still | ⟨m, hm, moved⟩
  · exact ⟨F', still, same⟩
  · rw [Option.some.injEq] at hm
    subst hm
    exact ⟨_, moved, (F'.stamps_revise sid _).trans same⟩

theorem not_mem_take {l : List Bool} {n m : Nat} (h : true ∉ l.take n) (le : m ≤ n) :
    true ∉ l.take m := fun fault => h (List.take_subset_take_left l le fault)

/-- A whole pass tells all of what it did, or fails and did nothing. -/
theorem gc_whole {store : StateStore} {F : Fleet} (h : Refines store.engine F)
    (whole : store.PassWhole parseEpochSecs now grace sessionTtl) :
    (∃ error store', store.gc parseEpochSecs now grace sessionTtl = (.error error, store') ∧
      Refines store'.engine F) ∨
    ∃ events store' F', store.gc parseEpochSecs now grace sessionTtl = (.ok events, store') ∧
      Told store' events F F' := by
  unfold StateStore.gc
  rcases whole with fault | healthy
  · rcases runRemoval.loop_failed (store.reapVictims parseEpochSecs now grace) h fault with
      reap | reap
    · have reaped : store.reapDead parseEpochSecs now grace = (.ok [], store) := reap
      rw [reaped]
      rcases sessionRemoval.loop_failed (store.sweepVictims parseEpochSecs now sessionTtl) h fault
        with sweep | sweep
      · have swept : store.sweepExpiredSessions parseEpochSecs now sessionTtl = (.ok [], store) :=
          sweep
        right
        refine ⟨[], store, F, ?_, Told.nothing h⟩
        simp only [swept, List.append_nil]
      · have swept : store.sweepExpiredSessions parseEpochSecs now sessionTtl =
            (.error .sqlite, { store with log := store.log.failed }) := sweep
        left
        refine ⟨.sqlite, { store with log := store.log.failed }, ?_, h⟩
        simp only [swept]
    · have reaped : store.reapDead parseEpochSecs now grace =
          (.error .sqlite, { store with log := store.log.failed }) := reap
      left
      rw [reaped]
      exact ⟨_, _, rfl, h⟩
  · right
    have bound : ((store.reapVictims parseEpochSecs now grace).filter F.holdsRun).toFinset.card +
        (store.sweepVictims parseEpochSecs now sessionTtl).length ≤
          store.due parseEpochSecs now grace sessionTtl := by
      apply Nat.add_le_add_right
      apply Finset.card_le_card
      intro v
      simp only [List.mem_toFinset]
      exact List.mem_of_mem_filter
    obtain ⟨events, store₁, F₁, reaped, told, left⟩ :=
      runRemoval.loop _ h (not_mem_take healthy bound)
    have reaped : store.reapDead parseEpochSecs now grace = (.ok events, store₁) := reaped
    obtain ⟨F₂, h₂, stamps⟩ := reapDead_stamps parseEpochSecs now grace h
    rw [reaped] at h₂
    have victims : store₁.sweepVictims parseEpochSecs now sessionTtl =
        store.sweepVictims parseEpochSecs now sessionTtl := by
      rw [h₂.sweepVictims, h.sweepVictims, stamps]
    have bound' : ((store₁.sweepVictims parseEpochSecs now sessionTtl).filter
        F₁.holdsSession).toFinset.card + 0 ≤
          (store.sweepVictims parseEpochSecs now sessionTtl).length := by
      rw [victims]
      exact (List.toFinset_card_le _).trans (List.length_filter_le _ _)
    obtain ⟨more, store₂, F₃, swept, told', -⟩ :=
      sessionRemoval.loop _ told.live (not_mem_take left bound')
    have swept : store₁.sweepExpiredSessions parseEpochSecs now sessionTtl =
        (.ok more, store₂) := swept
    refine ⟨events ++ more, store₂, F₃, ?_, told.append told'⟩
    rw [reaped]
    simp only [swept]

end Pass

end VsFleet
