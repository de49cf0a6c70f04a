import VsFleet.Hub.Proofs.MessageSteps
import VsFleet.Misc.Runs

/-!
# Marks, the index and the runs

A mark of the reclaim table makes the gate drop a delta, which is right only while the run it is
about is still there. Three structures have to agree: each marked durable id is indexed under its
session, and that session holds a run of it. Removals keep them in step by the index; an upsert does
so only where it takes no marked run away.
-/

namespace VsFleet

/-- An edit that leaves the runs leaves those of every session. -/
theorem Edit.only_runs {id : String} {g : Edit} (hg : ∀ s, (g s).runs = s.runs) (s : Session) :
    (Edit.only id g s).runs = s.runs :=
  Edit.only_keeps (R := fun s' s => s'.runs = s.runs) (fun _ => rfl) hg id s

namespace Fleet

variable {F : Fleet} {id : String}

/-- The runs of a session of the fleet. -/
def runsIn (F : Fleet) (id : String) : List AgentRun := ((F.get? id).map (fun s => s.runs)).getD []

theorem runsIn_of_get? {s : Session} (found : F.get? id = some s) : F.runsIn id = s.runs := by
  rw [runsIn, found, Option.map_some, Option.getD_some]

/-- An upsert brings its runs, and the others stay. -/
theorem runsIn_upsert (session : Session) : (F.upsert session).runsIn id =
    if session.sessionId = id then session.runs else F.runsIn id := by
  rw [runsIn, get?_upsert]
  split <;> rfl

/-- The flags play no part in the runs. -/
theorem runsIn_edit {g : Edit} (hg : ∀ s, (g s).runs = s.runs) : (F.edit g).runsIn id =
    F.runsIn id := by
  rw [runsIn, get?_edit, Option.map_map]
  simp only [Function.comp_def, hg]
  rfl

/-- A session that is removed has no runs. -/
theorem runsIn_remove (id' : String) : (F.remove id').runsIn id =
    if id = id' then [] else F.runsIn id := by
  rw [remove, runsIn_edit (fun _ => rfl), runsIn, get?_drop]
  split <;> rfl

/-- A revision leaves the runs of the other sessions. -/
theorem runsIn_revise_ne {id' : String} (other : id ≠ id') (f : List AgentRun → List AgentRun) :
    (F.revise id' f).runsIn id = F.runsIn id := by
  rw [runsIn, revise, get?_edit]
  cases found : F.get? id with
  | none => rw [runsIn, found]; rfl
  | some s =>
    have own : s.sessionId ≠ id' := by rwa [(get?_eq_some_iff.mp found).2]
    rw [runsIn_of_get? found, Option.map_some]
    simp [Edit.only, own]

/-- And changes those of its own. -/
theorem runsIn_revise (f : List AgentRun → List AgentRun) {s : Session}
    (found : F.get? id = some s) : (F.revise id f).runsIn id = f s.runs :=
  runsIn_of_get? (get?_revise found f)

/-- The flag changes leave the runs of every session alone. -/
theorem runsIn_reflag {g : Edit} (hg : ∀ s, (g s).runs = s.runs) : (F.reflag g).runsIn id =
    F.runsIn id := runsIn_edit hg

theorem runsIn_solo (id' : String) : (F.solo id').runsIn id = F.runsIn id := by
  unfold solo
  split
  · exact runsIn_reflag (fun _ => rfl)
  · rfl

end Fleet

/-! ## The upkeep of the index -/

namespace StateStore

variable (store : StateStore)

/-- The marks of the durable ids of a session go with it. -/
theorem mark_dropSessionReclaim (sessionId : String) (d : DurableId) :
    (store.dropSessionReclaim sessionId).reclaim.mark d =
      if d ∈ store.durablesOf sessionId then none else store.reclaim.mark d := by
  unfold dropSessionReclaim durablesOf
  cases found : store.sessionDurables.lookup sessionId with
  | none => simp
  | some ids => exact ReclaimTable.mark_dropIds ids store.reclaim d

/-- Those of the other sessions stay. -/
theorem durablesOf_dropSessionReclaim {sessionId other : String} (ne : other ≠ sessionId) :
    (store.dropSessionReclaim sessionId).durablesOf other = store.durablesOf other := by
  unfold dropSessionReclaim durablesOf
  cases store.sessionDurables.lookup sessionId with
  | none => rfl
  | some ids =>
    simp only
    rw [AList.lookup_erase_ne ne]

/-- An insert adds its element. -/
theorem mem_setInsert {set : List DurableId} {d d' : DurableId} :
    d' ∈ setInsert set d ↔ d' = d ∨ d' ∈ set := by
  unfold setInsert
  split
  · rename_i present
    constructor
    · exact Or.inr
    · rintro (rfl | mem)
      · exact present
      · exact mem
  · rw [List.mem_append, List.mem_singleton, or_comm]

/-- An admitted delta has its durable id noted in its session. -/
theorem mem_durablesOf_admitted {sessionId other : String} {durableId d : DurableId}
    (epoch seq : Nat) : d ∈ (store.admitted sessionId durableId epoch seq).durablesOf other ↔
      other = sessionId ∧ d = durableId ∨ d ∈ store.durablesOf other := by
  unfold admitted durablesOf
  simp only
  by_cases own : other = sessionId
  · subst own
    rw [AList.lookup_insert, Option.getD_some, mem_setInsert]
    simp
  · rw [AList.lookup_insert_ne own]
    simp [own]

/-- With a run of the durable id left nothing is pruned; else its mark goes, and it alone leaves the
index of the session. -/
theorem pruneDurable_cases (sessionId : String) (durable : DurableId) :
    ((∃ r ∈ store.runsOf sessionId, r.nativeId = durable.val) ∧
      store.pruneDurable sessionId durable = store) ∨
    ∀ d, (store.pruneDurable sessionId durable).reclaim.mark d =
        (if d = durable then none else store.reclaim.mark d) ∧
      (d ≠ durable → ∀ other, d ∈ (store.pruneDurable sessionId durable).durablesOf other ↔
        d ∈ store.durablesOf other) := by
  have runs : ((store.engine.session sessionId).map
      (fun s => s.runs.any (fun r => r.nativeId = durable.val))).getD false =
        (store.runsOf sessionId).any (fun r => r.nativeId = durable.val) := by
    unfold runsOf
    cases store.engine.session sessionId <;> rfl
  unfold pruneDurable
  simp only [runs]
  cases used : (store.runsOf sessionId).any (fun r => r.nativeId = durable.val) with
  | true =>
    left
    rw [List.any_eq_true] at used
    simpa using used
  | false =>
    right
    intro d
    simp only [Bool.false_eq_true, if_false]
    refine ⟨ReclaimTable.mark_dropId store.reclaim durable d, fun other sid => ?_⟩
    have kept : ∀ set : List DurableId, d ∈ set.filter (fun id => id ≠ durable) ↔ d ∈ set := by
      intro set
      simp [other]
    unfold durablesOf
    cases found : store.sessionDurables.lookup sessionId with
    | none => rfl
    | some set =>
      by_cases own : sid = sessionId
      · subst own
        rw [found, Option.getD_some, ← kept set]
        simp only
        split
        · rename_i empty
          rw [AList.lookup_erase, List.isEmpty_iff.mp empty]
          rfl
        · rw [AList.lookup_insert, Option.getD_some]
      · simp only
        split
        · rw [AList.lookup_erase_ne own]
        · rw [AList.lookup_insert_ne own]

/-- A change of flags leaves the marks. -/
theorem applyFlagChange_upkeep (project : MergeEngine → MergeEngine × List Event) :
    (store.applyFlagChange project).2.reclaim = store.reclaim ∧
      (store.applyFlagChange project).2.sessionDurables = store.sessionDurables := by
  unfold applyFlagChange
  simp only
  split <;> exact ⟨rfl, rfl⟩

/-- So does a focus. -/
theorem applyFocus_upkeep (sessionId : String) :
    (store.applyFocus sessionId).2.reclaim = store.reclaim ∧
      (store.applyFocus sessionId).2.sessionDurables = store.sessionDurables := by
  unfold applyFocus
  split
  · exact ⟨rfl, rfl⟩
  · unfold persistSessionSnapshot
    split <;> exact ⟨rfl, rfl⟩

end StateStore

/-! ## The operations that keep the marks right -/

/-- The stamped runs carry their durable id as native id, and each durable id has one session. -/
def StoreOp.Own (owner : String → String) : StoreOp → Prop
  | .runUpsertSeq sessionId run durableId _ _ =>
    run.nativeId = durableId.val ∧ owner durableId.val = sessionId
  | _ => True

namespace StateStore

variable (store : StateStore)

/-- The store has a mark for the durable id. -/
def Marked (d : String) : Prop := (store.reclaim.mark ⟨d⟩).isSome

/-- Every marked native id among the runs before is one among the runs after. -/
def KeepsMarked (before after : List AgentRun) : Prop :=
  ∀ r ∈ before, store.Marked r.nativeId → ∃ r' ∈ after, r'.nativeId = r.nativeId

/-- The runs that go with the removed one, for having its run id, have its native id, or one that is
unmarked or still among the runs left. -/
def RemovalKeeps (sessionId runId : String) : Prop :=
  store.log.faults.headD false = false → ∀ run ∈ store.runOf sessionId runId,
    ∀ r ∈ store.runsOf sessionId, r.runId = runId → r.nativeId ≠ run.nativeId →
      store.Marked r.nativeId →
      ∃ r' ∈ store.runsOf sessionId, r'.runId ≠ runId ∧ r'.nativeId = r.nativeId

/-- Each removal of a loop that leaves at the first error. -/
def RemovalsKeep : List (String × String) → StateStore → Prop
  | [], _ => True
  | victim :: victims, store => store.RemovalKeeps victim.1 victim.2 ∧
    ((store.applyRunRemove victim.1 victim.2).1.isOk →
      RemovalsKeep victims (store.applyRunRemove victim.1 victim.2).2)

/-- The operation takes no marked run away, and a stamped delta it admits lands, or finds a run of
its durable id there. -/
def Keeps (parseEpochSecs : String → Option Int) : StoreOp → Prop
  | .sessionUpsert session => store.log.faults.headD false = false →
    store.KeepsMarked (store.runsOf session.sessionId) session.runs
  | .runUpsert sessionId run => store.log.faults.headD false = false →
    store.KeepsMarked (store.runsOf sessionId)
      (MergeEngine.upsertRunIn (store.runsOf sessionId) run).1
  | .runUpsertSeq sessionId run durableId epoch seq =>
    (store.engine.session sessionId).isSome →
    (store.reclaim.classify durableId epoch seq).applies = true →
    if store.log.faults.headD false then
      ∃ r ∈ store.runsOf sessionId, r.nativeId = durableId.val
    else store.KeepsMarked (store.runsOf sessionId)
      (MergeEngine.upsertRunIn (store.runsOf sessionId) run).1
  | .runRemove sessionId runId => store.RemovalKeeps sessionId runId
  | .reapDead now grace => RemovalsKeep (store.reapVictims parseEpochSecs now grace) store
  | _ => True

end StateStore

/-- Every marked durable id has a run in its session and stands in its index. -/
structure Sound (owner : String → String) (store : StateStore) (F : Fleet) : Prop where
  refines : Refines store.engine F
  held : ∀ d : DurableId, (store.reclaim.mark d).isSome →
    ∃ r ∈ F.runsIn (owner d.val), r.nativeId = d.val
  indexed : ∀ d : DurableId, (store.reclaim.mark d).isSome →
    d ∈ store.durablesOf (owner d.val)

/-- The store and the fleet have the same runs in a session. -/
theorem Refines.runsOf {store : StateStore} {F : Fleet} (h : Refines store.engine F) (id : String) :
    store.runsOf id = F.runsIn id := by
  rw [StateStore.runsOf, h.session, Fleet.runsIn]

namespace Sound

variable {owner : String → String} {store : StateStore} {F : Fleet}

/-- A store that was just opened has no marks. -/
theorem fromLog (owner : String → String) (log : EventLog) :
    ∃ F, Sound owner (.fromLog log) F := by
  obtain ⟨F, refines⟩ := log.restored_refines
  have unmarked : ∀ d : DurableId, ¬ ((StateStore.fromLog log).reclaim.mark d).isSome := by
    intro d
    rw [StateStore.fromLog, ReclaimTable.mark_new]
    exact Bool.false_ne_true
  exact ⟨F, refines, fun d marked => absurd marked (unmarked d),
    fun d marked => absurd marked (unmarked d)⟩

/-- The fleet changes so that every session keeps its marked native ids. -/
theorem change (h : Sound owner store F) {store' : StateStore} {F' : Fleet}
    (refines : Refines store'.engine F') (reclaim : store'.reclaim = store.reclaim)
    (index : store'.sessionDurables = store.sessionDurables)
    (keeps : ∀ id, store.KeepsMarked (F.runsIn id) (F'.runsIn id)) : Sound owner store' F' where
  refines := refines
  held d marked := by
    rw [reclaim] at marked
    obtain ⟨r, hr, native⟩ := h.held d marked
    obtain ⟨r', hr', same⟩ := keeps _ r hr (by rw [StateStore.Marked, native]; exact marked)
    exact ⟨r', hr', same.trans native⟩
  indexed d marked := by
    rw [reclaim] at marked
    rw [StateStore.durablesOf, index]
    exact h.indexed d marked

/-- Runs that stay as they were keep what is marked. -/
theorem keepsMarked_self (store : StateStore) {before after : List AgentRun}
    (same : after = before) : store.KeepsMarked before after := by
  subst same
  exact fun r hr _ => ⟨r, hr, rfl⟩

/-- An upsert of a session keeps the marks sound if it keeps the marked runs. -/
theorem sessionUpsert (h : Sound owner store F) (session : Session)
    (keeps : store.log.faults.headD false = false →
      store.KeepsMarked (store.runsOf session.sessionId) session.runs) :
    ∃ F', Sound owner (store.applySessionUpsert session).2 F' := by
  obtain ⟨id, runs⟩ := store.preserveHubOwnedFields_session session
  rw [StateStore.applySessionUpsert]
  cases fault : store.log.faults.headD false with
  | true =>
    rw [StateStore.logAndApply_failed store _ fault]
    exact ⟨F, h.change h.refines rfl rfl (fun _ => keepsMarked_self store rfl)⟩
  | false =>
    rw [StateStore.logAndApply_ok store _ fault]
    refine ⟨_, h.change (h.refines.upsertSession _) rfl rfl (fun k => ?_)⟩
    rw [Fleet.runsIn_upsert, id, runs]
    split
    · rename_i own
      subst own
      rw [← h.refines.runsOf]
      exact keeps fault
    · exact keepsMarked_self store rfl

/-- A change of the runs of one live session. -/
theorem keepsMarked_revise (h : Sound owner store F) {sessionId : String}
    (live : (store.engine.session sessionId).isSome) {f : List AgentRun → List AgentRun}
    (keeps : store.KeepsMarked (store.runsOf sessionId) (f (store.runsOf sessionId)))
    (id : String) :
    store.KeepsMarked (F.runsIn id) ((F.revise sessionId f).runsIn id) := by
  rw [h.refines.session] at live
  obtain ⟨s, found⟩ := Option.isSome_iff_exists.mp live
  by_cases own : id = sessionId
  · subst own
    rw [h.refines.runsOf] at keeps
    rw [Fleet.runsIn_revise f found, ← Fleet.runsIn_of_get? found]
    exact keeps
  · rw [Fleet.runsIn_revise_ne own]
    exact keepsMarked_self store rfl

/-- So does an upsert of a run without a stamp. -/
theorem runUpsert (h : Sound owner store F) (sessionId : String) (run : AgentRun)
    (keeps : store.log.faults.headD false = false → store.KeepsMarked (store.runsOf sessionId)
      (MergeEngine.upsertRunIn (store.runsOf sessionId) run).1) :
    ∃ F', Sound owner (store.applyRunUpsert sessionId run).2 F' := by
  rcases store.applyRunUpsert_cases sessionId run with ⟨-, eq⟩ | ⟨-, -, eq⟩ | ⟨live, fault, eq⟩ <;>
    rw [eq]
  · exact ⟨F, h⟩
  · exact ⟨F, h.change h.refines rfl rfl (fun _ => keepsMarked_self store rfl)⟩
  · exact ⟨_, h.change (h.refines.upsertRun sessionId run) rfl rfl
      (h.keepsMarked_revise live (keeps fault))⟩

/-- The removal of a session takes its marks with it. -/
theorem sessionRemove (h : Sound owner store F) (sessionId : String) :
    ∃ F', Sound owner (store.applySessionRemove sessionId).2 F' := by
  rcases store.applySessionRemove_cases sessionId with ⟨-, eq⟩ | ⟨-, -, eq⟩ | ⟨-, -, eq⟩ <;> rw [eq]
  · exact ⟨F, h⟩
  · exact ⟨F, h.change h.refines rfl rfl (fun _ => keepsMarked_self store rfl)⟩
  · -- What was indexed under the session has lost its mark.
    have apart : ∀ d : DurableId, ((StateStore.dropSessionReclaim { store with
        log := store.log.push (.sessionRemove sessionId)
        engine := (store.engine.removeSessionEvents sessionId).1 } sessionId).reclaim.mark
          d).isSome → (store.reclaim.mark d).isSome ∧ owner d.val ≠ sessionId := by
      intro d marked
      rw [StateStore.mark_dropSessionReclaim] at marked
      split at marked
      · cases marked
      · rename_i elsewhere
        refine ⟨marked, fun own => elsewhere ?_⟩
        rw [← own]
        exact h.indexed d marked
    refine ⟨F.remove sessionId, ?_, fun d marked => ?_, fun d marked => ?_⟩
    · rw [StateStore.dropSessionReclaim_engine]
      exact (h.refines.removeSessionEvents sessionId).1
    · obtain ⟨before, other⟩ := apart d marked
      rw [Fleet.runsIn_remove, if_neg other]
      exact h.held d before
    · obtain ⟨before, other⟩ := apart d marked
      rw [StateStore.durablesOf_dropSessionReclaim _ other]
      exact h.indexed d before

/-- An admitted delta marks its durable id and indexes it, whether or not its append succeeds. -/
theorem admitted (h : Sound owner store F) {sessionId : String} {durableId : DurableId}
    {epoch seq : Nat} {store' : StateStore} {F' : Fleet} (own : owner durableId.val = sessionId)
    (refines : Refines store'.engine F')
    (reclaim : store'.reclaim = (store.admitted sessionId durableId epoch seq).reclaim)
    (index : store'.sessionDurables =
      (store.admitted sessionId durableId epoch seq).sessionDurables)
    (keeps : ∀ id, store.KeepsMarked (F.runsIn id) (F'.runsIn id))
    (lands : ∃ r ∈ F'.runsIn sessionId, r.nativeId = durableId.val) : Sound owner store' F' := by
  have before : ∀ d : DurableId, (store'.reclaim.mark d).isSome → d ≠ durableId →
      (store.reclaim.mark d).isSome := by
    intro d marked other
    rw [reclaim, StateStore.admitted, ReclaimTable.mark_admitDelta,
      if_neg (fun both => other both.1)] at marked
    exact marked
  refine ⟨refines, fun d marked => ?_, fun d marked => ?_⟩
  · by_cases new : d = durableId
    · rw [new, own]
      exact lands
    · obtain ⟨r, hr, native⟩ := h.held d (before d marked new)
      obtain ⟨r', hr', same⟩ := keeps _ r hr
        (by rw [StateStore.Marked, native]; exact before d marked new)
      exact ⟨r', hr', same.trans native⟩
  · have listed : d ∈ (store.admitted sessionId durableId epoch seq).durablesOf (owner d.val) := by
      rw [StateStore.mem_durablesOf_admitted]
      by_cases new : d = durableId
      · exact Or.inl ⟨by rw [new, own], new⟩
      · exact Or.inr (h.indexed d (before d marked new))
    rw [StateStore.durablesOf, index]
    exact listed

theorem mem_upsertRunIn (runs : List AgentRun) (run : AgentRun) :
    run ∈ (MergeEngine.upsertRunIn runs run).1 := by
  have found := MergeEngine.find?_upsertRunIn runs run run.runId
  rw [if_pos rfl] at found
  exact List.mem_of_find?_eq_some found

/-- A stamped upsert marks the run it brings. -/
theorem runUpsertSeq (h : Sound owner store F) (sessionId : String) (run : AgentRun)
    (durableId : DurableId) (epoch seq : Nat)
    (own : (StoreOp.runUpsertSeq sessionId run durableId epoch seq).Own owner)
    (keeps : (store.engine.session sessionId).isSome →
      (store.reclaim.classify durableId epoch seq).applies = true →
      if store.log.faults.headD false then
        ∃ r ∈ store.runsOf sessionId, r.nativeId = durableId.val
      else store.KeepsMarked (store.runsOf sessionId)
        (MergeEngine.upsertRunIn (store.runsOf sessionId) run).1) :
    ∃ F', Sound owner (store.applyRunUpsertSeq sessionId run durableId epoch seq).2 F' := by
  rcases store.applyRunUpsertSeq_cases sessionId run durableId epoch seq with
    ⟨-, eq⟩ | ⟨-, -, eq⟩ | ⟨live, admits, fault, eq⟩ | ⟨live, admits, fault, eq⟩ <;> rw [eq]
  · exact ⟨F, h⟩
  · exact ⟨F, h⟩
  · have there := keeps live (by simpa [Decision.drops] using admits)
    rw [if_pos fault, h.refines.runsOf] at there
    exact ⟨F, h.admitted own.2 h.refines rfl rfl (fun _ => keepsMarked_self store rfl) there⟩
  · have kept := keeps live (by simpa [Decision.drops] using admits)
    rw [fault, if_neg Bool.false_ne_true] at kept
    obtain ⟨s, found⟩ := Option.isSome_iff_exists.mp (by rwa [h.refines.session] at live)
    refine ⟨_, h.admitted own.2 (h.refines.upsertRun sessionId run) rfl rfl
      (h.keepsMarked_revise live kept) ⟨run, ?_, own.1⟩⟩
    rw [Fleet.runsIn_revise _ found]
    exact mem_upsertRunIn s.runs run

/-- After the removal a marked durable id has a run, unless it is that of the removed run and no run
of it is left. -/
theorem held_removed (h : Sound owner store F) {sessionId runId : String} {run : AgentRun}
    (first : store.runOf sessionId runId = some run) (fault : store.log.faults.headD false = false)
    (keeps : store.RemovalKeeps sessionId runId) {d : DurableId}
    (marked : (store.reclaim.mark d).isSome)
    (left : d ≠ ⟨run.nativeId⟩ ∨ ∃ r ∈ (F.revise sessionId (fun runs =>
      runs.filter (fun r => r.runId ≠ runId))).runsIn sessionId, r.nativeId = run.nativeId) :
    ∃ r ∈ (F.revise sessionId (fun runs => runs.filter (fun r => r.runId ≠ runId))).runsIn
      (owner d.val), r.nativeId = d.val := by
  obtain ⟨r, hr, native⟩ := h.held d marked
  by_cases own : owner d.val = sessionId
  · subst own
    obtain ⟨s, found⟩ : ∃ s, F.get? (owner d.val) = some s := by
      rw [StateStore.runOf, h.refines.session] at first
      obtain ⟨s, found, -⟩ := Option.bind_eq_some_iff.mp first
      exact ⟨s, found⟩
    have runs := Fleet.runsIn_revise (fun runs => runs.filter (fun r => r.runId ≠ runId)) found
    rw [Fleet.runsIn_of_get? found] at hr
    rw [runs]
    by_cases named : r.runId = runId
    · by_cases same : r.nativeId = run.nativeId
      · have this : d = ⟨run.nativeId⟩ := congrArg DurableId.mk (native.symm.trans same)
        obtain ⟨r', hr', native'⟩ := left.resolve_left (fun other => other this)
        rw [runs] at hr'
        exact ⟨r', hr', native'.trans (same.symm.trans native)⟩
      · obtain ⟨r', hr', other, native'⟩ := keeps fault run first r
          (by rw [h.refines.runsOf, Fleet.runsIn_of_get? found]; exact hr) named same
          (by rw [StateStore.Marked, native]; exact marked)
        rw [h.refines.runsOf, Fleet.runsIn_of_get? found] at hr'
        exact ⟨r', List.mem_filter.mpr ⟨hr', by simpa using other⟩, native'.trans native⟩
    · exact ⟨r, List.mem_filter.mpr ⟨hr, by simpa using named⟩, native⟩
  · rw [Fleet.runsIn_revise_ne own]
    exact ⟨r, hr, native⟩

/-- The removal of a run keeps the marks sound if the run is not marked. -/
theorem runRemove (h : Sound owner store F) (sessionId runId : String)
    (keeps : store.RemovalKeeps sessionId runId) :
    ∃ F', Sound owner (store.applyRunRemove sessionId runId).2 F' := by
  rcases store.applyRunRemove_cases sessionId runId with
    ⟨-, eq⟩ | ⟨run, -, -, eq⟩ | ⟨run, first, fault, eq⟩ <;> rw [eq]
  · exact ⟨F, h⟩
  · exact ⟨F, h.change h.refines rfl rfl (fun _ => keepsMarked_self store rfl)⟩
  · have refines := h.refines.removeRun sessionId runId
    have held := fun d => h.held_removed (d := d) first fault keeps
    rcases StateStore.pruneDurable_cases { store with
      log := store.log.push (.runRemove sessionId runId)
      engine := (store.engine.removeRun sessionId runId).1 } sessionId ⟨run.nativeId⟩ with
      ⟨used, same⟩ | pruned
    · simp only [same]
      rw [Refines.runsOf (by exact refines)] at used
      exact ⟨_, refines, fun d marked => held d marked (Or.inr used), fun d => h.indexed d⟩
    · have other : ∀ d : DurableId, ((StateStore.pruneDurable { store with
          log := store.log.push (.runRemove sessionId runId)
          engine := (store.engine.removeRun sessionId runId).1 } sessionId
            ⟨run.nativeId⟩).reclaim.mark d).isSome → d ≠ ⟨run.nativeId⟩ := by
        intro d marked same
        rw [(pruned d).1, if_pos same] at marked
        cases marked
      refine ⟨F.revise sessionId (fun runs => runs.filter (fun r => r.runId ≠ runId)),
        ⟨?_, fun d marked => ?_, fun d marked => ?_⟩⟩
      · rw [StateStore.pruneDurable_engine]
        exact refines
      · have ne := other d marked
        rw [(pruned d).1, if_neg ne] at marked
        exact held d marked (Or.inl ne)
      · have ne := other d marked
        rw [(pruned d).1, if_neg ne] at marked
        exact ((pruned d).2 ne _).mpr (h.indexed d marked)

/-- A mutation that leaves the runs alone, with no upkeep. -/
theorem flags (h : Sound owner store F) {store' : StateStore} {m : MergeEngine.Mutation}
    {result : Except PersistError (List Event)}
    (did : Did store.engine (some m) result store'.engine)
    (upkeep : store'.reclaim = store.reclaim ∧ store'.sessionDurables = store.sessionDurables)
    (runs : ∀ id, (F.mutate m).runsIn id = F.runsIn id) : ∃ F', Sound owner store' F' := by
  rcases did.refines h.refines with refines | ⟨m', same, refines⟩
  · exact ⟨F, h.change refines upkeep.1 upkeep.2 (fun _ => keepsMarked_self store rfl)⟩
  · rw [← Option.some.inj same] at refines
    exact ⟨_, h.change refines upkeep.1 upkeep.2 (fun id => keepsMarked_self store (runs id))⟩

/-- So do several removals. -/
theorem removals (victims : List (String × String)) : ∀ {store : StateStore},
    (∃ F, Sound owner store F) → StateStore.RemovalsKeep victims store →
      ∃ F, Sound owner (StateStore.removeAll (fun store (sid, rid) => store.applyRunRemove sid rid)
        victims store).2 F := by
  induction victims with
  | nil => exact fun h _ => h
  | cons victim victims ih =>
    rintro store ⟨F, h⟩ ⟨here, rest⟩
    have h' := h.runRemove victim.1 victim.2 here
    rcases StateStore.removeAll_cons _ victim victims store with ⟨e, -, ends⟩ | ⟨events, fine, goes⟩
    · rw [ends]
      exact h'
    · have fine' : (store.applyRunRemove victim.1 victim.2).1 = .ok events := fine
      rw [goes]
      exact ih h' (rest (by rw [fine']; rfl))

/-- So does every operation of the store under its condition. -/
theorem perform (parseEpochSecs : String → Option Int) (h : Sound owner store F) (op : StoreOp)
    (own : op.Own owner) (keeps : store.Keeps parseEpochSecs op) :
    ∃ F', Sound owner (store.perform parseEpochSecs op) F' := by
  cases op with
  | sessionUpsert session => exact h.sessionUpsert session keeps
  | sessionRemove sessionId => exact h.sessionRemove sessionId
  | runUpsert sessionId run => exact h.runUpsert sessionId run keeps
  | runUpsertSeq sessionId run durableId epoch seq =>
    exact h.runUpsertSeq sessionId run durableId epoch seq own keeps
  | runRemove sessionId runId => exact h.runRemove sessionId runId keeps
  | mute sessionId =>
    exact h.flags (store.applyFlagChange_did (m := .applyMute sessionId) rfl (fun _ => nofun))
      (store.applyFlagChange_upkeep _)
      (fun _ => Fleet.runsIn_reflag (Edit.only_runs fun _ => rfl))
  | unmute sessionId =>
    exact h.flags (store.applyFlagChange_did (m := .applyUnmute sessionId) rfl (fun _ => nofun))
      (store.applyFlagChange_upkeep _)
      (fun _ => Fleet.runsIn_reflag (Edit.only_runs fun _ => rfl))
  | solo sessionId =>
    exact h.flags (store.applyFlagChange_did (m := .applySolo sessionId) rfl (fun _ => nofun))
      (store.applyFlagChange_upkeep _) (fun _ => Fleet.runsIn_solo sessionId)
  | focus sessionId =>
    exact h.flags (store.applyFocus_did sessionId) (store.applyFocus_upkeep sessionId)
      (fun _ => Fleet.runsIn_edit (Edit.only_runs fun _ => rfl))
  | reapDead now grace => exact removals _ ⟨F, h⟩ keeps
  | sweepExpiredSessions now ttl =>
    exact StateStore.removeAll_invariant (P := fun store => ∃ F, Sound owner store F)
      (fun store sid ⟨_, h⟩ => h.sessionRemove sid) _ ⟨F, h⟩

/-- A marked durable id has a live session with a run of it. -/
theorem reported (h : Sound owner store F) {d : DurableId}
    (marked : (store.reclaim.mark d).isSome) :
    ∃ s, store.engine.session (owner d.val) = some s ∧ ∃ r ∈ s.runs, r.nativeId = d.val := by
  obtain ⟨r, hr, native⟩ := h.held d marked
  rw [← h.refines.runsOf, StateStore.runsOf] at hr
  cases found : store.engine.session (owner d.val) with
  | none => rw [found] at hr; cases hr
  | some s =>
    rw [found] at hr
    exact ⟨s, rfl, r, hr, native⟩

end Sound

/-- A dropped delta leaves a run of its durable id in its session, and so does every mark. -/
def StateStore.DropsSound (owner : String → String) (store : StateStore) : Prop :=
  (∀ sessionId run durableId epoch seq decision events store',
    (store.engine.session sessionId).isSome →
    (StoreOp.runUpsertSeq sessionId run durableId epoch seq).Own owner →
    store.applyRunUpsertSeq sessionId run durableId epoch seq = (.ok (decision, events), store') →
    decision.drops = true →
    ∃ s, store'.engine.session sessionId = some s ∧ ∃ r ∈ s.runs, r.nativeId = durableId.val) ∧
  ∀ d, (store.reclaim.mark d).isSome →
    ∃ sessionId s, store.engine.session sessionId = some s ∧ ∃ r ∈ s.runs, r.nativeId = d.val

/-- With sound marks a delta is only dropped for one as new that has landed. -/
theorem Sound.dropsSound {owner : String → String} {store : StateStore} {F : Fleet}
    (h : Sound owner store F) : store.DropsSound owner := by
  refine ⟨fun sessionId run durableId epoch seq decision events store' live own eq drops => ?_,
    fun d marked => ⟨_, h.reported marked⟩⟩
  rcases store.applyRunUpsertSeq_cases sessionId run durableId epoch seq with
    ⟨absent, -⟩ | ⟨-, dropped, eq'⟩ | ⟨-, -, -, eq'⟩ | ⟨-, admits, -, eq'⟩
  · rw [absent] at live
    cases live
  · -- What is dropped has been marked before.
    have marked : (store.reclaim.mark durableId).isSome := by
      cases unmarked : store.reclaim.mark durableId with
      | some m => rfl
      | none => simp [ReclaimTable.classify_of_none unmarked, Decision.drops, Decision.applies]
          at dropped
    rw [eq, Prod.mk.injEq] at eq'
    rw [eq'.2, ← own.2]
    exact h.reported marked
  · rw [eq, Prod.mk.injEq] at eq'
    cases eq'.1
  · rw [eq, Prod.mk.injEq, Except.ok.injEq, Prod.mk.injEq] at eq'
    rw [eq'.1.1, admits] at drops
    cases drops

/-- As long as no step takes a marked run away, the gate drops only what the session holds. -/
theorem drops_sound (parseEpochSecs : String → Option Int) (log : EventLog)
    (owner : String → String) (ops : List StoreOp) (own : ∀ op ∈ ops, op.Own owner)
    (keeps : Along (StateStore.perform parseEpochSecs)
      (fun store => store.Keeps parseEpochSecs) (.fromLog log) ops) :
    (ops.foldl (StateStore.perform parseEpochSecs) (.fromLog log)).DropsSound owner := by
  obtain ⟨F, sound⟩ := Along.invariant (P := fun store => ∃ F, Sound owner store F)
    (fun store op ⟨_, h⟩ keep => h.perform parseEpochSecs op keep.1 keep.2) ops _
    (Sound.fromLog owner log) (keeps.and own)
  exact sound.dropsSound

/-- A session whose run was reported by a stamped delta. -/
def reportedOps : List StoreOp :=
  [.sessionUpsert (.plain "s" []), .runUpsertSeq "s" (.plain "r" "n" .waiting) ⟨"n"⟩ 1 1]

theorem reportedOps_own : ∀ op ∈ reportedOps, op.Own (fun _ => "s") :=
  List.forall_mem_cons.mpr ⟨trivial, List.forall_mem_singleton.mpr ⟨rfl, rfl⟩⟩

theorem drops_sound_reported :
    (reportedOps.foldl (StateStore.perform (fun _ => none)) (.fromLog (.holding [] []))).DropsSound
      (fun _ => "s") := by
  refine drops_sound (fun _ => none) (.holding [] []) (fun _ => "s") reportedOps reportedOps_own
    ⟨fun _ r held => ?_, fun _ _ => ?_, trivial⟩
  · cases held
  · rw [if_neg (by decide)]
    intro r held
    cases held

/-- A later upsert of the session takes the run away and leaves its mark, which drops the delta that
would bring it back. -/
theorem sessionUpsert_leaves_mark :
    ¬ ∀ (log : EventLog) (owner : String → String) (ops : List StoreOp),
      (∀ op ∈ ops, op.Own owner) →
      (ops.foldl (StateStore.perform (fun _ => none)) (.fromLog log)).DropsSound owner := by
  intro sound
  have upsert : StoreOp.Own (fun _ => "s") (.sessionUpsert (.plain "s" [])) := trivial
  obtain ⟨dropped, -⟩ := sound (.holding [] []) (fun _ => "s")
    (reportedOps ++ [.sessionUpsert (.plain "s" [])])
    (List.forall_mem_append.mpr ⟨reportedOps_own, List.forall_mem_singleton.mpr upsert⟩)
  obtain ⟨s, live, r, held, -⟩ := dropped "s" (.plain "r" "n" .waiting) ⟨"n"⟩ 1 1
    .duplicateDrop [] _ (by decide) ⟨rfl, rfl⟩ (Prod.ext rfl rfl) rfl
  have gone : some s.runs.length = some 0 :=
    (congrArg (Option.map (fun s : Session => s.runs.length)) live).symm
  rw [Option.some.injEq, List.length_eq_zero_iff] at gone
  rw [gone] at held
  cases held

end VsFleet
