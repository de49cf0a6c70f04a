import VsFleet.Reporter.Core

/-!
# The known runs and their trackers

What a command and a reaping do to the tracker of one run and to what the reporter knows of it. A
tracker is there from the first upsert of its run on and goes when it times out; an exit it has seen
stays.
-/

namespace VsFleet

/-- What a command does to the tracker of a run. -/
def ReporterCommand.track (id : String) (now timeout : Nat) (tracker : Option LivenessTracker) :
    ReporterCommand → Option LivenessTracker
  | .upsertRun run =>
    if id = run.runId then
      some (if run.state = .dead then (tracker.getD (.new timeout)).observeExit
        else (tracker.getD (.new timeout)).observeLiveness now)
    else tracker
  | .liveness runId => if id = runId then tracker.map (fun t => t.observeLiveness now) else tracker
  | .confirmExit runId _ => if id = runId then tracker.map (fun t => t.observeExit) else tracker
  | _ => tracker

namespace ReporterCore

/-- The known runs are stored under their ids, in one order. -/
abbrev Indexed (core : ReporterCore) : Prop :=
  OrderedMap.Indexed (fun r : AgentRun => r.runId) core.knownRuns core.runOrder

variable {core : ReporterCore}

theorem Indexed.rememberRun (known : core.Indexed) (run : AgentRun) :
    (core.rememberRun run).Indexed := by
  unfold ReporterCore.Indexed ReporterCore.rememberRun
  dsimp only
  split
  · rename_i old
    exact known.insert_mem old
  · rename_i new
    exact known.insert_new new

/-- The report of an ended run is about that run. -/
theorem deadRun_runId (known : core.Indexed) (iso runId reason : String) :
    (core.deadRun iso runId reason).runId = runId := by
  unfold deadRun
  cases found : core.knownRuns.lookup runId with
  | none => rfl
  | some run => exact known.keyed runId run found

theorem lookup_report (core : ReporterCore) (run : AgentRun) (id : String) :
    (core.report run).knownRuns.lookup id =
      if id = run.runId then some run else core.knownRuns.lookup id := by
  change (core.knownRuns.insert run.runId run).lookup id = _
  by_cases own : id = run.runId
  · rw [if_pos own, own, AList.lookup_insert]
  · rw [if_neg own, AList.lookup_insert_ne own]

/-! ## A command -/

theorem lookup_apply (core : ReporterCore) (iso : String) (cmd : ReporterCommand) (id : String) :
    (core.apply iso cmd).2.liveness.lookup id =
      cmd.track id core.now core.config.livenessTimeout (core.liveness.lookup id) := by
  cases cmd with
  | upsertSession session => rfl
  | upsertRun run =>
    change (core.liveness.insert run.runId _).lookup id = _
    simp only [ReporterCommand.track]
    by_cases own : id = run.runId
    · subst own
      rw [if_pos rfl, AList.lookup_insert]
    · rw [if_neg own, AList.lookup_insert_ne own]
  | liveness runId =>
    change (HashMap.modify core.liveness runId _).lookup id = _
    rw [HashMap.lookup_modify]
    rfl
  | confirmExit runId reason =>
    change (HashMap.modify core.liveness runId _).lookup id = _
    rw [HashMap.lookup_modify]
    rfl
  | shutdown => rfl

/-- The run a command reports. -/
def reportedBy (core : ReporterCore) (iso : String) : ReporterCommand → Option AgentRun
  | .upsertRun run => some run
  | .confirmExit runId reason => some (core.deadRun iso runId reason)
  | _ => none

/-- A command leaves the clock and the configuration alone, and all known runs but the one it
reports. -/
theorem apply_known (known : core.Indexed) (iso : String) (cmd : ReporterCommand) :
    (core.apply iso cmd).2.Indexed ∧ (core.apply iso cmd).2.now = core.now ∧
      (core.apply iso cmd).2.config = core.config ∧ ∀ id,
        (core.apply iso cmd).2.knownRuns.lookup id =
          ((core.reportedBy iso cmd).filter (fun r => id = r.runId)).or
            (core.knownRuns.lookup id) := by
  have reported : ∀ (liveness : HashMap String LivenessTracker) (run : AgentRun),
      ({ core with liveness }.report run).Indexed ∧ ∀ id,
        ({ core with liveness }.report run).knownRuns.lookup id =
          ((some run).filter (fun r => id = r.runId)).or (core.knownRuns.lookup id) := by
    intro liveness run
    have indexed : { core with liveness }.Indexed := known
    refine ⟨indexed.rememberRun run, fun id => ?_⟩
    rw [lookup_report]
    by_cases own : id = run.runId <;> simp [Option.filter, own]
  cases cmd with
  | upsertSession session => exact ⟨known, rfl, rfl, fun _ => rfl⟩
  | upsertRun run => exact ⟨(reported _ run).1, rfl, rfl, (reported _ run).2⟩
  | liveness runId => exact ⟨known, rfl, rfl, fun _ => rfl⟩
  | confirmExit runId reason =>
    exact ⟨(reported _ _).1, rfl, rfl, (reported _ (core.deadRun iso runId reason)).2⟩
  | shutdown => exact ⟨known, rfl, rfl, fun _ => rfl⟩

/-! ## A tick -/

/-- Only the clock advances. -/
theorem advanceTo_eq (core : ReporterCore) (elapsed : Nat) :
    core.advanceTo elapsed = { core with now := (core.advanceTo elapsed).now } := by
  unfold advanceTo
  split <;> rfl

theorem mem_timedOut {iter : IterOrder (Sigma fun _ : String => LivenessTracker)} {id : String} :
    id ∈ core.timedOut iter ↔
      ∃ t, core.liveness.lookup id = some t ∧ t.evaluate core.now = .deadTimeout := by
  unfold timedOut
  simp only [List.mem_map, List.mem_filter, (iter.isPerm core.liveness.entries).mem_iff,
    decide_eq_true_eq]
  constructor
  · rintro ⟨⟨k, t⟩, ⟨entry, dead⟩, rfl⟩
    exact ⟨t, AList.mem_lookup_iff.mpr entry, dead⟩
  · rintro ⟨t, found, dead⟩
    exact ⟨⟨id, t⟩, ⟨AList.mem_lookup_iff.mp found, dead⟩, rfl⟩

/-- The reaped runs have lost their trackers and are known as dead; nothing else has moved. -/
structure Reaped (core : ReporterCore) (runIds : List String) (core' : ReporterCore) : Prop where
  known : core'.Indexed
  now : core'.now = core.now
  config : core'.config = core.config
  tracker : ∀ id, core'.liveness.lookup id =
    if id ∈ runIds then none else core.liveness.lookup id
  dead : ∀ id ∈ runIds, ∃ run, core'.knownRuns.lookup id = some run ∧ run.state = .dead
  other : ∀ id, id ∉ runIds → core'.knownRuns.lookup id = core.knownRuns.lookup id

theorem reaped_fold (iso : String → String) (runIds : List String) : ∀ {core : ReporterCore},
    core.Indexed → core.Reaped runIds (runIds.foldl (reapOne iso) core) := by
  induction runIds with
  | nil =>
    intro core known
    exact ⟨known, rfl, rfl, fun _ => rfl, by simp, fun _ _ => rfl⟩
  | cons id runIds ih =>
    intro core known
    have own : (core.deadRun (iso id) id "heartbeat timeout").runId = id := deadRun_runId known _ _ _
    have found : ∀ k, (core.reapOne iso id).knownRuns.lookup k = if k = id then
        some (core.deadRun (iso id) id "heartbeat timeout") else core.knownRuns.lookup k := by
      intro k
      have reported := lookup_report { core with liveness := core.liveness.erase id }
        (core.deadRun (iso id) id "heartbeat timeout") k
      rwa [own] at reported
    have indexed : { core with liveness := core.liveness.erase id }.Indexed := known
    have after : (core.reapOne iso id).Indexed := indexed.rememberRun _
    have rest := ih after
    rw [List.foldl_cons]
    refine ⟨rest.known, rest.now, rest.config, fun k => ?_, fun k reaped => ?_, fun k spared => ?_⟩
    · rw [rest.tracker]
      change (if k ∈ runIds then none else (core.liveness.erase id).lookup k) = _
      by_cases same : k = id
      · subst same
        simp
      · rw [AList.lookup_erase_ne same]
        simp [same]
    · by_cases later : k ∈ runIds
      · exact rest.dead k later
      · have same : k = id := (List.mem_cons.mp reaped).resolve_right later
        refine ⟨core.deadRun (iso id) id "heartbeat timeout", ?_, rfl⟩
        rw [rest.other k later, found, if_pos same]
    · rw [List.mem_cons, not_or] at spared
      rw [rest.other k spared.2, found, if_neg spared.1]

theorem reaped (known : core.Indexed)
    (iter : IterOrder (Sigma fun _ : String => LivenessTracker)) (iso : String → String) :
    core.Reaped (core.timedOut iter) (core.reapTimeouts iter iso) := reaped_fold iso _ known

/-- A tick reaps at the clock it has advanced to. -/
theorem tick_reaped (known : core.Indexed) (elapsed : Nat)
    (iter : IterOrder (Sigma fun _ : String => LivenessTracker)) (iso : String → String) :
    ReporterCore.Reaped { core with now := (core.advanceTo elapsed).now }
      ((core.advanceTo elapsed).timedOut iter)
      ((core.advanceTo elapsed).reapTimeouts iter iso) := by
  have advanced : (core.advanceTo elapsed).Indexed := by
    rw [advanceTo_eq]
    exact known
  rw [← advanceTo_eq]
  exact reaped advanced iter iso

end ReporterCore

end VsFleet
