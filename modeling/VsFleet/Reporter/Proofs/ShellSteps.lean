import VsFleet.Reporter.Proofs.InferredWaiting
import VsFleet.Reporter.Proofs.Trackers
import VsFleet.Reporter.Receiver

/-!
# The machines and the core in step

What the core of a served reporter knows of a run against the machines of the run's session. Both
Claude machines of a session feed the same run, and the core can turn a run dead on its own. While
the run is tracked the core knows it in the state of one of its machines.
-/

namespace VsFleet

/-! ## Run ids -/

namespace AdapterCore

theorem minus_notMem_digits (n : Nat) : '-' ∉ (toString n).toList := by
  intro h
  have digits : (toString n).toList = Nat.toDigits 10 n := by simp
  rw [digits] at h
  have digit := Nat.isDigit_of_mem_toDigits (by decide) (by decide) h
  revert digit
  decide

/-- The number of a run id is what comes after its last minus. -/
theorem takeWhile_mint (agent id : String) (n : Nat) :
    (mint agent id n).toList.reverse.takeWhile (fun c => c ≠ '-') =
      (toString n).toList.reverse := by
  have parts : (mint agent id n).toList.reverse = (toString n).toList.reverse ++
      '-' :: (agent ++ ":" ++ id ++ ":run").toList.reverse := by
    simp [mint, String.toList_append]
  rw [parts, List.takeWhile_append_of_pos, List.takeWhile_cons_of_neg (by simp), List.append_nil]
  intro c hc
  have other : c ≠ '-' := by
    rintro rfl
    exact minus_notMem_digits n (List.mem_reverse.mp hc)
  simpa using other

/-- A run id tells the session it was minted for. -/
theorem mint_injective {agent id id' : String} {n n' : Nat}
    (same : mint agent id n = mint agent id' n') : id = id' := by
  have digits := takeWhile_mint agent id n
  rw [same, takeWhile_mint, List.reverse_inj] at digits
  have lists := congrArg String.toList same
  simp only [mint, String.toList_append, digits] at lists
  rw [List.append_cancel_right_eq, List.append_cancel_right_eq,
    List.append_cancel_left_eq] at lists
  exact String.toList_inj.mp lists

/-- The run ids of the two agents differ. -/
theorem mint_claude_ne_codex (id id' : String) (n n' : Nat) :
    mint "claude" id n ≠ mint "codex" id' n' := by
  intro same
  have lists := congrArg String.toList same
  simp [mint, String.toList_append] at lists

end AdapterCore

/-! ## The core -/

/-- The core between two reapings: a run that is not known as dead is tracked, and no tracker that
has seen no exit is overdue. -/
structure ReporterCore.Tended (core : ReporterCore) : Prop where
  indexed : core.Indexed
  alive : ∀ r run, core.knownRuns.lookup r = some run → run.state ≠ .dead →
    (core.liveness.lookup r).isSome
  fresh : ∀ r t, core.liveness.lookup r = some t → t.timeout = core.config.livenessTimeout ∧
    (t.confirmedExit = false → core.now ≤ t.lastSeen + t.timeout)

namespace ReporterCore

/-- A core without runs is tended. -/
theorem tended_new (config : ReporterConfig) : (new config).Tended where
  indexed := OrderedMap.Indexed.empty
  alive := by simp [new]
  fresh := by simp [new]

/-- The core has been told of a run: the state it is in where that has changed, and nothing but a
sign of life where it has not. -/
structure Told (core : ReporterCore) (r : String) (changed : Option State) (core' : ReporterCore) :
    Prop where
  tended : core'.Tended
  now : core'.now = core.now
  config : core'.config = core.config
  known : ∀ r' ≠ r, core'.knownRuns.lookup r' = core.knownRuns.lookup r'
  tracker : ∀ r' ≠ r, core'.liveness.lookup r' = core.liveness.lookup r'
  told : ∀ state, changed = some state →
    (∃ run, core'.knownRuns.lookup r = some run ∧ run.state = state) ∧
      (core'.liveness.lookup r).isSome
  same : changed = none → core'.knownRuns.lookup r = core.knownRuns.lookup r ∧
    (core'.liveness.lookup r).isSome = (core.liveness.lookup r).isSome

/-- Nothing was told of the run. -/
theorem Told.refl {core : ReporterCore} (h : core.Tended) (r : String) : core.Told r none core where
  tended := h
  now := rfl
  config := rfl
  known _ _ := rfl
  tracker _ _ := rfl
  told _ some := by cases some
  same _ := ⟨rfl, rfl⟩

/-- A tracker that a sign of life has reached is not overdue. -/
theorem fresh_observed {t : LivenessTracker} {now timeout : Nat} (window : t.timeout = timeout)
    (fresh : t.confirmedExit = false → now ≤ t.lastSeen + t.timeout ∨ t.lastSeen ≤ now) :
    (t.observeLiveness now).timeout = timeout ∧ ((t.observeLiveness now).confirmedExit = false →
      now ≤ (t.observeLiveness now).lastSeen + (t.observeLiveness now).timeout) := by
  unfold LivenessTracker.observeLiveness
  split
  · exact ⟨window, fun _ => Nat.le_add_right _ _⟩
  · rename_i early
    exact ⟨window, fun alive => by have := fresh alive; omega⟩

/-- A report of a run. -/
theorem told_upsertRun {core : ReporterCore} (h : core.Tended) (iso : String) (run : AgentRun) :
    core.Told run.runId (some run.state) (core.apply iso (.upsertRun run)).2 := by
  obtain ⟨indexed, now, config, known⟩ := apply_known h.indexed iso (.upsertRun run)
  have tracker := lookup_apply core iso (.upsertRun run)
  have others : ∀ r' ≠ run.runId,
      (core.apply iso (.upsertRun run)).2.knownRuns.lookup r' = core.knownRuns.lookup r' ∧
      (core.apply iso (.upsertRun run)).2.liveness.lookup r' = core.liveness.lookup r' := by
    intro r' other
    rw [known, tracker]
    simp [reportedBy, ReporterCommand.track, Option.filter, other]
  have own : (core.apply iso (.upsertRun run)).2.knownRuns.lookup run.runId = some run := by
    rw [known]
    simp [reportedBy, Option.filter]
  have tracked : ∃ t, (core.apply iso (.upsertRun run)).2.liveness.lookup run.runId = some t ∧
      t.timeout = core.config.livenessTimeout ∧
      (t.confirmedExit = false → core.now ≤ t.lastSeen + t.timeout) := by
    rw [tracker]
    simp only [ReporterCommand.track, if_true]
    refine ⟨_, rfl, ?_⟩
    have before : ((core.liveness.lookup run.runId).getD (.new core.config.livenessTimeout)).timeout
        = core.config.livenessTimeout := by
      cases found : core.liveness.lookup run.runId with
      | none => rfl
      | some t => exact (h.fresh _ t found).1
    split
    · exact ⟨before, fun alive => by cases alive⟩
    · refine fresh_observed before ?_
      cases found : core.liveness.lookup run.runId with
      | none => exact fun _ => Or.inr (Nat.zero_le _)
      | some t => exact fun alive => Or.inl ((h.fresh _ t found).2 alive)
  obtain ⟨t, found, fresh⟩ := tracked
  refine ⟨⟨indexed, ?_, ?_⟩, now, config, fun r' other => (others r' other).1,
    fun r' other => (others r' other).2, ?_, ?_⟩
  · intro r' run' known' live
    by_cases same : r' = run.runId
    · subst same
      rw [found]
      rfl
    · rw [(others r' same).2]
      rw [(others r' same).1] at known'
      exact h.alive r' run' known' live
  · intro r' t' found'
    rw [now, config]
    by_cases same : r' = run.runId
    · subst same
      cases found.symm.trans found'
      exact fresh
    · rw [(others r' same).2] at found'
      exact h.fresh r' t' found'
  · rintro state ⟨⟩
    exact ⟨⟨run, own, rfl⟩, by rw [found]; rfl⟩
  · intro none
    cases none

/-- A sign of life. -/
theorem told_liveness {core : ReporterCore} (h : core.Tended) (iso r : String) :
    core.Told r none (core.apply iso (.liveness r)).2 := by
  obtain ⟨indexed, now, config, known⟩ := apply_known h.indexed iso (.liveness r)
  have tracker := lookup_apply core iso (.liveness r)
  have known : ∀ r', (core.apply iso (.liveness r)).2.knownRuns.lookup r' =
      core.knownRuns.lookup r' := by
    intro r'
    rw [known]
    rfl
  have tracked : ∀ r', ((core.apply iso (.liveness r)).2.liveness.lookup r').isSome =
      (core.liveness.lookup r').isSome := by
    intro r'
    rw [tracker]
    simp only [ReporterCommand.track]
    split <;> simp
  refine ⟨⟨indexed, ?_, ?_⟩, now, config, fun r' _ => known r', ?_, ?_, ?_⟩
  · intro r' run known' live
    rw [tracked]
    rw [known] at known'
    exact h.alive r' run known' live
  · intro r' t found
    rw [tracker] at found
    rw [now, config]
    simp only [ReporterCommand.track] at found
    split at found
    · obtain ⟨before, there, rfl⟩ := Option.map_eq_some_iff.mp found
      exact fresh_observed (h.fresh r' before there).1
        (fun alive => Or.inl ((h.fresh r' before there).2 alive))
    · exact h.fresh r' t found
  · intro r' other
    rw [tracker]
    simp [ReporterCommand.track, other]
  · intro state some
    cases some
  · exact fun _ => ⟨known r, tracked r⟩

/-- What the step of a machine sends tells the core of the machine's run. -/
theorem told_commandsFor {M : Type} [RunMachine M] {core : ReporterCore} (h : core.Tended)
    (iso : String) (t : Transition) (session : AdapterSession M)
    (named : (RunMachine.buildRun session.machine session.runId iso).runId = session.runId) :
    core.Told session.runId
      (if t.changed then some (RunMachine.buildRun session.machine session.runId iso).state
        else none)
      (core.applyAll (AdapterCore.commandsFor iso t session)) := by
  unfold AdapterCore.commandsFor
  split
  · have told := told_upsertRun h "" (RunMachine.buildRun session.machine session.runId iso)
    rwa [named] at told
  · split
    · exact told_liveness h "" session.runId
    · exact .refl h session.runId

/-- A tick reaps the overdue runs and leaves the core tended. -/
theorem tended_reap {core : ReporterCore} (h : core.Tended) (elapsed : Nat)
    (iter : IterOrder (Sigma fun _ : String => LivenessTracker)) (iso : String → String) :
    ((core.advanceTo elapsed).reapTimeouts iter iso).Tended := by
  have reaped := tick_reaped h.indexed elapsed iter iso
  refine ⟨reaped.known, ?_, ?_⟩
  · intro r run known live
    rw [reaped.tracker]
    by_cases overdue : r ∈ (core.advanceTo elapsed).timedOut iter
    · obtain ⟨dead, found, state⟩ := reaped.dead r overdue
      cases found.symm.trans known
      exact absurd state live
    · rw [if_neg overdue]
      rw [reaped.other r overdue] at known
      exact h.alive r run known live
  · intro r t found
    rw [reaped.tracker] at found
    split at found
    · cases found
    · rename_i spared
      rw [reaped.now, reaped.config]
      refine ⟨(h.fresh r t found).1, fun alive => ?_⟩
      by_contra late
      refine spared (mem_timedOut.mpr ⟨t, ?_, ?_⟩)
      · rw [advanceTo_eq]
        exact found
      · have overdue : (core.advanceTo elapsed).now - t.lastSeen > t.timeout := by
          dsimp only at late
          omega
        simp [LivenessTracker.evaluate, alive, overdue]

end ReporterCore

/-! ## An adapter -/

namespace AdapterCore

variable {M : Type} {a : AdapterCore M}

/-- The session is there after `ensure`: as it was, or new under a fresh id. -/
theorem ensure_cases (a : AdapterCore M) (id : String) (make : M) :
    (∃ session, a.sessions.lookup id = some session ∧ a.ensure id make = (session, a)) ∨
      (a.sessions.lookup id = none ∧ a.ensure id make =
        (⟨make, mint a.agent id (a.runCounter + 1)⟩, { a with
          runCounter := a.runCounter + 1
          sessions := a.sessions.insert id ⟨make, mint a.agent id (a.runCounter + 1)⟩ })) := by
  unfold ensure
  cases found : a.sessions.lookup id with
  | some session => exact Or.inl ⟨session, rfl, rfl⟩
  | none => exact Or.inr ⟨rfl, rfl⟩

/-- The session is there after `ensure`. -/
theorem lookup_ensure (a : AdapterCore M) (id : String) (make : M) :
    (a.ensure id make).2.sessions.lookup id = some (a.ensure id make).1 := by
  rcases a.ensure_cases id make with ⟨session, found, eq⟩ | ⟨-, eq⟩
  · rw [eq, found]
  · rw [eq, AList.lookup_insert]

/-- The sessions of an adapter have the ids that were minted for them, and machines that are right
for them. -/
structure Serves (a : AdapterCore M) (agent : String) (ok : String → M → Prop) : Prop where
  named : a.agent = agent
  minted : ∀ id session, a.sessions.lookup id = some session → ∃ n, session.runId = mint agent id n
  machines : ∀ id session, a.sessions.lookup id = some session → ok id session.machine

/-- An adapter without sessions serves. -/
theorem serves_new (agent : String) (ok : String → M → Prop) : (new agent).Serves agent ok where
  named := rfl
  minted := by simp [new]
  machines := by simp [new]

/-- A session is written. -/
theorem Serves.insert {agent : String} {ok : String → M → Prop} (h : a.Serves agent ok)
    {id : String} {session : AdapterSession M} {counter : Nat}
    (minted : ∃ n, session.runId = mint agent id n) (right : ok id session.machine) :
    Serves ⟨a.sessions.insert id session, counter, a.agent⟩ agent ok := by
  refine ⟨h.named, ?_, ?_⟩
  · intro id' session' found
    by_cases same : id' = id
    · subst same
      rw [AList.lookup_insert, Option.some.injEq] at found
      exact found ▸ minted
    · rw [AList.lookup_insert_ne same] at found
      exact h.minted id' session' found
  · intro id' session' found
    by_cases same : id' = id
    · subst same
      rw [AList.lookup_insert, Option.some.injEq] at found
      exact found ▸ right
    · rw [AList.lookup_insert_ne same] at found
      exact h.machines id' session' found

/-- A new session gets an id of its own. -/
theorem Serves.ensure {agent : String} {ok : String → M → Prop} (h : a.Serves agent ok)
    (id : String) (make : M) (right : ok id make) : (a.ensure id make).2.Serves agent ok := by
  rcases a.ensure_cases id make with ⟨session, found, eq⟩ | ⟨-, eq⟩
  · rw [eq]
    exact h
  · rw [eq]
    exact h.insert ⟨_, by rw [h.named]⟩ right

variable [RunMachine M]

/-- Some machine of the adapter feeds the run and is in a state. -/
def HasRun (a : AdapterCore M) (r : String) (state : State) : Prop :=
  ∃ id session, a.sessions.lookup id = some session ∧ session.runId = r ∧
    RunMachine.runState session.machine = state

/-- `ensure` leaves the machines that are there. -/
theorem HasRun.ensure {r : String} {state : State} (h : a.HasRun r state) (id : String) (make : M) :
    (a.ensure id make).2.HasRun r state := by
  rcases a.ensure_cases id make with ⟨session, found, eq⟩ | ⟨absent, eq⟩
  · rw [eq]
    exact h
  · obtain ⟨id', session, found, run, state⟩ := h
    have other : id' ≠ id := by
      rintro rfl
      cases absent.symm.trans found
    rw [eq]
    exact ⟨id', session, by rwa [AList.lookup_insert_ne other], run, state⟩

/-- The first sighting of a session is a write of its own. -/
theorem applyAndCommands_eq (a : AdapterCore M) (iso id : String) (make : M)
    (apply : M → Transition × M) :
    a.applyAndCommands iso id make apply = (a.ensure id make).2.withExisting iso id apply := by
  simp only [applyAndCommands, withExisting, lookup_ensure]

end AdapterCore

/-! ## In step -/

/-- Every tracked run is known in a state of a machine that feeds it, and only runs that a machine
feeds are known. -/
structure InStep (core : ReporterCore) (feeds : String → State → Prop) : Prop where
  tended : core.Tended
  agrees : ∀ r, (core.liveness.lookup r).isSome →
    ∃ run, core.knownRuns.lookup r = some run ∧ feeds r run.state
  owned : ∀ r, (core.knownRuns.lookup r).isSome → ∃ state, feeds r state

namespace InStep

variable {core core' : ReporterCore} {feeds : String → State → Prop}

theorem new (config : ReporterConfig) (feeds : String → State → Prop) :
    InStep (.new config) feeds where
  tended := ReporterCore.tended_new config
  agrees := by simp [ReporterCore.new]
  owned := by simp [ReporterCore.new]

theorem mono (h : InStep core feeds) (feeds' : String → State → Prop)
    (more : ∀ r state, feeds r state → feeds' r state) :
    InStep core feeds' where
  tended := h.tended
  agrees r tracked :=
    let ⟨run, known, fed⟩ := h.agrees r tracked
    ⟨run, known, more r run.state fed⟩
  owned r known :=
    let ⟨state, fed⟩ := h.owned r known
    ⟨state, more r state fed⟩

/-- A machine takes a step and the core is told. -/
theorem told {feeds' : String → State → Prop} {r : String} {changed : Option State}
    (h : InStep core feeds)
    (told : core.Told r changed core') (now : ∃ state, feeds' r state)
    (new : ∀ state, changed = some state → feeds' r state)
    (kept : ∀ r' state, r' ≠ r ∨ changed = none → feeds r' state → feeds' r' state) :
    InStep core' feeds' := by
  refine ⟨told.tended, ?_, ?_⟩
  · intro r' tracked
    by_cases own : r' = r
    · subst own
      cases moved : changed with
      | some state =>
        obtain ⟨⟨run, known, rfl⟩, -⟩ := told.told state moved
        exact ⟨run, known, new _ moved⟩
      | none =>
        obtain ⟨known, same⟩ := told.same moved
        rw [same] at tracked
        obtain ⟨run, found, fed⟩ := h.agrees r' tracked
        exact ⟨run, known.trans found, kept r' _ (Or.inr moved) fed⟩
    · rw [told.tracker r' own] at tracked
      obtain ⟨run, found, fed⟩ := h.agrees r' tracked
      exact ⟨run, (told.known r' own).trans found, kept r' _ (Or.inl own) fed⟩
  · intro r' known
    by_cases own : r' = r
    · exact own ▸ now
    · rw [told.known r' own] at known
      obtain ⟨state, fed⟩ := h.owned r' known
      exact ⟨state, kept r' _ (Or.inl own) fed⟩

/-- What is reaped is no longer tracked, and stays with its machines. -/
theorem reap (h : InStep core feeds) (elapsed : Nat)
    (iter : IterOrder (Sigma fun _ : String => LivenessTracker)) (iso : String → String) :
    InStep ((core.advanceTo elapsed).reapTimeouts iter iso) feeds := by
  have reaped := ReporterCore.tick_reaped h.tended.indexed elapsed iter iso
  refine ⟨ReporterCore.tended_reap h.tended elapsed iter iso, ?_, ?_⟩
  · intro r tracked
    rw [reaped.tracker] at tracked
    split at tracked
    · cases tracked
    · rename_i spared
      obtain ⟨run, known, fed⟩ := h.agrees r tracked
      exact ⟨run, (reaped.other r spared).trans known, fed⟩
  · intro r known
    by_cases overdue : r ∈ (core.advanceTo elapsed).timedOut iter
    · obtain ⟨t, found, -⟩ := ReporterCore.mem_timedOut.mp overdue
      rw [ReporterCore.advanceTo_eq] at found
      obtain ⟨run, -, fed⟩ := h.agrees r (by rw [found]; rfl)
      exact ⟨run.state, fed⟩
    · rw [reaped.other r overdue] at known
      exact h.owned r known

end InStep

/-- The run a machine builds has the id it is given and the state of the machine. -/
class LawfulRunMachine (M : Type) [RunMachine M] : Prop where
  runId : ∀ (m : M) runId iso, (RunMachine.buildRun m runId iso).runId = runId
  state : ∀ (m : M) runId iso, (RunMachine.buildRun m runId iso).state = RunMachine.runState m

instance : LawfulRunMachine ClaudeStateMachine := ⟨fun _ _ _ => rfl, fun _ _ _ => rfl⟩
instance : LawfulRunMachine ClaudeInferMachine := ⟨fun _ _ _ => rfl, fun _ _ _ => rfl⟩
instance : LawfulRunMachine CodexStateMachine := ⟨fun _ _ _ => rfl, fun _ _ _ => rfl⟩

section Moves

variable {M : Type} [RunMachine M] {a : AdapterCore M} {agent : String} {ok : String → M → Prop}
  {f : M → Transition × M} {id : String}

/-- A session that is there goes through the function. -/
theorem AdapterCore.withExisting_of_some {t : AdapterSession M}
    (found : a.sessions.lookup id = some t) (iso : String) (f : M → Transition × M) :
    a.withExisting iso id f =
      (commandsFor iso (f t.machine).1 { t with machine := (f t.machine).2 },
        { a with sessions := a.sessions.insert id { t with machine := (f t.machine).2 } }) := by
  simp only [withExisting, found]

/-- And the adapter serves as before. -/
theorem AdapterCore.Serves.withExisting (h : a.Serves agent ok) (iso : String)
    (keeps : ∀ m, ok id m → ok id (f m).2) : (a.withExisting iso id f).2.Serves agent ok := by
  cases found : a.sessions.lookup id with
  | none => simpa only [AdapterCore.withExisting, found] using h
  | some t =>
    rw [withExisting_of_some found]
    exact h.insert (h.minted id t found) (keeps _ (h.machines id t found))

/-- The run ids of an adapter stay when a machine moves. -/
theorem AdapterCore.runId_withExisting (iso : String) (id' : String) :
    ((a.withExisting iso id f).2.sessions.lookup id').map (fun s => s.runId) =
      (a.sessions.lookup id').map (fun s => s.runId) := by
  cases found : a.sessions.lookup id with
  | none => simp only [withExisting, found]
  | some t =>
    rw [withExisting_of_some found]
    by_cases same : id' = id
    · subst same
      simp [found]
    · rw [AList.lookup_insert_ne same]

/-- One machine moves and the core takes what it sends. -/
theorem InStep.move [LawfulRunMachine M] {core : ReporterCore} {rest : String → State → Prop}
    (serves : a.Serves agent ok)
    (h : InStep core (fun r state => a.HasRun r state ∨ rest r state)) (iso : String)
    (still : ∀ m, ok id m → (f m).1.changed = false →
      RunMachine.runState (f m).2 = RunMachine.runState m) :
    InStep (core.applyAll (a.withExisting iso id f).1)
      (fun r state => (a.withExisting iso id f).2.HasRun r state ∨ rest r state) := by
  cases found : a.sessions.lookup id with
  | none =>
    simp only [AdapterCore.withExisting, found]
    exact h
  | some t =>
    rw [AdapterCore.withExisting_of_some found]
    have told := ReporterCore.told_commandsFor h.tended iso (f t.machine).1
      { t with machine := (f t.machine).2 } (LawfulRunMachine.runId ..)
    rw [LawfulRunMachine.state] at told
    have moved : AdapterCore.HasRun
        { a with sessions := a.sessions.insert id { t with machine := (f t.machine).2 } }
        t.runId (RunMachine.runState (f t.machine).2) :=
      ⟨id, _, AList.lookup_insert .., rfl, rfl⟩
    refine h.told told ⟨_, Or.inl moved⟩ ?_ ?_
    · intro state changed
      split at changed
      · rw [Option.some.injEq] at changed
        exact Or.inl (changed ▸ moved)
      · cases changed
    · rintro r state unmoved (⟨id', s, there, rfl, rfl⟩ | other)
      · by_cases same : id' = id
        · subst same
          cases found.symm.trans there
          have unchanged : (f t.machine).1.changed = false := by
            rcases unmoved with own | silent
            · exact absurd rfl own
            · split at silent
              · cases silent
              · simpa using ‹¬ (f t.machine).1.changed = true›
          rw [← still t.machine (serves.machines _ t found) unchanged]
          exact Or.inl moved
        · exact Or.inl ⟨id', s, by rwa [AList.lookup_insert_ne same], rfl, rfl⟩
      · exact Or.inr other

end Moves

/-! ## What each machine keeps -/

/-- The state is left alone by a step that reports no change. -/
def Still (state : State) (core : Core) (t : Transition) : Prop :=
  t.changed = false → core.state = state

/-- A run that ends up in a state counts as changed unless it was there. -/
theorem still_of_entered {before core : Core} {flag liveness resolved : Bool}
    (changed : flag = false → before.state = core.state) :
    Still before.state core (core.transition flag resolved liveness) :=
  fun still => (changed still).symm

/-- A step that does nothing leaves the state. -/
theorem still_noOp {before core : Core} (same : core.state = before.state) (liveness : Bool) :
    Still before.state core (core.noOp liveness) := fun _ => same

/-- A hook that tells of no change leaves the state, in each of the machines. -/
theorem ClaudeStateMachine.apply_still (m : ClaudeStateMachine) (ev : ClaudeHookEvent) :
    Still m.core.state (m.apply ev).2.core (m.apply ev).1 := by
  have noted : (m.absorb ev).core.state = m.core.state := Core.note_state ..
  unfold ClaudeStateMachine.apply
  split
  · exact still_noOp rfl false
  · dsimp only
    split
    case h_1 | h_2 => exact still_of_entered (by simp [noted, Core.enterWorking])
    case h_3 =>
      split
      · exact still_noOp noted true
      · exact still_of_entered (by simp [noted, Core.setDone])
    case h_4 => exact still_of_entered (by simp [noted, Core.setDead])
    case h_5 =>
      split
      · exact fun still => by cases still
      · exact still_noOp noted false
    all_goals exact still_noOp noted _

theorem CodexStateMachine.resume_still (m : CodexStateMachine) :
    Still m.core.state m.resume.2.core m.resume.1 := by
  refine still_of_entered ?_
  simp +contextual [resume, Core.enterWorking]

theorem CodexStateMachine.apply_still (m : CodexStateMachine) (ev : CodexHookEvent) :
    Still m.core.state (m.apply ev).2.core (m.apply ev).1 := by
  have noted : (m.absorb ev).core.state = m.core.state := Core.note_state ..
  unfold CodexStateMachine.apply
  split
  · exact still_noOp rfl false
  · dsimp only
    split
    case h_1 | h_2 => exact noted ▸ resume_still (m.absorb ev)
    case h_3 => exact fun still => by cases still
    case h_4 =>
      split
      · exact noted ▸ resume_still (m.absorb ev)
      · refine noted ▸ still_of_entered ?_
        simp +contextual [Core.setDone]
    all_goals exact still_noOp noted _

theorem ClaudeInferMachine.resume_still (m : ClaudeInferMachine) :
    Still m.core.state m.resume.2.core m.resume.1 := by
  refine still_of_entered ?_
  simp +contextual [resume, clearInference, Core.enterWorking]

theorem ClaudeInferMachine.respond_still (m : ClaudeInferMachine) (e : InferEvent) :
    Still m.core.state (m.respond e).2.core (m.respond e).1 := by
  cases e with
  | hook ev nowMs =>
    have noted : (m.core.note ev.cwd ev.toolName).state = m.core.state := Core.note_state ..
    simp only [respond, apply]
    split
    · exact still_noOp rfl false
    · split
      case h_1 | h_2 =>
        exact noted ▸ resume_still { m with core := m.core.note ev.cwd ev.toolName }
      case h_3 =>
        split
        · exact noted ▸ resume_still { m with core := m.core.note ev.cwd ev.toolName }
        · refine noted ▸ still_of_entered ?_
          simp +contextual [clearInference, Core.setDone]
      case h_4 => exact still_of_entered (by simp [Core.setDead])
      case h_5 =>
        split
        · exact fun still => by cases still
        · exact still_noOp noted false
      case h_6 =>
        split
        · exact fun still => by cases still
        · exact still_noOp noted true
      all_goals exact still_noOp noted _
  | tick nowMs =>
    simp only [respond, tick]
    split
    · exact fun still => by cases still
    · exact still_noOp rfl false
  | corroborate verdict =>
    simp only [respond, corroborate]
    split
    · split
      · exact fun still => by cases still
      · exact still_noOp rfl false
    all_goals exact still_noOp rfl false

/-- An approval is pending only while the thread waits. -/
theorem CodexStateMachine.apply_pending (m : CodexStateMachine) (ev : CodexHookEvent)
    (pending : m.core.pendingApproval = true → m.core.state = .waiting) :
    (m.apply ev).2.core.pendingApproval = true → (m.apply ev).2.core.state = .waiting := by
  have noted : (m.absorb ev).core.pendingApproval = true → (m.absorb ev).core.state = .waiting := by
    simpa [absorb] using pending
  unfold CodexStateMachine.apply
  split
  · exact pending
  · dsimp only
    split
    case h_1 | h_2 => exact fun h => by cases h
    case h_3 => exact fun _ => rfl
    case h_4 => split <;> exact fun h => by cases h
    all_goals exact noted

/-! ## The shell -/

/-- Some machine of the receiver feeds the run and is in a state. -/
def Feeds (claude : AdapterCore ClaudeStateMachine) (infer : AdapterCore ClaudeInferMachine)
    (codex : AdapterCore CodexStateMachine) (r : String) (state : State) : Prop :=
  claude.HasRun r state ∨ infer.HasRun r state ∨ codex.HasRun r state

/-- The adapters serve their agents, the two of Claude see the same sessions, and the core is in
step with all of them. -/
structure Matched (claude : AdapterCore ClaudeStateMachine)
    (infer : AdapterCore ClaudeInferMachine) (codex : AdapterCore CodexStateMachine)
    (core : ReporterCore) : Prop where
  hooks : claude.Serves "claude" (fun id m => m.core.nativeId = id ∧ m.core.state ≠ .waiting)
  inferring : infer.Serves "claude" (fun id m => m.core.nativeId = id ∧ m.core.Honest ∧
    ∃ p, m.InPhase p)
  threads : codex.Serves "codex" (fun id m => m.core.nativeId = id ∧ m.core.Honest ∧
    (m.core.pendingApproval = true → m.core.state = .waiting))
  counted : claude.runCounter = infer.runCounter
  paired : ∀ id, (claude.sessions.lookup id).map (fun s => s.runId) =
    (infer.sessions.lookup id).map (fun s => s.runId)
  inStep : InStep core (Feeds claude infer codex)

namespace Matched

variable {claude : AdapterCore ClaudeStateMachine} {infer : AdapterCore ClaudeInferMachine}
  {codex : AdapterCore CodexStateMachine} {core : ReporterCore}

theorem new (config : ReporterConfig) :
    Matched (.new "claude") (.new "claude") (.new "codex") (.new config) where
  hooks := AdapterCore.serves_new ..
  inferring := AdapterCore.serves_new ..
  threads := AdapterCore.serves_new ..
  counted := rfl
  paired := by simp [AdapterCore.new]
  inStep := InStep.new ..

/-- A session is seen for the first time, or again. -/
theorem enroll (h : Matched claude infer codex core) (id : String) (debounceMs : Nat) :
    Matched (claude.ensure id (.new id)).2 (infer.ensure id (.withDebounceMs id debounceMs)).2
      codex core where
  hooks := h.hooks.ensure _ _ ⟨rfl, State.noConfusion⟩
  inferring := h.inferring.ensure _ _ ⟨rfl, Core.honest_new id, .quiet, rfl, rfl, State.noConfusion⟩
  threads := h.threads
  counted := by
    have paired := h.paired id
    rcases claude.ensure_cases id (.new id) with ⟨s, there, eq⟩ | ⟨absent, eq⟩ <;>
      rcases infer.ensure_cases id (.withDebounceMs id debounceMs) with ⟨t, there', eq'⟩ |
        ⟨absent', eq'⟩
    · rw [eq, eq']
      exact h.counted
    · simp [there, absent'] at paired
    · simp [absent, there'] at paired
    · rw [eq, eq', h.counted]
  paired id' := by
    have paired := h.paired id
    rcases claude.ensure_cases id (.new id) with ⟨s, there, eq⟩ | ⟨absent, eq⟩ <;>
      rcases infer.ensure_cases id (.withDebounceMs id debounceMs) with ⟨t, there', eq'⟩ |
        ⟨absent', eq'⟩
    · rw [eq, eq']
      exact h.paired id'
    · simp [there, absent'] at paired
    · simp [absent, there'] at paired
    · rw [eq, eq', h.counted, h.hooks.named, h.inferring.named]
      by_cases same : id' = id
      · subst same
        simp
      · simpa [AList.lookup_insert_ne same] using h.paired id'
  inStep := by
    refine h.inStep.mono _ ?_
    rintro r state (fed | fed | fed)
    · exact Or.inl (fed.ensure ..)
    · exact Or.inr (Or.inl (fed.ensure ..))
    · exact Or.inr (Or.inr fed)

/-- The machine of the hooks moves. -/
theorem claude_moves (h : Matched claude infer codex core) (iso : String) (ev : ClaudeHookEvent) :
    Matched (claude.withExisting iso ev.sessionId (fun m => m.apply ev)).2 infer codex
      (core.applyAll (claude.withExisting iso ev.sessionId (fun m => m.apply ev)).1) where
  hooks := by
    refine h.hooks.withExisting iso ?_
    rintro m ⟨own, awake⟩
    obtain ⟨edge, move, allowed⟩ := m.apply_moves ev
    refine ⟨move.nativeId.trans own, move.not_waiting awake ?_⟩
    rintro confidence rfl
    exact allowed
  inferring := h.inferring
  threads := h.threads
  counted := by
    rw [← h.counted]
    unfold AdapterCore.withExisting
    split <;> rfl
  paired id := by
    rw [AdapterCore.runId_withExisting]
    exact h.paired id
  inStep := InStep.move h.hooks h.inStep iso (fun m _ => m.apply_still ev)

/-- The inferring machine of a session moves. -/
theorem infer_moves (h : Matched claude infer codex core) (iso id : String) (e : InferEvent) :
    Matched claude (infer.withExisting iso id (fun m => m.respond e)).2 codex
      (core.applyAll (infer.withExisting iso id (fun m => m.respond e)).1) where
  hooks := h.hooks
  inferring := by
    refine h.inferring.withExisting iso ?_
    rintro m ⟨own, honest, p, phase⟩
    obtain ⟨edge, move, -⟩ := m.step_moves e
    exact ⟨move.nativeId.trans own, honest.moves move, _, ClaudeInferMachine.step_inPhase phase e⟩
  threads := h.threads
  counted := by
    rw [h.counted]
    unfold AdapterCore.withExisting
    split <;> rfl
  paired id' := by
    rw [AdapterCore.runId_withExisting]
    exact h.paired id'
  inStep := by
    have swapped := h.inStep.mono (fun r state => infer.HasRun r state ∨
      claude.HasRun r state ∨ codex.HasRun r state) (fun r state => or_left_comm.mp)
    exact (InStep.move h.inferring swapped iso (fun m _ => m.respond_still e)).mono _
      (fun r state => or_left_comm.mp)

/-- A Codex thread is seen, for the first time or again, and its machine moves. -/
theorem codex_moves (h : Matched claude infer codex core) (iso : String) (ev : CodexHookEvent) :
    Matched claude infer
      ((codex.ensure ev.threadId (.new ev.threadId)).2.withExisting iso ev.threadId
        (fun m => m.apply ev)).2
      (core.applyAll ((codex.ensure ev.threadId (.new ev.threadId)).2.withExisting iso ev.threadId
        (fun m => m.apply ev)).1) := by
  have serves : (codex.ensure ev.threadId (.new ev.threadId)).2.Serves "codex"
      (fun id m => m.core.nativeId = id ∧ m.core.Honest ∧
        (m.core.pendingApproval = true → m.core.state = .waiting)) :=
    h.threads.ensure _ _ ⟨rfl, Core.honest_new _, Bool.noConfusion⟩
  refine ⟨h.hooks, h.inferring, serves.withExisting iso ?_, h.counted, h.paired, ?_⟩
  · rintro m ⟨own, honest, pending⟩
    obtain ⟨edge, move, -⟩ := m.apply_moves ev
    exact ⟨move.nativeId.trans own, honest.moves move, m.apply_pending ev pending⟩
  · have seen := h.inStep.mono (fun r state =>
      (codex.ensure ev.threadId (.new ev.threadId)).2.HasRun r state ∨ claude.HasRun r state ∨
        infer.HasRun r state) (by
      rintro r state (fed | fed | fed)
      · exact Or.inr (Or.inl fed)
      · exact Or.inr (Or.inr fed)
      · exact Or.inl (fed.ensure ..))
    refine (InStep.move serves seen iso (fun m _ => m.apply_still ev)).mono _ ?_
    rintro r state (fed | fed | fed)
    · exact Or.inr (Or.inr fed)
    · exact Or.inl fed
    · exact Or.inr (Or.inl fed)

end Matched

/-- The inferring machines have been moved one after the other, each move being allowed. -/
inductive Driven (ok : String → InferEvent → Prop) (a : AdapterCore ClaudeInferMachine) :
    List ReporterCommand → AdapterCore ClaudeInferMachine → Prop where
  | rest : Driven ok a [] a
  | move {cmds : List ReporterCommand} {b : AdapterCore ClaudeInferMachine} (iso id : String)
      (e : InferEvent) (before : Driven ok a cmds b) (allowed : ok id e) :
      Driven ok a (cmds ++ (b.withExisting iso id (fun m => m.respond e)).1)
        (b.withExisting iso id (fun m => m.respond e)).2

/-- Commands are applied one after the other. -/
theorem ReporterCore.applyAll_append (core : ReporterCore) (cmds more : List ReporterCommand) :
    core.applyAll (cmds ++ more) = (core.applyAll cmds).applyAll more := List.foldl_append ..

/-- The commands of an inferring adapter keep the core matched to it. -/
theorem Matched.driven {claude : AdapterCore ClaudeStateMachine}
    {infer infer' : AdapterCore ClaudeInferMachine} {codex : AdapterCore CodexStateMachine}
    {core : ReporterCore} {ok : String → InferEvent → Prop} {cmds : List ReporterCommand}
    (h : Matched claude infer codex core) (driven : Driven ok infer cmds infer') :
    Matched claude infer' codex (core.applyAll cmds) := by
  induction driven with
  | rest => exact h
  | move iso id e before allowed ih =>
    rw [ReporterCore.applyAll_append]
    exact ih.infer_moves iso id e

/-- A weaker condition on the events is met as well. -/
theorem Driven.mono {ok ok' : String → InferEvent → Prop}
    (weaker : ∀ id e, ok id e → ok' id e) {a b : AdapterCore ClaudeInferMachine}
    {cmds : List ReporterCommand} (h : Driven ok a cmds b) : Driven ok' a cmds b := by
  induction h with
  | rest => exact .rest
  | move iso id e before allowed ih => exact .move iso id e ih (weaker id e allowed)

namespace Receiver

/-- A session whose call has been pending when the tick came, or any session at the tick itself. -/
def MayMove (receiver : Receiver) (id : String) (e : InferEvent) : Prop :=
  (∃ nowMs, e = .tick nowMs) ∨
    ∃ t, receiver.infer.core.sessions.lookup id = some t ∧ t.machine.armedSince.isSome

/-- What is about to fire is armed. -/
theorem armed_of_mem_pendingFires {infer : ClaudeInferAdapter}
    {iter : IterOrder (Sigma fun _ : String => AdapterSession ClaudeInferMachine)} {nowMs : Nat}
    {pending : String × Option String} (h : pending ∈ infer.pendingFires iter nowMs) :
    ∃ t, infer.core.sessions.lookup pending.1 = some t ∧ t.machine.armedSince.isSome := by
  simp only [ClaudeInferAdapter.pendingFires, List.mem_map, List.mem_filter,
    (iter.isPerm infer.core.sessions.entries).mem_iff] at h
  obtain ⟨⟨id, t⟩, ⟨entry, elapsed⟩, rfl⟩ := h
  refine ⟨t, AList.mem_lookup_iff.mpr entry, ?_⟩
  cases armed : t.machine.armedSince with
  | some since => rfl
  | none => simp [ClaudeInferMachine.debounceElapsed, armed] at elapsed

/-- What a tick at a time feeds the machines: itself, and verdicts to those that are armed. -/
def Ticked (receiver : Receiver) (nowMs : Nat) (id : String) (e : InferEvent) : Prop :=
  e = .tick nowMs ∨ ∃ verdict t, e = .corroborate verdict ∧
    receiver.infer.core.sessions.lookup id = some t ∧ t.machine.armedSince.isSome

/-- A tick moves inferring machines by ticks and verdicts, and nothing else. -/
theorem tickAt_ticked (receiver : Receiver) (fromStr : String → Option Json)
    (readToString : String → Option String)
    (iter : IterOrder (Sigma fun _ : String => AdapterSession ClaudeInferMachine))
    (vetoIso iso : String → String) (nowMs : Nat) :
    (receiver.tickAt fromStr readToString iter vetoIso iso nowMs).2.claude = receiver.claude ∧
    (receiver.tickAt fromStr readToString iter vetoIso iso nowMs).2.codex = receiver.codex ∧
    Driven (receiver.Ticked nowMs) receiver.infer.core
      (receiver.tickAt fromStr readToString iter vetoIso iso nowMs).1
      (receiver.tickAt fromStr readToString iter vetoIso iso nowMs).2.infer.core := by
  have vetoes : ∀ (pending : List (String × Option String))
      (acc : List ReporterCommand × ClaudeInferAdapter),
      (∀ p ∈ pending, ∃ t, receiver.infer.core.sessions.lookup p.1 = some t ∧
        t.machine.armedSince.isSome) →
      Driven (receiver.Ticked nowMs) receiver.infer.core acc.1 acc.2.core →
      Driven (receiver.Ticked nowMs) receiver.infer.core
        (pending.foldl (vetoOne fromStr readToString vetoIso) acc).1
        (pending.foldl (vetoOne fromStr readToString vetoIso) acc).2.core := by
    intro pending
    induction pending with
    | nil => exact fun _ _ h => h
    | cons p pending ih =>
      intro acc armed h
      rw [List.foldl_cons]
      refine ih _ (fun q hq => armed q (List.mem_cons_of_mem _ hq)) ?_
      unfold vetoOne
      split
      · simp only [ClaudeInferAdapter.corroborateBlob]
        split
        · simpa using h
        · obtain ⟨t, there, since⟩ := armed p (by simp)
          exact .move _ _ (.corroborate _) h (Or.inr ⟨_, t, rfl, there, since⟩)
      · exact h
  have ticks : ∀ (ids : List String) (acc : List ReporterCommand × ClaudeInferAdapter)
      (cmds : List ReporterCommand),
      Driven (receiver.Ticked nowMs) receiver.infer.core (cmds ++ acc.1) acc.2.core →
      Driven (receiver.Ticked nowMs) receiver.infer.core
        (cmds ++ (ids.foldl (ClaudeInferAdapter.tickOne iso nowMs) acc).1)
        (ids.foldl (ClaudeInferAdapter.tickOne iso nowMs) acc).2.core := by
    intro ids
    induction ids with
    | nil => exact fun _ _ h => h
    | cons id ids ih =>
      intro acc cmds h
      rw [List.foldl_cons]
      refine ih _ cmds ?_
      have moved := Driven.move (iso id) id (.tick nowMs) h (Or.inl rfl)
      rwa [List.append_assoc] at moved
  refine ⟨rfl, rfl, ?_⟩
  have vetoed := vetoes (receiver.infer.pendingFires iter nowMs) ([], receiver.infer)
    (fun p hp => armed_of_mem_pendingFires hp) .rest
  refine ticks _ ([], _) _ ?_
  rwa [List.append_nil]

/-- A tick moves inferring machines and nothing else. -/
theorem tickAt_driven (receiver : Receiver) (fromStr : String → Option Json)
    (readToString : String → Option String)
    (iter : IterOrder (Sigma fun _ : String => AdapterSession ClaudeInferMachine))
    (vetoIso iso : String → String) (nowMs : Nat) :
    (receiver.tickAt fromStr readToString iter vetoIso iso nowMs).2.claude = receiver.claude ∧
    (receiver.tickAt fromStr readToString iter vetoIso iso nowMs).2.codex = receiver.codex ∧
    Driven receiver.MayMove receiver.infer.core
      (receiver.tickAt fromStr readToString iter vetoIso iso nowMs).1
      (receiver.tickAt fromStr readToString iter vetoIso iso nowMs).2.infer.core := by
  obtain ⟨claude, codex, driven⟩ :=
    receiver.tickAt_ticked fromStr readToString iter vetoIso iso nowMs
  refine ⟨claude, codex, driven.mono ?_⟩
  rintro id e (tick | ⟨verdict, t, -, there, since⟩)
  · exact Or.inl ⟨nowMs, tick⟩
  · exact Or.inr ⟨t, there, since⟩

end Receiver

namespace Shell

/-- The shell's machines and its core match. -/
def Matched (shell : Shell) : Prop :=
  VsFleet.Matched shell.receiver.claude.core shell.receiver.infer.core shell.receiver.codex.core
    shell.core

/-- At the start there is no run. -/
theorem matched_new (config : ReporterConfig) : (new config).Matched := VsFleet.Matched.new config

/-- A hook of Claude that was understood. -/
theorem step_claude {fromStr : String → Option Json} {line body : String} {ev : ClaudeHookEvent}
    (shell : Shell) (iso inferIso : String) (nowMs : Nat)
    (framed : parseFrame line = some (.claude, body))
    (parsed : ClaudeHookEvent.parse fromStr body = .ok ev) :
    ∃ seen : AdapterCore ClaudeStateMachine × AdapterCore ClaudeInferMachine,
      seen.1 = (shell.receiver.claude.core.ensure ev.sessionId (.new ev.sessionId)).2 ∧
      seen.2 = (shell.receiver.infer.core.ensure ev.sessionId
        (.withDebounceMs ev.sessionId shell.receiver.infer.debounceMs)).2 ∧
      (shell.step fromStr (.frame iso inferIso line nowMs)).receiver.claude.core =
        (seen.1.withExisting iso ev.sessionId (fun m => m.apply ev)).2 ∧
      (shell.step fromStr (.frame iso inferIso line nowMs)).receiver.infer.core =
        (seen.2.withExisting inferIso ev.sessionId (fun m => m.respond (.hook ev nowMs))).2 ∧
      (shell.step fromStr (.frame iso inferIso line nowMs)).receiver.codex = shell.receiver.codex ∧
      (shell.step fromStr (.frame iso inferIso line nowMs)).core =
        (shell.core.applyAll (seen.1.withExisting iso ev.sessionId (fun m => m.apply ev)).1).applyAll
          (seen.2.withExisting inferIso ev.sessionId (fun m => m.respond (.hook ev nowMs))).1 := by
  refine ⟨(_, _), rfl, rfl, ?_⟩
  simp only [step, Receiver.processAt, framed, Receiver.dispatch, parsed, ClaudeAdapter.ingest,
    ClaudeInferAdapter.ingest, AdapterCore.applyAndCommands_eq, ReporterCore.applyAll_append]
  refine ⟨?_, ?_, ?_, ?_⟩ <;> trivial

/-- A hook of Codex that was understood. -/
theorem step_codex {fromStr : String → Option Json} {line body : String} {ev : CodexHookEvent}
    (shell : Shell) (iso inferIso : String) (nowMs : Nat)
    (framed : parseFrame line = some (.codex, body))
    (parsed : CodexHookEvent.parse fromStr body = .ok ev) :
    ∃ seen : AdapterCore CodexStateMachine,
      seen = (shell.receiver.codex.core.ensure ev.threadId (.new ev.threadId)).2 ∧
      (shell.step fromStr (.frame iso inferIso line nowMs)).receiver.claude =
        shell.receiver.claude ∧
      (shell.step fromStr (.frame iso inferIso line nowMs)).receiver.infer = shell.receiver.infer ∧
      (shell.step fromStr (.frame iso inferIso line nowMs)).receiver.codex.core =
        (seen.withExisting iso ev.threadId (fun m => m.apply ev)).2 ∧
      (shell.step fromStr (.frame iso inferIso line nowMs)).core =
        shell.core.applyAll (seen.withExisting iso ev.threadId (fun m => m.apply ev)).1 := by
  refine ⟨_, rfl, ?_⟩
  simp only [step, Receiver.processAt, framed, Receiver.dispatch, parsed, CodexAdapter.ingest,
    AdapterCore.applyAndCommands_eq]
  refine ⟨?_, ?_, ?_, ?_⟩ <;> trivial

/-- A frame that is not understood moves nothing. -/
theorem step_dropped {fromStr : String → Option Json} {line : String} (shell : Shell)
    (iso inferIso : String) (nowMs : Nat)
    (claude : ∀ body ev, parseFrame line = some (.claude, body) →
      ClaudeHookEvent.parse fromStr body ≠ .ok ev)
    (codex : ∀ body ev, parseFrame line = some (.codex, body) →
      CodexHookEvent.parse fromStr body ≠ .ok ev) :
    (shell.step fromStr (.frame iso inferIso line nowMs)).receiver.claude = shell.receiver.claude ∧
    (shell.step fromStr (.frame iso inferIso line nowMs)).receiver.infer = shell.receiver.infer ∧
    (shell.step fromStr (.frame iso inferIso line nowMs)).receiver.codex = shell.receiver.codex ∧
    (shell.step fromStr (.frame iso inferIso line nowMs)).core = shell.core := by
  simp only [step, Receiver.processAt]
  split
  · rename_i agent body framed
    unfold Receiver.dispatch
    split
    · split
      · rename_i ev parsed
        exact absurd parsed (claude body ev framed)
      · exact ⟨rfl, rfl, rfl, rfl⟩
    · split
      · rename_i ev parsed
        exact absurd parsed (codex body ev framed)
      · exact ⟨rfl, rfl, rfl, rfl⟩
  · exact ⟨rfl, rfl, rfl, rfl⟩

/-- Every step keeps the core matched to the adapters. -/
theorem Matched.step {shell : Shell} (h : shell.Matched) (fromStr : String → Option Json)
    (s : Step) : (shell.step fromStr s).Matched := by
  cases s with
  | frame iso inferIso line nowMs =>
    by_cases claude : ∃ body ev, parseFrame line = some (.claude, body) ∧
        ClaudeHookEvent.parse fromStr body = .ok ev
    · obtain ⟨body, ev, framed, parsed⟩ := claude
      obtain ⟨⟨hooks, inferring⟩, rfl, rfl, hooks', inferring', codex, core⟩ :=
        step_claude shell iso inferIso nowMs framed parsed
      unfold Shell.Matched
      rw [hooks', inferring', codex, core]
      have seen := VsFleet.Matched.enroll h ev.sessionId shell.receiver.infer.debounceMs
      exact (seen.claude_moves iso ev).infer_moves inferIso ev.sessionId (.hook ev nowMs)
    · by_cases codex : ∃ body ev, parseFrame line = some (.codex, body) ∧
          CodexHookEvent.parse fromStr body = .ok ev
      · obtain ⟨body, ev, framed, parsed⟩ := codex
        obtain ⟨threads, rfl, hooks, inferring, threads', core⟩ :=
          step_codex shell iso inferIso nowMs framed parsed
        unfold Shell.Matched
        rw [hooks, inferring, threads', core]
        exact VsFleet.Matched.codex_moves h iso ev
      · have dropped := step_dropped shell iso inferIso nowMs
          (fun body ev framed parsed => claude ⟨body, ev, framed, parsed⟩)
          (fun body ev framed parsed => codex ⟨body, ev, framed, parsed⟩)
        unfold Shell.Matched
        rw [dropped.1, dropped.2.1, dropped.2.2.1, dropped.2.2.2]
        exact h
  | tick readToString iter vetoIso iso nowMs =>
    obtain ⟨claude, codex, driven⟩ :=
      shell.receiver.tickAt_driven fromStr readToString iter vetoIso iso nowMs
    have moved := VsFleet.Matched.driven h driven
    unfold Shell.Matched
    simp only [Shell.step]
    rw [claude, codex]
    exact moved
  | reap elapsed iter iso =>
    exact ⟨h.hooks, h.inferring, h.threads, h.counted, h.paired, h.inStep.reap elapsed iter iso⟩

/-- Whatever happens, the machines and the core of a shell match. -/
theorem matched_foldl (fromStr : String → Option Json) (config : ReporterConfig)
    (steps : List Step) : (steps.foldl (Shell.step fromStr) (new config)).Matched :=
  foldl_invariant Shell.Matched (fun _ s h => Matched.step h fromStr s) steps _ (matched_new config)

end Shell

end VsFleet
