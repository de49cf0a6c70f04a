import VsFleet.Reporter.Proofs.ShellSteps

/-!
# A waiting run and silence

An agent that waits for its user sends nothing. The ticks of the inference leave the waiting run
alone, and with it the tracker of the run, so that it depends on the clock of the reaping alone when
the run is taken for dead.
-/

namespace VsFleet

/-- What a step of one machine sends is about the run of its session alone. -/
theorem AdapterCore.told_withExisting {M : Type} [RunMachine M] [LawfulRunMachine M]
    {core : ReporterCore} (h : core.Tended) (a : AdapterCore M) (iso id : String)
    (f : M → Transition × M) :
    core.applyAll (a.withExisting iso id f).1 = core ∨
      ∃ t changed, a.sessions.lookup id = some t ∧
        core.Told t.runId changed (core.applyAll (a.withExisting iso id f).1) := by
  cases found : a.sessions.lookup id with
  | none =>
    simp only [withExisting, found]
    exact Or.inl rfl
  | some t =>
    rw [withExisting_of_some found]
    exact Or.inr ⟨t, _, rfl, ReporterCore.told_commandsFor h iso (f t.machine).1
      { t with machine := (f t.machine).2 } (LawfulRunMachine.runId ..)⟩

theorem ReporterCore.apply_config (core : ReporterCore) (iso : String) (cmd : ReporterCommand) :
    (core.apply iso cmd).2.config = core.config := by
  cases cmd <;> rfl

theorem ReporterCore.applyAll_config (core : ReporterCore) (cmds : List ReporterCommand) :
    (core.applyAll cmds).config = core.config := by
  refine foldl_invariant (fun c : ReporterCore => c.config = core.config) ?_ cmds core rfl
  intro c cmd same
  rw [apply_config, same]

/-- The inferring machines that a tick may move send nothing about a run that waits. -/
theorem Matched.driven_waiting {claude : AdapterCore ClaudeStateMachine}
    {infer infer' : AdapterCore ClaudeInferMachine} {codex : AdapterCore CodexStateMachine}
    {core : ReporterCore} {ok : String → InferEvent → Prop} {cmds : List ReporterCommand}
    {r : String} (h : Matched claude infer codex core) (driven : Driven ok infer cmds infer')
    (allowed : ∀ id e, ok id e → (∃ nowMs, e = .tick nowMs) ∨
      ∃ t, infer.sessions.lookup id = some t ∧ t.machine.armedSince.isSome)
    (fed : infer.HasRun r .waiting ∨ codex.HasRun r .waiting) :
    (core.applyAll cmds).knownRuns.lookup r = core.knownRuns.lookup r ∧
      (core.applyAll cmds).liveness.lookup r = core.liveness.lookup r ∧
      (infer'.HasRun r .waiting ∨ codex.HasRun r .waiting) := by
  rcases fed with ⟨own, t, found, runId, waits⟩ | fed
  · -- the machine of the session has fired, so that no tick moves it
    obtain ⟨-, -, p, phase⟩ := h.inferring.machines own t found
    have fired : p = .fired := by
      cases p with
      | quiet => exact absurd waits phase.2.2
      | armed since => cases phase.2.2.symm.trans waits
      | fired => rfl
    subst fired
    suffices (core.applyAll cmds).knownRuns.lookup r = core.knownRuns.lookup r ∧
        (core.applyAll cmds).liveness.lookup r = core.liveness.lookup r ∧
        infer'.sessions.lookup own = some t from
      ⟨this.1, this.2.1, Or.inl ⟨own, t, this.2.2, runId, waits⟩⟩
    induction driven with
    | rest => exact ⟨rfl, rfl, found⟩
    | @move cmds b iso id e before may ih =>
      obtain ⟨known, tracker, there⟩ := ih
      have matched := h.driven before
      rw [ReporterCore.applyAll_append]
      by_cases same : id = own
      · subst same
        rcases allowed id e may with ⟨nowMs, rfl⟩ | ⟨t', there', armed⟩
        · have idle : t.machine.respond (.tick nowMs) = (t.machine.core.noOp false, t.machine) := by
            simp [ClaudeInferMachine.respond, ClaudeInferMachine.tick,
              ClaudeInferMachine.debounceElapsed, phase.1]
          rw [AdapterCore.withExisting_of_some there, idle]
          exact ⟨known, tracker, AList.lookup_insert ..⟩
        · cases found.symm.trans there'
          rw [phase.1] at armed
          cases armed
      · have kept : (b.withExisting iso id (fun m => m.respond e)).2.sessions.lookup own =
            some t := by
          unfold AdapterCore.withExisting
          split
          · exact there
          · rwa [AList.lookup_insert_ne (Ne.symm same)]
        rcases AdapterCore.told_withExisting matched.inStep.tended b iso id
          (fun m => m.respond e) with none | ⟨t', changed, there', told⟩
        · rw [none]
          exact ⟨known, tracker, kept⟩
        · have other : r ≠ t'.runId := by
            obtain ⟨n, minted⟩ := matched.inferring.minted own t there
            obtain ⟨n', minted'⟩ := matched.inferring.minted id t' there'
            rintro rfl
            rw [minted, minted'] at runId
            exact same (AdapterCore.mint_injective runId).symm
          exact ⟨(told.known r other).trans known, (told.tracker r other).trans tracker, kept⟩
  · have stays := fed
    obtain ⟨own, s, found, runId, -⟩ := stays
    obtain ⟨n, minted⟩ := h.threads.minted own s found
    suffices (core.applyAll cmds).knownRuns.lookup r = core.knownRuns.lookup r ∧
        (core.applyAll cmds).liveness.lookup r = core.liveness.lookup r from
      ⟨this.1, this.2, Or.inr fed⟩
    induction driven with
    | rest => exact ⟨rfl, rfl⟩
    | @move cmds b iso id e before may ih =>
      have matched := h.driven before
      rw [ReporterCore.applyAll_append]
      rcases AdapterCore.told_withExisting matched.inStep.tended b iso id
        (fun m => m.respond e) with none | ⟨t', changed, there', told⟩
      · rw [none]
        exact ih
      · have other : r ≠ t'.runId := by
          obtain ⟨n', minted'⟩ := matched.inferring.minted id t' there'
          rintro rfl
          rw [minted, minted'] at runId
          exact AdapterCore.mint_claude_ne_codex _ _ _ _ runId.symm
        exact ⟨(told.known r other).trans ih.1, (told.tracker r other).trans ih.2⟩

namespace Shell

theorem step_config {fromStr : String → Option Json} {shell : Shell} (h : shell.Matched)
    (s : Step) :
    (shell.step fromStr s).core.config = shell.core.config := by
  cases s with
  | frame iso inferIso line nowMs => exact ReporterCore.applyAll_config ..
  | tick readToString iter vetoIso iso nowMs => exact ReporterCore.applyAll_config ..
  | reap elapsed iter iso =>
    exact (ReporterCore.tick_reaped h.inStep.tended.indexed elapsed iter iso).config

theorem config_foldl (fromStr : String → Option Json) (config : ReporterConfig)
    (steps : List Step) :
    (steps.foldl (Shell.step fromStr) (new config)).core.config = config := by
  refine (foldl_invariant (fun shell => shell.Matched ∧ shell.core.config = config) ?_ steps
    (new config) ⟨matched_new config, rfl⟩).2
  rintro shell s ⟨h, same⟩
  exact ⟨h.step fromStr s, (step_config h s).trans same⟩

/-- A step that is no frame. -/
def Step.Silent : Step → Prop
  | .frame .. => False
  | _ => True

/-- The run waits for its user, and the tracker has stood still since its last sign of life. -/
structure Waits (shell : Shell) (r : String) (run : AgentRun) (t : LivenessTracker) : Prop where
  matched : shell.Matched
  known : shell.core.knownRuns.lookup r = some run
  waiting : run.state = .waiting
  tracker : shell.core.liveness.lookup r = some t

/-- A machine that waits feeds a run that is known to wait. -/
theorem Waits.fed {shell : Shell} {r : String} {run : AgentRun} {t : LivenessTracker}
    (h : shell.Waits r run t) :
    shell.receiver.infer.core.HasRun r .waiting ∨ shell.receiver.codex.core.HasRun r .waiting := by
  obtain ⟨run', known, fed⟩ := h.matched.inStep.agrees r (by rw [h.tracker]; rfl)
  cases known.symm.trans h.known
  rw [h.waiting] at fed
  rcases fed with ⟨id, s, found, -, waits⟩ | fed
  · exact absurd waits (h.matched.hooks.machines id s found).2
  · exact fed

/-- The silence that takes the run for dead: a reaping later than the window of its last sign of
life, where no exit was seen. -/
def Step.Ends (t : LivenessTracker) : Step → Prop
  | .reap elapsed _ _ => t.confirmedExit = false ∧ t.lastSeen + t.timeout < elapsed
  | _ => False

/-- The run is known as dead. -/
def KnownDead (shell : Shell) (r : String) : Prop :=
  ∃ run, shell.core.knownRuns.lookup r = some run ∧ run.state = .dead

variable {fromStr : String → Option Json} {shell : Shell} {r : String} {run : AgentRun}
  {t : LivenessTracker}

theorem Waits.not_knownDead (h : shell.Waits r run t) : ¬ shell.KnownDead r := by
  rintro ⟨run', known, dead⟩
  cases h.known.symm.trans known
  cases h.waiting.symm.trans dead

/-- A silent step leaves a waiting run alone or takes it for dead. -/
theorem Waits.step (h : shell.Waits r run t) {s : Step} (silent : s.Silent) :
    (¬ s.Ends t ∧ (shell.step fromStr s).Waits r run t) ∨
      (s.Ends t ∧ (shell.step fromStr s).KnownDead r) := by
  have matched := h.matched.step fromStr s
  cases s with
  | frame iso inferIso line nowMs => cases silent
  | tick readToString iter vetoIso iso nowMs =>
    obtain ⟨-, -, driven⟩ :=
      shell.receiver.tickAt_driven fromStr readToString iter vetoIso iso nowMs
    obtain ⟨known, tracker, -⟩ :=
      VsFleet.Matched.driven_waiting h.matched driven (fun _ _ may => may) h.fed
    exact Or.inl ⟨fun ends => ends, matched, known.trans h.known, h.waiting,
      tracker.trans h.tracker⟩
  | reap elapsed iter iso =>
    have tended := h.matched.inStep.tended
    have reaped := ReporterCore.tick_reaped tended.indexed elapsed iter iso
    have fresh := (tended.fresh r t h.tracker).2
    have advanced : (shell.core.advanceTo elapsed).now =
        if elapsed ≥ shell.core.now then elapsed else shell.core.now := by
      unfold ReporterCore.advanceTo
      split <;> rfl
    have found : (shell.core.advanceTo elapsed).liveness.lookup r = some t := by
      rw [ReporterCore.advanceTo_eq]
      exact h.tracker
    have overdue : r ∈ (shell.core.advanceTo elapsed).timedOut iter ↔
        t.confirmedExit = false ∧ t.lastSeen + t.timeout < elapsed := by
      rw [ReporterCore.mem_timedOut]
      constructor
      · rintro ⟨t', there, dead⟩
        cases found.symm.trans there
        unfold LivenessTracker.evaluate at dead
        split at dead
        · cases dead
        · rename_i alive
          have alive : t.confirmedExit = false := by simpa using alive
          have within := fresh alive
          split at dead
          · rename_i late
            rw [advanced] at late
            refine ⟨alive, ?_⟩
            split at late <;> omega
          · cases dead
      · rintro ⟨alive, late⟩
        have within := fresh alive
        have past : (shell.core.advanceTo elapsed).now - t.lastSeen > t.timeout := by
          rw [advanced]
          split <;> omega
        exact ⟨t, found, by simp [LivenessTracker.evaluate, alive, past]⟩
    by_cases ends : t.confirmedExit = false ∧ t.lastSeen + t.timeout < elapsed
    · exact Or.inr ⟨ends, reaped.dead r (overdue.mpr ends)⟩
    · have spared := mt overdue.mp ends
      refine Or.inl ⟨ends, matched, (reaped.other r spared).trans h.known, h.waiting, ?_⟩
      refine (reaped.tracker r).trans ?_
      rw [if_neg spared]
      exact h.tracker

/-- Over a silence a waiting run is never known as dead exactly where no step of it takes the run
for dead. -/
theorem Waits.silence (silence : List Step) : ∀ {shell : Shell}, shell.Waits r run t →
    (∀ s ∈ silence, s.Silent) →
    ((∀ k, ¬ ((silence.take k).foldl (Shell.step fromStr) shell).KnownDead r) ↔
      ∀ s ∈ silence, ¬ s.Ends t) := by
  induction silence with
  | nil =>
    intro shell h _
    simpa using h.not_knownDead
  | cons s silence ih =>
    intro shell h silent
    have next : (¬ s.Ends t ∧ (shell.step fromStr s).Waits r run t) ∨
        (s.Ends t ∧ (shell.step fromStr s).KnownDead r) := h.step (silent s (by simp))
    rcases next with ⟨spared, later⟩ | ⟨ends, dead⟩
    · have rest := ih later (fun x hx => silent x (List.mem_cons_of_mem _ hx))
      constructor
      · intro never x hx
        rcases List.mem_cons.mp hx with rfl | hx
        · exact spared
        · exact rest.mp (fun k => never (k + 1)) x hx
      · intro calm k
        cases k with
        | zero => exact h.not_knownDead
        | succ k => exact rest.mpr (fun x hx => calm x (List.mem_cons_of_mem _ hx)) k
    · refine iff_of_false (fun never => never 1 dead) (fun calm => ?_)
      exact calm s (by simp) ends

/-- A run that waits is not taken for dead by a silence exactly where its exit has been seen before,
or where no reaping of the silence comes later than thirty seconds after its last sign of life. -/
theorem survives_silence_iff (fromStr : String → Option Json) (sessionId : String)
    (steps silence : List Step) (silent : ∀ s ∈ silence, s.Silent) (r : String) (run : AgentRun)
    (known : (steps.foldl (Shell.step fromStr)
      (new (.new sessionId))).core.knownRuns.lookup r = some run)
    (waiting : run.state = .waiting) :
    (∀ k, ¬ ((silence.take k).foldl (Shell.step fromStr)
      (steps.foldl (Shell.step fromStr) (new (.new sessionId)))).KnownDead r) ↔
    ∃ t, (steps.foldl (Shell.step fromStr)
      (new (.new sessionId))).core.liveness.lookup r = some t ∧
      (t.confirmedExit = true ∨ ∀ elapsed iter iso, .reap elapsed iter iso ∈ silence →
        elapsed ≤ t.lastSeen + 30000) := by
  have matched := matched_foldl fromStr (.new sessionId) steps
  have tended := matched.inStep.tended
  have tracked := tended.alive r run known (by rw [waiting]; decide)
  obtain ⟨t, tracker⟩ := Option.isSome_iff_exists.mp tracked
  have window : t.timeout = 30000 := by
    rw [(tended.fresh r t tracker).1, config_foldl]
    rfl
  have waits : Waits _ r run t := ⟨matched, known, waiting, tracker⟩
  rw [waits.silence silence silent, tracker]
  simp only [Option.some.injEq, exists_eq_left']
  constructor
  · intro calm
    by_cases exited : t.confirmedExit = true
    · exact Or.inl exited
    · refine Or.inr (fun elapsed iter iso reaps => ?_)
      by_contra late
      refine calm _ reaps ⟨by simpa using exited, ?_⟩
      omega
  · rintro (exited | early) s hs ends
    · cases s with
      | reap elapsed iter iso => cases exited.symm.trans ends.1
      | frame iso inferIso line nowMs => exact ends
      | tick readToString iter vetoIso iso nowMs => exact ends
    · cases s with
      | reap elapsed iter iso =>
        have := early elapsed iter iso hs
        have := ends.2
        omega
      | frame iso inferIso line nowMs => exact ends
      | tick readToString iter vetoIso iso nowMs => exact ends

/-- A tool call of the session `s` that nothing follows, up to the end of its debounce, for worked
cases. -/
def unanswered : List Step :=
  [.frame "" "" "claude \x7b\"hook_event_name\":\"PreToolUse\",\"session_id\":\"s\"\x7d" 0,
    .tick (fun _ => none) (.asStored _) (fun _ => "") (fun _ => "") 1500]

/-- The user has thought about an approval for half a minute, and the agent is taken for dead. -/
theorem waiting_dead_of_silence :
    ((unanswered.foldl (Shell.step readPlain) (new (.new "w"))).core.knownRuns.lookup
      "claude:s:run-1").map (fun run => run.state) = some .waiting ∧
    (((unanswered ++ [Step.reap 30001 (.asStored _) (fun _ => "")]).foldl (Shell.step readPlain)
      (new (.new "w"))).core.knownRuns.lookup "claude:s:run-1").map (fun run => run.state) =
        some .dead := by decide

/-- A reaping right at the end of the half minute spares the run. -/
theorem survives_silence_iff_at_window :
    ∃ run, (unanswered.foldl (Shell.step readPlain) (new (.new "w"))).core.knownRuns.lookup
      "claude:s:run-1" = some run ∧
    ∀ k, ¬ (([.reap 30000 (.asStored _) (fun _ => "")].take k).foldl (Shell.step readPlain)
      (unanswered.foldl (Shell.step readPlain) (new (.new "w")))).KnownDead "claude:s:run-1" := by
  have waiting : ((unanswered.foldl (Shell.step readPlain) (new (.new "w"))).core.knownRuns.lookup
      "claude:s:run-1").map (fun run => run.state) = some .waiting := by decide
  obtain ⟨run, known, waiting⟩ := Option.map_eq_some_iff.mp waiting
  refine ⟨run, known, (survives_silence_iff readPlain "w" unanswered
    [.reap 30000 (.asStored _) (fun _ => "")] ?_ "claude:s:run-1" run known waiting).mpr
      ⟨⟨30000, 0, false⟩, rfl, Or.inr ?_⟩⟩
  · intro s hs
    rw [List.mem_singleton.mp hs]
    trivial
  · intro elapsed iter iso reaps
    cases List.mem_singleton.mp reaps
    decide

end Shell

end VsFleet
