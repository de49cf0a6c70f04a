import VsFleet.Misc.Runs
import VsFleet.Reporter.Proofs.Trackers

/-!
# Whether a silent run is reaped

Beside the core stand the signs of life it was told of, each with the reading of the logical clock.
A known run that is not dead has a tracker, and the tracker has seen a sign of life, so that the
next reaping finds the run where it has been silent for too long. Only a run that was reported again
after its exit keeps a tracker that counts as ended, and no reaping ever finds that one.
-/

namespace VsFleet

/-- The core, with the signs of life it was told of. -/
structure Watch where
  core : ReporterCore
  signs : List (String × Nat)

namespace Watch

/-- A core that has just started. -/
def new (config : ReporterConfig) : Watch := ⟨.new config, []⟩

/-- A command is applied, or the timer ticks. -/
inductive Step where
  | command (iso : String) (cmd : ReporterCommand)
  | tick (elapsed : Nat) (iter : IterOrder (Sigma fun _ : String => LivenessTracker))
      (iso : String → String)

/-- One step; `signs` notes the signs of life. -/
def step (w : Watch) : Step → Watch
  | .command iso cmd =>
    { core := (w.core.apply iso cmd).2
      signs := w.signs ++ cmd.signals.toList.map (fun runId => (runId, w.core.now)) }
  | .tick elapsed iter iso =>
    { w with core := (w.core.advanceTo elapsed).reapTimeouts iter iso }

/-- The run has had a sign of life within the timeout. -/
def Recent (w : Watch) (now : Nat) (runId : String) : Prop :=
  ∃ sign ∈ w.signs, sign.1 = runId ∧ now ≤ sign.2 + w.core.config.livenessTimeout

/-- After a tick every known run that is not dead has had a sign of life within the timeout. -/
def Attentive (w : Watch) : Step → Prop
  | .tick elapsed iter iso => ∀ runId run,
      (w.step (.tick elapsed iter iso)).core.knownRuns.lookup runId = some run →
      run.state ≠ .dead →
      (w.step (.tick elapsed iter iso)).Recent (w.step (.tick elapsed iter iso)).core.now runId
  | _ => True

/-- Before a tick every run that is known as not dead although its exit was confirmed has had a sign
of life within the timeout. -/
def RevivedRecent (w : Watch) : Step → Prop
  | .tick elapsed _ _ => ∀ runId run t, w.core.knownRuns.lookup runId = some run →
      run.state ≠ .dead → w.core.liveness.lookup runId = some t → t.confirmedExit = true →
      w.Recent (w.core.advanceTo elapsed).now runId
  | _ => True

/-- A known run that is not dead is tracked, and a tracker that has seen no exit has seen a sign of
life. -/
structure Tracks (w : Watch) : Prop where
  indexed : w.core.Indexed
  tracked : ∀ runId run, w.core.knownRuns.lookup runId = some run → run.state ≠ .dead →
    (w.core.liveness.lookup runId).isSome
  window : ∀ runId t, w.core.liveness.lookup runId = some t →
    t.timeout = w.core.config.livenessTimeout
  seen : ∀ runId t, w.core.liveness.lookup runId = some t → t.confirmedExit = false →
    (runId, t.lastSeen) ∈ w.signs

theorem tracks_new (config : ReporterConfig) : (new config).Tracks where
  indexed := OrderedMap.Indexed.empty
  tracked := by simp [new, ReporterCore.new]
  window := by simp [new, ReporterCore.new]
  seen := by simp [new, ReporterCore.new]

/-- The signs of life with the one of a command. -/
def signed (signs : List (String × Nat)) (now : Nat) (cmd : ReporterCommand) :
    List (String × Nat) := signs ++ cmd.signals.toList.map (fun runId => (runId, now))

/-- A tracker that a sign of life reaches has seen it, or something later seen before. -/
theorem observed {signs : List (String × Nat)} {runId : String} {now timeout : Nat}
    {cmd : ReporterCommand} {t : LivenessTracker} (signal : cmd.signals = some runId)
    (window : t.timeout = timeout)
    (later : now < t.lastSeen → t.confirmedExit = false → (runId, t.lastSeen) ∈ signs) :
    (t.observeLiveness now).timeout = timeout ∧
      ((t.observeLiveness now).confirmedExit = false →
        (runId, (t.observeLiveness now).lastSeen) ∈ signed signs now cmd) := by
  unfold LivenessTracker.observeLiveness
  split
  · refine ⟨window, fun _ => ?_⟩
    simp [signed, signal]
  · rename_i early
    exact ⟨window, fun alive => List.mem_append_left _ (later (by omega) alive)⟩

/-- What a command leaves of a tracker that has seen no exit. -/
theorem seen_track {signs : List (String × Nat)} {runId : String} {now timeout : Nat}
    {before : Option LivenessTracker} {t : LivenessTracker} {cmd : ReporterCommand}
    (window : ∀ b ∈ before, b.timeout = timeout)
    (seen : ∀ b ∈ before, b.confirmedExit = false → (runId, b.lastSeen) ∈ signs)
    (after : cmd.track runId now timeout before = some t) : t.timeout = timeout ∧
      (t.confirmedExit = false → (runId, t.lastSeen) ∈ signed signs now cmd) := by
  have same : before = some t → t.timeout = timeout ∧
      (t.confirmedExit = false → (runId, t.lastSeen) ∈ signed signs now cmd) :=
    fun found => ⟨window t found, fun alive => List.mem_append_left _ (seen t found alive)⟩
  cases cmd with
  | upsertSession session => exact same after
  | shutdown => exact same after
  | upsertRun run =>
    simp only [ReporterCommand.track] at after
    split at after
    · rename_i own
      rw [Option.some.injEq] at after
      subst after
      have width : (before.getD (.new timeout)).timeout = timeout := by
        cases before with
        | none => rfl
        | some b => exact window b rfl
      split
      · exact ⟨width, fun alive => by cases alive⟩
      · refine observed (by rw [own]; rfl) width ?_
        intro early
        cases before with
        | none => exact absurd early (Nat.not_lt_zero now)
        | some b => exact seen b rfl
    · exact same after
  | liveness signaller =>
    simp only [ReporterCommand.track] at after
    split at after
    · rename_i own
      obtain ⟨b, found, rfl⟩ := Option.map_eq_some_iff.mp after
      exact observed (by rw [own]; rfl) (window b found) (fun _ => seen b found)
    · exact same after
  | confirmExit ended reason =>
    simp only [ReporterCommand.track] at after
    split at after
    · obtain ⟨b, found, rfl⟩ := Option.map_eq_some_iff.mp after
      exact ⟨window b found, fun alive => by cases alive⟩
    · exact same after

/-- A tracker is not lost to a command, and the upsert of a run gives it one. -/
theorem track_isSome {runId : String} {now timeout : Nat} {before : Option LivenessTracker}
    {cmd : ReporterCommand}
    (tracked : before.isSome ∨ ∃ run, cmd = .upsertRun run ∧ runId = run.runId) :
    (cmd.track runId now timeout before).isSome := by
  rcases tracked with tracked | ⟨run, rfl, own⟩
  · cases cmd <;> simp only [ReporterCommand.track]
    · exact tracked
    · split
      · rfl
      · exact tracked
    · split
      · rwa [Option.isSome_map]
      · exact tracked
    · split
      · rwa [Option.isSome_map]
      · exact tracked
    · exact tracked
  · simp only [ReporterCommand.track]
    rw [if_pos own]
    rfl

variable {w : Watch}

theorem Tracks.command (h : w.Tracks) (iso : String) (cmd : ReporterCommand) :
    (w.step (.command iso cmd)).Tracks := by
  obtain ⟨indexed, now, config, known⟩ := w.core.apply_known h.indexed iso cmd
  have tracker := w.core.lookup_apply iso cmd
  refine ⟨indexed, ?_, ?_, ?_⟩
  · intro runId run found living
    change (w.core.apply iso cmd).2.knownRuns.lookup runId = some run at found
    change ((w.core.apply iso cmd).2.liveness.lookup runId).isSome
    rw [tracker]
    rw [known] at found
    apply track_isSome
    cases cmd with
    | upsertRun upserted =>
      by_cases own : runId = upserted.runId
      · exact Or.inr ⟨upserted, rfl, own⟩
      · refine Or.inl (h.tracked runId run ?_ living)
        simpa [ReporterCore.reportedBy, Option.filter, own] using found
    | confirmExit ended reason =>
      refine Or.inl (h.tracked runId run ?_ living)
      by_cases own : runId = (w.core.deadRun iso ended reason).runId
      · simp only [ReporterCore.reportedBy, Option.filter, own, decide_true, if_true, Option.or,
          Option.some.injEq] at found
        rw [← found] at living
        exact absurd rfl living
      · simpa [ReporterCore.reportedBy, Option.filter, own] using found
    | _ => exact Or.inl (h.tracked runId run found living)
  · intro runId t found
    refine Eq.trans ?_ (congrArg ReporterConfig.livenessTimeout config.symm)
    exact (seen_track (h.window runId) (h.seen runId) ((tracker runId).symm.trans found)).1
  · intro runId t found
    exact (seen_track (h.window runId) (h.seen runId) ((tracker runId).symm.trans found)).2

section Tick

variable {elapsed : Nat} {iter : IterOrder (Sigma fun _ : String => LivenessTracker)}
  {iso : String → String} {runId : String} {run : AgentRun}

/-- A run that is not dead after a tick is one the tick found alive. -/
theorem tick_known_iff (h : w.Tracks) (living : run.state ≠ .dead) :
    (w.step (.tick elapsed iter iso)).core.knownRuns.lookup runId = some run ↔
      w.core.knownRuns.lookup runId = some run ∧
        runId ∉ (w.core.advanceTo elapsed).timedOut iter := by
  have reaped := ReporterCore.tick_reaped h.indexed elapsed iter iso
  constructor
  · intro found
    have spared : runId ∉ (w.core.advanceTo elapsed).timedOut iter := by
      intro dead
      obtain ⟨corpse, found', state⟩ := reaped.dead runId dead
      have same := Option.some.inj (found.symm.trans found')
      exact living (by rw [same, state])
    exact ⟨(reaped.other runId spared).symm.trans found, spared⟩
  · rintro ⟨found, spared⟩
    exact (reaped.other runId spared).trans found

theorem tick_tracker (h : w.Tracks) (runId : String) {t : LivenessTracker}
    (found : (w.step (.tick elapsed iter iso)).core.liveness.lookup runId = some t) :
    w.core.liveness.lookup runId = some t := by
  have reaped := (ReporterCore.tick_reaped h.indexed elapsed iter iso).tracker runId
  have after : (if runId ∈ (w.core.advanceTo elapsed).timedOut iter then none
      else w.core.liveness.lookup runId) = some t := reaped.symm.trans found
  split at after
  · cases after
  · exact after

theorem Tracks.tick (h : w.Tracks) (elapsed : Nat)
    (iter : IterOrder (Sigma fun _ : String => LivenessTracker)) (iso : String → String) :
    (w.step (.tick elapsed iter iso)).Tracks := by
  have reaped := ReporterCore.tick_reaped h.indexed elapsed iter iso
  refine ⟨reaped.known, ?_, ?_, ?_⟩
  · intro runId run found living
    obtain ⟨known, spared⟩ := (tick_known_iff h living).mp found
    change (((w.core.advanceTo elapsed).reapTimeouts iter iso).liveness.lookup runId).isSome
    rw [reaped.tracker, if_neg spared]
    exact h.tracked runId run known living
  · intro runId t found
    refine Eq.trans ?_ (congrArg ReporterConfig.livenessTimeout reaped.config.symm)
    exact h.window runId t (tick_tracker h runId found)
  · intro runId t found alive
    exact h.seen runId t (tick_tracker h runId found) alive

end Tick

theorem Tracks.step (h : w.Tracks) : ∀ s : Step, (w.step s).Tracks
  | .command iso cmd => h.command iso cmd
  | .tick elapsed iter iso => h.tick elapsed iter iso

/-- A tick leaves no silent run but the revived ones it found. -/
theorem Tracks.attentive_iff (h : w.Tracks) (s : Step) : w.Attentive s ↔ w.RevivedRecent s := by
  cases s with
  | command iso cmd => exact Iff.rfl
  | tick elapsed iter iso =>
    have reaped := ReporterCore.tick_reaped h.indexed elapsed iter iso
    have recent : ∀ runId,
        (w.step (.tick elapsed iter iso)).Recent (w.step (.tick elapsed iter iso)).core.now runId ↔
          w.Recent (w.core.advanceTo elapsed).now runId := by
      intro runId
      unfold Recent
      rw [show (w.step (.tick elapsed iter iso)).core.config = w.core.config from reaped.config,
        show (w.step (.tick elapsed iter iso)).core.now = (w.core.advanceTo elapsed).now from
          reaped.now]
      exact Iff.rfl
    simp only [Attentive, RevivedRecent, recent]
    have evaluated : ∀ runId, runId ∈ (w.core.advanceTo elapsed).timedOut iter ↔
        ∃ t, w.core.liveness.lookup runId = some t ∧
          t.evaluate (w.core.advanceTo elapsed).now = .deadTimeout := by
      intro runId
      rw [ReporterCore.mem_timedOut, ReporterCore.advanceTo_eq]
    constructor
    · intro attentive runId run t known living found exited
      refine attentive runId run ((tick_known_iff h living).mpr ⟨known, ?_⟩) living
      rw [evaluated, found]
      rintro ⟨_, ⟨⟩, dead⟩
      rw [LivenessTracker.evaluate, exited] at dead
      cases dead
    · intro revived runId run after living
      obtain ⟨known, spared⟩ := (tick_known_iff h living).mp after
      obtain ⟨t, found⟩ := Option.isSome_iff_exists.mp (h.tracked runId run known living)
      cases exited : t.confirmedExit with
      | true => exact revived runId run t known living found exited
      | false =>
        refine ⟨_, h.seen runId t found exited, rfl, ?_⟩
        have window := h.window runId t found
        by_contra silent
        refine spared ((evaluated runId).mpr ⟨t, found, ?_⟩)
        rw [LivenessTracker.evaluate, exited, if_neg Bool.false_ne_true, if_pos]
        omega

end Watch

/-- In any sequence of commands and ticks, each tick leaves no known run that is not dead and has
been silent for longer than the timeout, exactly when the runs reported again after their exit was
confirmed are not silent when a tick comes. -/
theorem silent_reaped_iff (config : ReporterConfig) (steps : List Watch.Step) :
    Along Watch.step (fun w s => w.Attentive s) (.new config) steps ↔
      Along Watch.step (fun w s => w.RevivedRecent s) (.new config) steps :=
  Along.iff_of_invariant (P := Watch.Tracks) (q := fun _ => True) (fun _ s h => h.attentive_iff s)
    (fun _ s _ h _ => h.step s) steps (fun _ _ => trivial) (Watch.tracks_new config)

/-- A run is reported, ends, is resumed under its id and falls silent for good. -/
theorem revived_run_never_reaped : ¬ ∀ (config : ReporterConfig) (steps : List Watch.Step),
    Along Watch.step (fun w s => w.Attentive s) (.new config) steps := by
  intro attentive
  have left := (attentive ⟨"s", 30, false⟩ [.command "t" (.upsertRun (.plain "r" "n" .working)),
    .command "t" (.upsertRun (.plain "r" "n" .dead)),
    .command "t" (.upsertRun (.plain "r" "n" .idle)),
    .tick 1000 (.asStored _) (fun _ => "t")]).2.2.2.1 "r" (.plain "r" "n" .idle) rfl (by decide)
  obtain ⟨sign, mem, -, recent⟩ := left
  have early : ∀ sign ∈ [("r", 0), ("r", 0), ("r", 0)], ¬ 1000 ≤ sign.2 + 30 := by decide
  exact early sign mem recent

end VsFleet
