import VsFleet.Misc.Runs
import VsFleet.Reporter.Channel
import VsFleet.Reporter.Proofs.Rounds
import VsFleet.Reporter.Proofs.Trackers

/-!
# When an outage kills a run

A sign of life is stamped with the logical clock, and that clock moves only in a tick, so only while
a connection is served. The tracker of a run that is never ended has the reading at which its last
sign of life was taken; the first tick after an outage reaps the run where that reading is too old,
whenever the signs of life were sent.
-/

namespace VsFleet

/-- A command gives signs of life of the run it signals, at the reading it is taken at. -/
theorem Channel.signal_of_mem {reading : Nat} {s : Sent} {σ : Signal}
    (mem : σ ∈ Channel.signal reading s) :
    σ.reading = reading ∧ s.cmd.signals = some σ.runId := by
  obtain ⟨runId, signals, rfl⟩ := List.mem_map.mp mem
  exact ⟨rfl, Option.mem_toList.mp signals⟩

/-- What the tracker of a run that was neither ended nor reaped has of the signs of life taken. -/
structure Seen (runId : String) (taken : List Signal) (core : ReporterCore) : Prop where
  indexed : core.Indexed
  read : ∀ σ ∈ taken, σ.reading ≤ core.now
  tracked : (core.knownRuns.lookup runId).isSome = (core.liveness.lookup runId).isSome
  window : ∀ t ∈ core.liveness.lookup runId, t.timeout = core.config.livenessTimeout
  unended : ∀ t ∈ core.liveness.lookup runId, t.confirmedExit = false
  last : ∀ t ∈ core.liveness.lookup runId, ∃ σ ∈ taken, σ.runId = runId ∧ σ.reading = t.lastSeen
  latest : ∀ t ∈ core.liveness.lookup runId, ∀ σ ∈ taken, σ.runId = runId →
    σ.reading ≤ t.lastSeen

namespace Seen

variable {runId : String} {taken : List Signal} {core : ReporterCore}

theorem new (runId : String) (config : ReporterConfig) : Seen runId [] (.new config) where
  indexed := OrderedMap.Indexed.empty
  read := by simp
  tracked := by simp [ReporterCore.new]
  window := by simp [ReporterCore.new]
  unended := by simp [ReporterCore.new]
  last := by simp [ReporterCore.new]
  latest := by simp [ReporterCore.new]

theorem buffer (h : Seen runId taken core) (buffer : DeltaBuffer) :
    Seen runId taken { core with buffer } := { h with }

theorem advance (h : Seen runId taken core) (elapsed : Nat) :
    Seen runId taken (core.advanceTo elapsed) := by
  unfold ReporterCore.advanceTo
  split
  · rename_i later
    exact { h with read := fun σ mem => Nat.le_trans (h.read σ mem) later }
  · exact h

/-- A sign of life of the run, taken now, is the last one its tracker has seen. -/
theorem observe (h : Seen runId taken core) {core' : ReporterCore} {σ : Signal}
    (own : σ.runId = runId) (reading : σ.reading = core.now) (indexed : core'.Indexed)
    (now : core'.now = core.now) (config : core'.config = core.config)
    {t : LivenessTracker} (found : core'.liveness.lookup runId = some t)
    (known : (core'.knownRuns.lookup runId).isSome)
    (window : t.timeout = core.config.livenessTimeout) (unended : t.confirmedExit = false)
    (seen : t.lastSeen = core.now) : Seen runId (taken ++ [σ]) core' := by
  have all : ∀ σ' ∈ taken ++ [σ], σ'.reading ≤ core.now := by
    intro σ' mem
    rcases List.mem_append.mp mem with old | new
    · exact h.read σ' old
    · rw [List.mem_singleton.mp new, reading]
  refine ⟨indexed, ?_, ?_, ?_, ?_, ?_, ?_⟩
  · rw [now]
    exact all
  · rw [found, known, Option.isSome_some]
  · rw [found]
    rintro _ ⟨⟩
    rw [window, config]
  · rw [found]
    rintro _ ⟨⟩
    exact unended
  · rw [found]
    rintro _ ⟨⟩
    exact ⟨σ, by simp, own, reading.trans seen.symm⟩
  · rw [found]
    rintro _ ⟨⟩
    intro σ' mem _
    rw [seen]
    exact all σ' mem

/-- What leaves the run alone leaves its tracker as it was. -/
theorem still (h : Seen runId taken core) {core' : ReporterCore} {more : List Signal}
    (fresh : ∀ σ ∈ more, σ.reading = core.now)
    (other : ∀ σ ∈ more, σ.runId = runId → core.liveness.lookup runId = none)
    (indexed : core'.Indexed) (now : core'.now = core.now) (config : core'.config = core.config)
    (tracker : core'.liveness.lookup runId = core.liveness.lookup runId)
    (known : core'.knownRuns.lookup runId = core.knownRuns.lookup runId) :
    Seen runId (taken ++ more) core' := by
  refine ⟨indexed, ?_, ?_, ?_, ?_, ?_, ?_⟩
  · intro σ mem
    rw [now]
    rcases List.mem_append.mp mem with old | new
    · exact h.read σ old
    · rw [fresh σ new]
  · rw [tracker, known]
    exact h.tracked
  · rw [tracker, config]
    exact h.window
  · rw [tracker]
    exact h.unended
  · rw [tracker]
    intro t found
    obtain ⟨σ, mem, own, reading⟩ := h.last t found
    exact ⟨σ, by simp [mem], own, reading⟩
  · rw [tracker]
    intro t found σ mem own
    rcases List.mem_append.mp mem with old | new
    · exact h.latest t found σ old own
    · rw [other σ new own] at found
      cases found

/-- A tracker that has seen nothing later than now sees now. -/
theorem observed {t : LivenessTracker} {now : Nat} (past : t.lastSeen ≤ now) :
    t.observeLiveness now = { t with lastSeen := now } := if_pos past

/-- The clock has reached what a tracker has seen. -/
theorem past (h : Seen runId taken core) {t : LivenessTracker}
    (found : core.liveness.lookup runId = some t) : t.lastSeen ≤ core.now := by
  obtain ⟨σ, mem, -, reading⟩ := h.last t found
  rw [← reading]
  exact h.read σ mem

theorem apply (h : Seen runId taken core) {s : Sent} (alive : s.cmd.exits ≠ some runId) :
    Seen runId (taken ++ Channel.signal core.now s) (core.apply s.iso s.cmd).2 := by
  obtain ⟨time, iso, cmd⟩ := s
  have tracker := core.lookup_apply iso cmd runId
  obtain ⟨indexed, now, config, known⟩ := core.apply_known h.indexed iso cmd
  have known := known runId
  have reading : ∀ σ ∈ Channel.signal core.now ⟨time, iso, cmd⟩, σ.reading = core.now :=
    fun σ mem => (Channel.signal_of_mem mem).1
  -- the command shows no life of the run
  have silent (others : cmd.signals ≠ some runId) : ∀ σ ∈ Channel.signal core.now ⟨time, iso, cmd⟩,
      σ.runId = runId → core.liveness.lookup runId = none := by
    intro σ mem own
    exact absurd (own ▸ (Channel.signal_of_mem mem).2) others
  cases cmd with
  | upsertSession session =>
    exact h.still reading (silent (by simp [ReporterCommand.signals])) indexed now config tracker
      known
  | shutdown =>
    exact h.still reading (silent (by simp [ReporterCommand.signals])) indexed now config tracker
      known
  | confirmExit ended reason =>
    have other : runId ≠ ended := fun same => alive (by rw [same]; rfl)
    rw [ReporterCommand.track, if_neg other] at tracker
    have unreported : (core.deadRun iso ended reason).runId ≠ runId := by
      rw [ReporterCore.deadRun_runId h.indexed]
      exact other.symm
    refine h.still reading (silent (by simp [ReporterCommand.signals])) indexed now config tracker
      ?_
    rw [known]
    simp [ReporterCore.reportedBy, Option.filter, unreported.symm]
  | upsertRun run =>
    simp only [ReporterCommand.track] at tracker
    simp only [ReporterCore.reportedBy] at known
    by_cases own : runId = run.runId
    · have living : run.state ≠ .dead := by
        intro dead
        exact alive (by simp [ReporterCommand.exits, dead, own])
      rw [if_pos own, if_neg living] at tracker
      have before : ((core.liveness.lookup runId).getD
          (.new core.config.livenessTimeout)).lastSeen ≤ core.now := by
        cases found : core.liveness.lookup runId with
        | none => exact Nat.zero_le _
        | some t => exact h.past found
      rw [observed before] at tracker
      refine h.observe (σ := ⟨run.runId, time, core.now⟩) own.symm rfl indexed now config tracker
        ?_ ?_ ?_ rfl
      · rw [known]
        simp [Option.filter, own]
      · cases found : core.liveness.lookup runId with
        | none => rfl
        | some t => exact h.window t found
      · cases found : core.liveness.lookup runId with
        | none => rfl
        | some t => exact h.unended t found
    · rw [if_neg own] at tracker
      refine h.still reading (silent ?_) indexed now config tracker ?_
      · simpa [ReporterCommand.signals] using Ne.symm own
      · rw [known]
        simp [Option.filter, own]
  | liveness signaller =>
    simp only [ReporterCommand.track] at tracker
    by_cases own : runId = signaller
    · rw [if_pos own] at tracker
      cases found : core.liveness.lookup runId with
      | none =>
        rw [found] at tracker
        exact h.still reading (fun _ _ _ => found) indexed now config (tracker.trans found.symm)
          known
      | some t =>
        rw [found, Option.map_some, observed (h.past found)] at tracker
        refine h.observe (σ := ⟨signaller, time, core.now⟩) own.symm rfl indexed now config tracker
          ?_ (h.window t found) (h.unended t found) rfl
        have tracked := h.tracked
        rw [found] at tracked
        rw [known]
        exact tracked
    · rw [if_neg own] at tracker
      refine h.still reading (silent ?_) indexed now config tracker known
      simpa [ReporterCommand.signals] using Ne.symm own

/-- The commands that waited are taken at one reading of the clock. -/
theorem pump (pending : List Sent) : ∀ {taken : List Signal} {core : ReporterCore},
    Seen runId taken core → (∀ s ∈ pending, s.cmd.exits ≠ some runId) →
    let core' := (pending.map (fun s => (s.iso, s.cmd))).foldl
      (fun core (iso, cmd) => (core.apply iso cmd).2) core
    Seen runId (taken ++ pending.flatMap (Channel.signal core.now)) core' ∧
      core'.now = core.now := by
  induction pending with
  | nil =>
    intro taken core h _
    rw [List.flatMap_nil, List.append_nil]
    exact ⟨h, rfl⟩
  | cons s pending ih =>
    intro taken core h alive
    have first := h.apply (s := s) (alive s (List.mem_cons_self ..))
    have now := (core.apply_known h.indexed s.iso s.cmd).2.1
    have rest := ih first (fun s' mem => alive s' (List.mem_cons_of_mem s mem))
    rw [now, List.append_assoc] at rest
    exact rest

/-- A reaping that finds other runs alone. -/
theorem reap (h : Seen runId taken core) {runIds : List String} {core' : ReporterCore}
    (reaped : core.Reaped runIds core') (spared : runId ∉ runIds) : Seen runId taken core' := by
  have tracker := reaped.tracker runId
  rw [if_neg spared] at tracker
  have untaken : ∀ σ ∈ ([] : List Signal), σ.reading = core.now := by simp
  have still := h.still untaken (by simp) reaped.known reaped.now reaped.config
    tracker (reaped.other runId spared)
  rwa [List.append_nil] at still

/-- The run is found timed out exactly when every sign of life of it was taken too long ago. -/
theorem timedOut_iff (h : Seen runId taken core)
    {iter : IterOrder (Sigma fun _ : String => LivenessTracker)} :
    runId ∈ core.timedOut iter ↔ (core.knownRuns.lookup runId).isSome ∧
      ∀ σ ∈ taken, σ.runId = runId → σ.reading + core.config.livenessTimeout < core.now := by
  rw [ReporterCore.mem_timedOut, h.tracked]
  cases found : core.liveness.lookup runId with
  | none => simp
  | some t =>
    have window := h.window t found
    have unended := h.unended t found
    obtain ⟨σ, mem, own, reading⟩ := h.last t found
    have late : t.evaluate core.now = .deadTimeout ↔ t.lastSeen + t.timeout < core.now := by
      rw [LivenessTracker.evaluate, unended, if_neg Bool.false_ne_true]
      have past := h.past found
      split
      · exact iff_of_true rfl (by omega)
      · exact iff_of_false nofun (by omega)
    constructor
    · rintro ⟨_, ⟨⟩, dead⟩
      refine ⟨rfl, fun σ' mem' own' => ?_⟩
      have seen := h.latest t found σ' mem' own'
      have gone := late.mp dead
      omega
    · rintro ⟨-, silent⟩
      have gone := silent σ mem own
      exact ⟨t, rfl, late.mpr (by omega)⟩

end Seen

namespace Channel

/-- The run a step ends. -/
def Step.exits : Step → Option String
  | .push _ cmd => cmd.exits
  | _ => none

/-- The step is a tick that reaps the run. -/
def Reaps (c : Channel) (runId : String) : Step → Prop
  | .tick iter _ _ => c.link.up = true ∧ runId ∈ (c.link.core.advanceTo c.elapsed).timedOut iter
  | _ => False

/-- A tick on a connection finds a known run with a sign of life that was taken when the clock read
no less than the timeout before the tick. -/
def Heard (c : Channel) (runId : String) : Step → Prop
  | .tick .. => c.link.up = true → (c.link.core.knownRuns.lookup runId).isSome →
      ∃ σ ∈ c.taken, σ.runId = runId ∧ c.elapsed ≤ σ.reading + c.link.core.config.livenessTimeout
  | _ => True

/-- What holds while the run has been neither ended nor reaped. -/
structure Alive (runId : String) (c : Channel) : Prop where
  sound : c.link.Sound
  seen : Seen runId c.taken c.link.core
  behind : c.link.core.now ≤ c.elapsed
  unended : ∀ s ∈ c.queue, s.cmd.exits ≠ some runId

variable {runId : String} {c : Channel}

theorem alive_new (runId : String) (config : ReporterConfig) : (new config).Alive runId where
  sound := Link.sound_new config
  seen := Seen.new runId config
  behind := Nat.le_refl _
  unended := by simp [new]

theorem advanceTo_now (core : ReporterCore) {elapsed : Nat} (behind : core.now ≤ elapsed) :
    core.advanceTo elapsed = { core with now := elapsed } := if_pos behind

theorem Alive.reaps_iff (h : c.Alive runId) (s : Step) : ¬ c.Reaps runId s ↔ c.Heard runId s := by
  cases s with
  | tick iter iso net =>
    simp only [Reaps, Heard]
    rw [(h.seen.advance c.elapsed).timedOut_iff, advanceTo_now c.link.core h.behind]
    dsimp only
    constructor
    · intro spared up known
      by_contra silent
      refine spared ⟨up, known, fun σ mem own => ?_⟩
      by_contra recent
      exact silent ⟨σ, mem, own, by omega⟩
    · rintro heard ⟨up, known, silent⟩
      obtain ⟨σ, mem, own, recent⟩ := heard up known
      have late := silent σ mem own
      omega
  | _ => exact iff_of_true not_false trivial

/-- The core after a round, where nothing but its buffer was left open. -/
theorem Alive.round (h : c.Alive runId) (s : Link.Step) {taken : List Signal}
    (seen : Seen runId taken (c.link.served s)) :
    Seen runId taken (c.link.step s).core ∧ (c.link.step s).Sound ∧
      (c.link.step s).core.now = (c.link.served s).now := by
  obtain ⟨sound, buffer, core⟩ := h.sound.step s
  rw [core]
  exact ⟨seen.buffer buffer, sound, rfl⟩

theorem Alive.step (h : c.Alive runId) (s : Step) (lives : s.exits ≠ some runId)
    (spared : ¬ c.Reaps runId s) : (c.step s).Alive runId := by
  cases s with
  | wait time => exact { h with behind := Nat.le_trans h.behind (Nat.le_add_right _ _) }
  | push iso cmd =>
    refine { h with unended := fun s mem => ?_ }
    rcases List.mem_append.mp mem with old | new
    · exact h.unended s old
    · rw [List.mem_singleton.mp new]
      exact lives
  | refused =>
    simp only [Channel.step]
    split
    · exact h
    · rename_i down
      have core : c.link.served (.refused (c.queue.map (fun s => (s.iso, s.cmd)))) =
          (c.queue.map (fun s => (s.iso, s.cmd))).foldl
            (fun core (iso, cmd) => (core.apply iso cmd).2) c.link.core := if_neg down
      obtain ⟨pumped, still⟩ := h.seen.pump c.queue h.unended
      rw [← core] at pumped still
      obtain ⟨seen, sound, now⟩ := h.round _ pumped
      refine ⟨sound, seen, ?_, by simp⟩
      dsimp only
      rw [now, still]
      exact h.behind
  | connect net =>
    have idle : Seen runId c.taken (c.link.served (.connect net)) := h.seen
    obtain ⟨seen, sound, now⟩ := h.round _ idle
    exact ⟨sound, seen, by rw [Channel.step, now]; exact h.behind, h.unended⟩
  | receive net =>
    simp only [Channel.step]
    split
    · rename_i up
      cases queued : c.queue with
      | nil => exact h
      | cons s queue =>
        have core : c.link.served (.command s.iso s.cmd net) = (c.link.core.apply s.iso s.cmd).2 :=
          if_pos up
        have alive := h.unended
        rw [queued] at alive
        have applied := h.seen.apply (alive s (List.mem_cons_self ..))
        rw [← core] at applied
        obtain ⟨seen, sound, now⟩ := h.round _ applied
        refine ⟨sound, seen, ?_, fun s' mem => alive s' (List.mem_cons_of_mem s mem)⟩
        dsimp only
        rw [now, core, (c.link.core.apply_known h.seen.indexed s.iso s.cmd).2.1]
        exact h.behind
    · exact h
  | tick iter iso net =>
    by_cases up : c.link.up = true
    · have core : c.link.served (.tick c.elapsed iter iso net) =
          (c.link.core.advanceTo c.elapsed).reapTimeouts iter iso := if_pos up
      have advanced := h.seen.advance c.elapsed
      have reaped := ReporterCore.reaped advanced.indexed iter iso
      have kept := advanced.reap reaped (fun dead => spared ⟨up, dead⟩)
      rw [← core] at kept
      obtain ⟨seen, sound, now⟩ := h.round _ kept
      refine ⟨sound, seen, ?_, h.unended⟩
      dsimp only [Channel.step]
      rw [now, core, reaped.now, advanceTo_now c.link.core h.behind]
    · have idle : c.link.step (.tick c.elapsed iter iso net) = c.link := if_neg up
      rw [Channel.step, idle]
      exact h

/-- A tick on a connection finds a sign of life that was sent within the agent's gap and taken while
the clock was at most a heartbeat interval behind. -/
def Prompt (c : Channel) (runId : String) (gap interval : Nat) : Step → Prop
  | .tick .. => c.link.up = true →
      ∃ σ ∈ c.taken, σ.runId = runId ∧ c.elapsed ≤ σ.sent + gap ∧ σ.sent ≤ σ.reading + interval
  | _ => True

instance (c : Channel) (runId : String) (gap interval : Nat) :
    DecidablePred (c.Prompt runId gap interval)
  | .tick .. => inferInstanceAs (Decidable (_ → ∃ σ ∈ c.taken, _))
  | .wait _ | .push .. | .refused | .connect _ | .receive _ => isTrue trivial

/-- That is enough where the gap and the interval come to the timeout at most. -/
theorem heard_of_prompt {gap interval : Nat}
    (fits : gap + interval ≤ c.link.core.config.livenessTimeout) {s : Step}
    (prompt : c.Prompt runId gap interval s) : c.Heard runId s := by
  cases s with
  | tick iter iso net =>
    intro up _
    obtain ⟨σ, taken, own, recent, soon⟩ := prompt up
    exact ⟨σ, taken, own, by omega⟩
  | _ => trivial

/-- The configuration stays as it was given. -/
theorem config_kept (config : ReporterConfig) :
    Link.Kept (fun _ _ core => core.config = config) where
  buffer _ h := h
  now _ h := h
  liveness _ h := h
  register _ h := h
  report _ h := h
  hear h _ := h

theorem step_config {config : ReporterConfig}
    (h : c.link.With (fun _ _ core => core.config = config)) (s : Step) :
    (c.step s).link.With (fun _ _ core => core.config = config) := by
  cases s with
  | wait time => exact h
  | push iso cmd => exact h
  | refused =>
    simp only [step]
    split
    · exact h
    · exact (h.step (config_kept config) _).1
  | connect net => exact (h.step (config_kept config) _).1
  | receive net =>
    simp only [step]
    split
    · split
      · exact h
      · exact (h.step (config_kept config) _).1
    · exact h
  | tick iter iso net => exact (h.step (config_kept config) _).1

/-- So a run is spared by every tick of a driver that takes the signs of life in time. -/
theorem heard_along_of_prompt (gap interval : Nat) {config : ReporterConfig}
    (fits : gap + interval ≤ config.livenessTimeout) (steps : List Step)
    (prompt : Along step (fun c s => c.Prompt runId gap interval s) (new config) steps) :
    Along step (fun c s => c.Heard runId s) (new config) steps :=
  Along.of_invariant (P := fun c => c.link.With (fun _ _ core => core.config = config))
    (q := fun _ => True) (fun _ _ h prompt => heard_of_prompt (h.2.symm ▸ fits) prompt)
    (fun _ s _ h _ => step_config h s) steps (fun _ _ => trivial)
    ⟨Link.sound_new config, rfl⟩ prompt

/-- The agent of the run has sent a sign of life within the gap, if it has sent any. -/
def Signals (c : Channel) (runId : String) (gap : Nat) : Prop :=
  ∀ first ∈ c.sent, first.1 = runId → ∃ recent ∈ c.sent, recent.1 = runId ∧
    c.elapsed ≤ recent.2 + gap

instance (c : Channel) (runId : String) (gap : Nat) : Decidable (c.Signals runId gap) :=
  inferInstanceAs (Decidable (∀ first ∈ c.sent, _ → ∃ recent ∈ c.sent, _))

end Channel

/-- A run that is never ended survives every tick exactly when each tick on a connection finds a
sign of life that was taken from the channel at a reading of the logical clock within the timeout.
The clock reads the time of the last tick, also for all that is taken in an outage after it. -/
theorem never_reaped_iff (config : ReporterConfig) (steps : List Channel.Step) (runId : String)
    (lives : ∀ s ∈ steps, s.exits ≠ some runId) :
    Along Channel.step (fun c s => ¬ c.Reaps runId s) (.new config) steps ↔
      Along Channel.step (fun c s => c.Heard runId s) (.new config) steps :=
  Along.iff_of_invariant (P := Channel.Alive runId) (q := fun s => s.exits ≠ some runId)
    (fun _ s h => h.reaps_iff s) (fun _ s lives h spared => h.step s lives spared) steps lives
    (Channel.alive_new runId config)

/-- A run is reported, its agent signals every 20 seconds, and the Hub is away for 40: the signals
are taken after failed connects and the first tick comes after the reconnect. -/
def outage : List Channel.Step :=
  [.connect [], .push "t" (.upsertRun (.plain "r" "n" .working)), .receive [.failed false],
    .wait 20, .push "t" (.liveness "r"), .refused,
    .wait 20, .push "t" (.liveness "r"), .refused,
    .connect [], .tick (.asStored _) (fun _ => "t") []]

/-- The same report, and an outage in which the first signal is taken ten seconds after it and the
next one twenty seconds later. -/
def shortOutage : List Channel.Step :=
  [.connect [], .push "t" (.upsertRun (.plain "r" "n" .working)), .receive [.failed false],
    .wait 10, .push "t" (.liveness "r"), .refused,
    .wait 20, .push "t" (.liveness "r"), .refused,
    .connect [], .tick (.asStored _) (fun _ => "t") []]

theorem never_reaped_iff_shortOutage :
    Along Channel.step (fun c s => ¬ c.Reaps "r" s) (.new ⟨"s", 30, false⟩) shortOutage :=
  (never_reaped_iff ⟨"s", 30, false⟩ shortOutage "r" (by decide)).mpr
    (Channel.heard_along_of_prompt 20 10 (Nat.le_refl 30) shortOutage (by decide))

/-- The agent keeps its gaps all along and the run is reaped. -/
theorem outage_reaps : ¬ ∀ (config : ReporterConfig) (steps : List Channel.Step) (runId : String)
    (gap interval : Nat), gap + interval ≤ config.livenessTimeout →
    (∀ s ∈ steps, s.exits ≠ some runId) →
    Along Channel.step (fun c _ => c.Signals runId gap) (.new config) steps →
    Along Channel.step (fun c s => ¬ c.Reaps runId s) (.new config) steps := by
  intro spares
  have spared := spares ⟨"s", 30, false⟩ outage "r" 20 10 (by decide) (by decide) (by decide)
  exact spared.2.2.2.2.2.2.2.2.2.2.1 ⟨rfl, by decide⟩

end VsFleet
