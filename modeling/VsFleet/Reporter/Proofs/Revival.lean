import VsFleet.Reporter.Proofs.Silence

/-!
# Activity and a run that was reaped

A hook that shows activity reports a run only where a machine of its session changes by it. A run
that the core has reaped while its machines were working stays dead through all the activity that
follows.
-/

namespace VsFleet

/-- The session of a frame that shows activity: a prompt of the user or a call of a tool. -/
def activityOf (fromStr : String → Option Json) (line : String) : Option (Agent × String) :=
  match parseFrame line with
  | some (.claude, body) =>
    match ClaudeHookEvent.parse fromStr body with
    | .ok ev =>
      if ev.kind = .userPromptSubmit ∨ ev.kind = .preToolUse then some (.claude, ev.sessionId)
      else none
    | .error _ => none
  | some (.codex, body) =>
    match CodexHookEvent.parse fromStr body with
    | .ok ev =>
      if ev.kind = .userPromptSubmit ∨ ev.kind = .preToolUse then some (.codex, ev.threadId)
      else none
    | .error _ => none
  | none => none

namespace Shell

/-- The run of a session. -/
def runOf (shell : Shell) : Agent → String → Option String
  | .claude, id => (shell.receiver.claude.core.sessions.lookup id).map (fun s => s.runId)
  | .codex, id => (shell.receiver.codex.core.sessions.lookup id).map (fun s => s.runId)

/-- The run of a session is known, not as dead, and tracked. -/
def Lives (shell : Shell) (agent : Agent) (id : String) : Prop :=
  ∃ r run, shell.runOf agent id = some r ∧ shell.core.knownRuns.lookup r = some run ∧
    run.state ≠ .dead ∧ (shell.core.liveness.lookup r).isSome

/-- Every machine of the session takes its run to be working, and the run is tracked no more: it was
reaped since it was last reported. -/
def Forgotten (shell : Shell) : Agent → String → Prop
  | .claude, id => ∃ s t, shell.receiver.claude.core.sessions.lookup id = some s ∧
      shell.receiver.infer.core.sessions.lookup id = some t ∧ s.machine.core.state = .working ∧
      t.machine.core.state = .working ∧ shell.core.liveness.lookup t.runId = none
  | .codex, id => ∃ s, shell.receiver.codex.core.sessions.lookup id = some s ∧
      s.machine.core.state = .working ∧ shell.core.liveness.lookup s.runId = none

end Shell

/-! ## A hook that shows activity -/

theorem ClaudeStateMachine.apply_activity {m : ClaudeStateMachine} {ev : ClaudeHookEvent}
    (own : m.core.nativeId = ev.sessionId) (active : ev.kind = .userPromptSubmit ∨
      ev.kind = .preToolUse) :
    (m.apply ev).2.core.state = .working ∧
      ((m.apply ev).1.changed = false ↔ m.core.state = .working) := by
  have noted : (m.absorb ev).core.state = m.core.state := Core.note_state ..
  rcases active with kind | kind
  · simp [apply, own, kind, Core.transition, Core.enterWorking, noted]
  · simp [apply, own, kind, Core.transition, Core.enterWorking, noted]

theorem ClaudeInferMachine.respond_activity {m : ClaudeInferMachine} {ev : ClaudeHookEvent}
    (nowMs : Nat) (own : m.core.nativeId = ev.sessionId) (honest : m.core.Honest) {p : Phase}
    (phase : m.InPhase p) (active : ev.kind = .userPromptSubmit ∨ ev.kind = .preToolUse) :
    (m.respond (.hook ev nowMs)).2.core.state = .working ∧
      ((m.respond (.hook ev nowMs)).1.changed = false ↔ m.core.state = .working) := by
  have calm : m.core.state = .working → m.core.urgency = none ∧ m.inferredWaiting = false := by
    intro working
    refine ⟨?_, ?_⟩
    · by_contra urgent
      cases working.symm.trans (honest.urgent.mp (Option.isSome_iff_ne_none.mpr urgent))
    · cases p with
      | quiet => exact phase.2.1
      | armed since => exact phase.2.1
      | fired => cases working.symm.trans phase.2.2
  have changed : ((m.respond (.hook ev nowMs)).1.changed = false ↔
      (m.core.state = .working ∧ m.core.urgency = none) ∧ m.inferredWaiting = false) ∧
      (m.respond (.hook ev nowMs)).2.core.state = .working := by
    rcases active with kind | kind
    · simp [respond, apply, own, kind, resume, clearInference, Core.transition, Core.enterWorking]
    · simp [respond, apply, own, kind, resume, clearInference, Core.transition, Core.enterWorking]
  refine ⟨changed.2, changed.1.trans ⟨fun h => h.1.1, fun working => ?_⟩⟩
  exact ⟨⟨working, (calm working).1⟩, (calm working).2⟩

theorem CodexStateMachine.apply_activity {m : CodexStateMachine} {ev : CodexHookEvent}
    (own : m.core.nativeId = ev.threadId) (honest : m.core.Honest)
    (pending : m.core.pendingApproval = true → m.core.state = .waiting)
    (active : ev.kind = .userPromptSubmit ∨ ev.kind = .preToolUse) :
    (m.apply ev).2.core.state = .working ∧
      ((m.apply ev).1.changed = false ↔ m.core.state = .working) := by
  have calm : m.core.state = .working → m.core.urgency = none ∧ m.core.pendingApproval = false := by
    intro working
    refine ⟨?_, ?_⟩
    · by_contra urgent
      cases working.symm.trans (honest.urgent.mp (Option.isSome_iff_ne_none.mpr urgent))
    · by_contra asked
      cases working.symm.trans (pending (by simpa using asked))
  have changed : ((m.apply ev).1.changed = false ↔
      (m.core.state = .working ∧ m.core.urgency = none) ∧ m.core.pendingApproval = false) ∧
      (m.apply ev).2.core.state = .working := by
    rcases active with kind | kind
    · simp [apply, own, kind, absorb, resume, Core.transition, Core.enterWorking]
    · simp [apply, own, kind, absorb, resume, Core.transition, Core.enterWorking]
  refine ⟨changed.2, changed.1.trans ⟨fun h => h.1.1, fun working => ?_⟩⟩
  exact ⟨⟨working, (calm working).1⟩, (calm working).2⟩

/-! ## The run after it -/

/-- A session that was there before it was seen is as it was, and one that was not is new. -/
theorem AdapterCore.seen {M : Type} (a : AdapterCore M) (id : String) (make : M) :
    (∃ s, a.sessions.lookup id = some s ∧ (a.ensure id make).2.sessions.lookup id = some s) ∨
      (a.sessions.lookup id = none ∧ ∃ s, (a.ensure id make).2.sessions.lookup id = some s ∧
        s.machine = make) := by
  rcases a.ensure_cases id make with ⟨s, found, eq⟩ | ⟨absent, eq⟩
  · exact Or.inl ⟨s, found, by rw [eq]; exact found⟩
  · exact Or.inr ⟨absent, _, by rw [eq]; exact AList.lookup_insert .., rfl⟩

/-- A session whose machine moves is there after it, with the same run, and the core is told. -/
theorem AdapterCore.moved {M : Type} [RunMachine M] [LawfulRunMachine M] {core : ReporterCore}
    (h : core.Tended) {a : AdapterCore M} {id : String} {t : AdapterSession M}
    (found : a.sessions.lookup id = some t) (iso : String) (f : M → Transition × M) :
    (a.withExisting iso id f).2.sessions.lookup id =
        some { t with machine := (f t.machine).2 } ∧
      core.Told t.runId
        (if (f t.machine).1.changed then some (RunMachine.runState (f t.machine).2) else none)
        (core.applyAll (a.withExisting iso id f).1) := by
  rw [withExisting_of_some found]
  refine ⟨AList.lookup_insert .., ?_⟩
  have told := ReporterCore.told_commandsFor h iso (f t.machine).1
    { t with machine := (f t.machine).2 } (LawfulRunMachine.runId ..)
  rwa [LawfulRunMachine.state] at told

/-- After a report a run is tracked, and after a sign of life it is tracked as before. -/
theorem ReporterCore.Told.tracked_iff {core core' : ReporterCore} {r : String} {flag : Bool}
    {state : State} (told : core.Told r (if flag then some state else none) core') :
    (core'.liveness.lookup r).isSome ↔ flag = true ∨ (core.liveness.lookup r).isSome := by
  cases flag with
  | true => exact iff_of_true (told.told state rfl).2 (Or.inl rfl)
  | false => simp [(told.same rfl).2]

namespace Matched

variable {claude : AdapterCore ClaudeStateMachine} {infer : AdapterCore ClaudeInferMachine}
  {codex : AdapterCore CodexStateMachine} {core : ReporterCore} {id : String} {state : State}

/-- The run of a Claude session is fed by the two machines of the session alone. -/
theorem fed_claude (h : Matched claude infer codex core) {s : AdapterSession ClaudeStateMachine}
    {t : AdapterSession ClaudeInferMachine} (found : claude.sessions.lookup id = some s)
    (found' : infer.sessions.lookup id = some t) (fed : Feeds claude infer codex s.runId state) :
    state = s.machine.core.state ∨ state = t.machine.core.state := by
  obtain ⟨n, minted⟩ := h.hooks.minted id s found
  rcases fed with ⟨id', s', there, same, rfl⟩ | ⟨id', t', there, same, rfl⟩ |
    ⟨id', c, there, same, rfl⟩
  · obtain ⟨n', minted'⟩ := h.hooks.minted id' s' there
    rw [minted, minted'] at same
    obtain rfl := AdapterCore.mint_injective same
    cases found.symm.trans there
    exact Or.inl rfl
  · obtain ⟨n', minted'⟩ := h.inferring.minted id' t' there
    rw [minted, minted'] at same
    obtain rfl := AdapterCore.mint_injective same
    cases found'.symm.trans there
    exact Or.inr rfl
  · obtain ⟨n', minted'⟩ := h.threads.minted id' c there
    rw [minted, minted'] at same
    exact (AdapterCore.mint_claude_ne_codex _ _ _ _ same.symm).elim

/-- The run of a Codex thread is fed by the machine of the thread alone. -/
theorem fed_codex (h : Matched claude infer codex core) {s : AdapterSession CodexStateMachine}
    (found : codex.sessions.lookup id = some s) (fed : Feeds claude infer codex s.runId state) :
    state = s.machine.core.state := by
  obtain ⟨n, minted⟩ := h.threads.minted id s found
  rcases fed with ⟨id', s', there, same, rfl⟩ | ⟨id', t', there, same, rfl⟩ |
    ⟨id', c, there, same, rfl⟩
  · obtain ⟨n', minted'⟩ := h.hooks.minted id' s' there
    rw [minted, minted'] at same
    exact (AdapterCore.mint_claude_ne_codex _ _ _ _ same).elim
  · obtain ⟨n', minted'⟩ := h.inferring.minted id' t' there
    rw [minted, minted'] at same
    exact (AdapterCore.mint_claude_ne_codex _ _ _ _ same).elim
  · obtain ⟨n', minted'⟩ := h.threads.minted id' c there
    rw [minted, minted'] at same
    obtain rfl := AdapterCore.mint_injective same
    cases found.symm.trans there
    rfl

/-- The two Claude machines of a session feed one run. -/
theorem same_run (h : Matched claude infer codex core) {s : AdapterSession ClaudeStateMachine}
    {t : AdapterSession ClaudeInferMachine} (found : claude.sessions.lookup id = some s)
    (found' : infer.sessions.lookup id = some t) : s.runId = t.runId := by
  have paired := h.paired id
  rw [found, found'] at paired
  exact Option.some.inj paired

end Matched

namespace Shell

variable {fromStr : String → Option Json} {shell : Shell} {iso inferIso line : String} {nowMs : Nat}

/-- Where all its machines work, a run lives exactly when it is tracked. -/
theorem lives_claude_iff (h : shell.Matched) {id : String} {s : AdapterSession ClaudeStateMachine}
    {t : AdapterSession ClaudeInferMachine}
    (found : shell.receiver.claude.core.sessions.lookup id = some s)
    (found' : shell.receiver.infer.core.sessions.lookup id = some t)
    (works : s.machine.core.state = .working) (works' : t.machine.core.state = .working) :
    shell.Lives .claude id ↔ (shell.core.liveness.lookup s.runId).isSome := by
  constructor
  · rintro ⟨r, run, own, -, -, tracked⟩
    rw [runOf, found] at own
    cases own
    exact tracked
  · intro tracked
    obtain ⟨run, known, fed⟩ := h.inStep.agrees s.runId tracked
    refine ⟨s.runId, run, by simp only [runOf, found, Option.map_some], known, ?_, tracked⟩
    rcases VsFleet.Matched.fed_claude h found found' fed with state | state
    · rw [state, works]
      decide
    · rw [state, works']
      decide

theorem lives_codex_iff (h : shell.Matched) {id : String} {s : AdapterSession CodexStateMachine}
    (found : shell.receiver.codex.core.sessions.lookup id = some s)
    (works : s.machine.core.state = .working) :
    shell.Lives .codex id ↔ (shell.core.liveness.lookup s.runId).isSome := by
  constructor
  · rintro ⟨r, run, own, -, -, tracked⟩
    rw [runOf, found] at own
    cases own
    exact tracked
  · intro tracked
    obtain ⟨run, known, fed⟩ := h.inStep.agrees s.runId tracked
    refine ⟨s.runId, run, by simp only [runOf, found, Option.map_some], known, ?_, tracked⟩
    rw [VsFleet.Matched.fed_codex h found fed, works]
    decide

theorem forgotten_claude_iff {id : String} {s : AdapterSession ClaudeStateMachine}
    {t : AdapterSession ClaudeInferMachine}
    (found : shell.receiver.claude.core.sessions.lookup id = some s)
    (found' : shell.receiver.infer.core.sessions.lookup id = some t) :
    shell.Forgotten .claude id ↔ s.machine.core.state = .working ∧
      t.machine.core.state = .working ∧ shell.core.liveness.lookup t.runId = none := by
  constructor
  · rintro ⟨s', t', there, there', forgotten⟩
    cases found.symm.trans there
    cases found'.symm.trans there'
    exact forgotten
  · exact fun forgotten => ⟨s, t, found, found', forgotten⟩

theorem forgotten_codex_iff {id : String} {s : AdapterSession CodexStateMachine}
    (found : shell.receiver.codex.core.sessions.lookup id = some s) :
    shell.Forgotten .codex id ↔
      s.machine.core.state = .working ∧ shell.core.liveness.lookup s.runId = none := by
  constructor
  · rintro ⟨s', there, forgotten⟩
    cases found.symm.trans there
    exact forgotten
  · exact fun forgotten => ⟨s, found, forgotten⟩

theorem revives_claude_iff (h : shell.Matched) {body : String} {ev : ClaudeHookEvent}
    (framed : parseFrame line = some (.claude, body))
    (parsed : ClaudeHookEvent.parse fromStr body = .ok ev)
    (active : ev.kind = .userPromptSubmit ∨ ev.kind = .preToolUse) :
    (shell.step fromStr (.frame iso inferIso line nowMs)).Lives .claude ev.sessionId ↔
      ¬ shell.Forgotten .claude ev.sessionId := by
  have after := h.step fromStr (.frame iso inferIso line nowMs)
  have enrolled := VsFleet.Matched.enroll h ev.sessionId shell.receiver.infer.debounceMs
  obtain ⟨⟨hooks, inferring⟩, rfl, rfl, hooks', inferring', -, core⟩ :=
    step_claude shell iso inferIso nowMs framed parsed
  obtain ⟨s, there⟩ : ∃ s, (shell.receiver.claude.core.ensure ev.sessionId
      (.new ev.sessionId)).2.sessions.lookup ev.sessionId = some s :=
    ⟨_, AdapterCore.lookup_ensure ..⟩
  obtain ⟨t, there'⟩ : ∃ t, (shell.receiver.infer.core.ensure ev.sessionId
      (.withDebounceMs ev.sessionId shell.receiver.infer.debounceMs)).2.sessions.lookup
        ev.sessionId = some t := ⟨_, AdapterCore.lookup_ensure ..⟩
  have one : s.runId = t.runId := enrolled.same_run there there'
  obtain ⟨works, still⟩ := ClaudeStateMachine.apply_activity (enrolled.hooks.machines _ s there).1
    active
  obtain ⟨own', honest, p, phase⟩ := enrolled.inferring.machines _ t there'
  obtain ⟨works', still'⟩ := ClaudeInferMachine.respond_activity nowMs own' honest phase
    active
  obtain ⟨moved, told⟩ := AdapterCore.moved enrolled.inStep.tended there iso (fun m => m.apply ev)
  obtain ⟨moved', told'⟩ := AdapterCore.moved told.tended there' inferIso
    (fun m => m.respond (.hook ev nowMs))
  have lives := lives_claude_iff after (hooks' ▸ moved) (inferring' ▸ moved') works works'
  rw [lives, core, one, told'.tracked_iff, ← one, told.tracked_iff]
  have paired := h.paired ev.sessionId
  rcases shell.receiver.claude.core.seen ev.sessionId (.new ev.sessionId)
    with ⟨s', found, same⟩ | ⟨absent, s', same, fresh⟩
  · cases there.symm.trans same
    rcases shell.receiver.infer.core.seen ev.sessionId
      (.withDebounceMs ev.sessionId shell.receiver.infer.debounceMs)
      with ⟨t', found', same'⟩ | ⟨absent', -⟩
    · cases there'.symm.trans same'
      rw [forgotten_claude_iff found found', ← one, ← still, ← still', not_and_or, not_and_or,
        Bool.not_eq_false, Bool.not_eq_false, ← ne_eq, ← Option.isSome_iff_ne_none]
      exact or_left_comm
    · rw [found, absent'] at paired
      cases paired
  · cases there.symm.trans same
    have idle : (s.machine.apply ev).1.changed = true := by
      rw [← Bool.not_eq_false, still, fresh]
      exact State.noConfusion
    refine iff_of_true (Or.inr (Or.inl idle)) ?_
    rintro ⟨s', t', found, -⟩
    cases absent.symm.trans found

theorem revives_codex_iff (h : shell.Matched) {body : String} {ev : CodexHookEvent}
    (framed : parseFrame line = some (.codex, body))
    (parsed : CodexHookEvent.parse fromStr body = .ok ev)
    (active : ev.kind = .userPromptSubmit ∨ ev.kind = .preToolUse) :
    (shell.step fromStr (.frame iso inferIso line nowMs)).Lives .codex ev.threadId ↔
      ¬ shell.Forgotten .codex ev.threadId := by
  have after := h.step fromStr (.frame iso inferIso line nowMs)
  have serves := h.threads.ensure ev.threadId (.new ev.threadId)
    ⟨rfl, Core.honest_new _, Bool.noConfusion⟩
  obtain ⟨threads, rfl, -, -, threads', core⟩ := step_codex shell iso inferIso nowMs framed parsed
  obtain ⟨s, there⟩ : ∃ s, (shell.receiver.codex.core.ensure ev.threadId
      (.new ev.threadId)).2.sessions.lookup ev.threadId = some s :=
    ⟨_, AdapterCore.lookup_ensure ..⟩
  obtain ⟨own, honest, pending⟩ := serves.machines _ s there
  obtain ⟨works, still⟩ := CodexStateMachine.apply_activity own honest pending active
  obtain ⟨moved, told⟩ := AdapterCore.moved h.inStep.tended there iso (fun m => m.apply ev)
  have lives := lives_codex_iff after (threads' ▸ moved) works
  rw [lives, core, told.tracked_iff]
  rcases shell.receiver.codex.core.seen ev.threadId (.new ev.threadId)
    with ⟨s', found, same⟩ | ⟨absent, s', same, fresh⟩
  · cases there.symm.trans same
    rw [forgotten_codex_iff found, ← still, not_and_or, Bool.not_eq_false, ← ne_eq,
      ← Option.isSome_iff_ne_none]
  · cases there.symm.trans same
    have idle : (s.machine.apply ev).1.changed = true := by
      rw [← Bool.not_eq_false, still, fresh]
      exact State.noConfusion
    refine iff_of_true (Or.inl idle) ?_
    rintro ⟨s', found, -⟩
    cases absent.symm.trans found

/-- Activity leaves the run of its session alive and tracked, in any state that a reporter gets
into, exactly unless the run has been forgotten. -/
theorem revives_iff (fromStr : String → Option Json) (config : ReporterConfig) (steps : List Step)
    (iso inferIso line : String) (nowMs : Nat) (agent : Agent) (id : String)
    (active : activityOf fromStr line = some (agent, id)) :
    ((steps.foldl (Shell.step fromStr) (new config)).step fromStr
        (.frame iso inferIso line nowMs)).Lives agent id ↔
      ¬ (steps.foldl (Shell.step fromStr) (new config)).Forgotten agent id := by
  have h := matched_foldl fromStr config steps
  unfold activityOf at active
  split at active
  · rename_i body framed
    split at active
    · rename_i ev parsed
      split at active
      · rename_i kind
        cases active
        exact revives_claude_iff h framed parsed kind
      · cases active
    · cases active
  · rename_i body framed
    split at active
    · rename_i ev parsed
      split at active
      · rename_i kind
        cases active
        exact revives_codex_iff h framed parsed kind
      · cases active
    · cases active
  · cases active

/-- A tool is called in the session `s`, and the run is reaped in the silence of a long call, for
worked cases. -/
def longCall : List Step :=
  [.frame "" "" "claude \x7b\"hook_event_name\":\"PreToolUse\",\"session_id\":\"s\"\x7d" 0,
    .reap 30001 (.asStored _) (fun _ => "")]

/-- The next call finds both machines working: the run stays dead, and nothing tracks it. -/
theorem dead_despite_activity :
    activityOf readPlain
      "claude \x7b\"hook_event_name\":\"PreToolUse\",\"session_id\":\"s\"\x7d" =
        some (.claude, "s") ∧
    ¬ ((longCall.foldl (Shell.step readPlain) (new (.new "w"))).step readPlain (.frame "" ""
      "claude \x7b\"hook_event_name\":\"PreToolUse\",\"session_id\":\"s\"\x7d" 31000)).Lives
        .claude "s" := by
  refine ⟨by decide, ?_⟩
  rintro ⟨r, run, own, known, live, -⟩
  have own' : ((longCall.foldl (Shell.step readPlain) (new (.new "w"))).step readPlain (.frame "" ""
      "claude \x7b\"hook_event_name\":\"PreToolUse\",\"session_id\":\"s\"\x7d" 31000)).runOf
        .claude "s" = some "claude:s:run-1" := by decide
  cases own'.symm.trans own
  have dead : (((longCall.foldl (Shell.step readPlain) (new (.new "w"))).step readPlain
      (.frame "" "" "claude \x7b\"hook_event_name\":\"PreToolUse\",\"session_id\":\"s\"\x7d"
        31000)).core.knownRuns.lookup "claude:s:run-1").map (fun run => run.state) = some .dead := by
    decide
  rw [known] at dead
  exact live (Option.some.inj dead)

/-- A call that comes before the reaper keeps the run alive. -/
theorem revives_iff_at_call :
    (([].foldl (Shell.step readPlain) (new (.new "w"))).step readPlain (.frame "" ""
      "claude \x7b\"hook_event_name\":\"PreToolUse\",\"session_id\":\"s\"\x7d" 0)).Lives
        .claude "s" := by
  refine (revives_iff readPlain (.new "w") [] "" ""
    "claude \x7b\"hook_event_name\":\"PreToolUse\",\"session_id\":\"s\"\x7d" 0 .claude "s"
      (by decide)).mpr ?_
  rintro ⟨s, t, found, -⟩
  have absent : (new (.new "w")).receiver.claude.core.sessions.lookup "s" = none := by decide
  cases absent.symm.trans found

end Shell

end VsFleet
