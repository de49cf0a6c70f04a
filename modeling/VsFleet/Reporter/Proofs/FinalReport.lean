import VsFleet.Reporter.Proofs.RunIds

/-!
# The last report of a finished run

A turn that ends is reported by both Claude adapters under one run id. The inferring machine is done
only where the other one is, so whenever the end of a turn is reported the inferring adapter has the
last word, and its message is always the same.
-/

namespace VsFleet

/-! ## What was reported last -/

/-- The run a command reports under an id. -/
def reportOf (r : String) : ReporterCommand → Option AgentRun
  | .upsertRun run => if run.runId = r then some run else none
  | _ => none

/-- The last report of a run among commands. -/
def finalReport (r : String) (cmds : List ReporterCommand) : Option AgentRun :=
  (cmds.filterMap (reportOf r)).getLast?

variable {r : String}

theorem finalReport_append (cmds more : List ReporterCommand) :
    finalReport r (cmds ++ more) = (finalReport r more).or (finalReport r cmds) := by
  rw [finalReport, List.filterMap_append, List.getLast?_append]
  rfl

section Adapter

variable {M : Type} [RunMachine M] [LawfulRunMachine M] {a : AdapterCore M} {id : String}
  {session : AdapterSession M} {f : M → Transition × M}

/-- A machine that moves reports its own run, and only where it counts as changed. -/
theorem finalReport_withExisting (found : a.sessions.lookup id = some session) (iso r : String) :
    finalReport r (a.withExisting iso id f).1 =
      if (f session.machine).1.changed = true ∧ session.runId = r then
        some (RunMachine.buildRun (f session.machine).2 session.runId iso) else none := by
  have named := LawfulRunMachine.runId (f session.machine).2 session.runId iso
  rw [AdapterCore.withExisting_of_some found, AdapterCore.commandsFor]
  by_cases changed : (f session.machine).1.changed = true
  · by_cases own : session.runId = r
    · subst own
      simp [finalReport, reportOf, changed, named]
    · simp [finalReport, reportOf, changed, named, own]
  · have silent : ¬ ((f session.machine).1.changed = true ∧ session.runId = r) :=
      fun both => changed both.1
    simp only [if_neg changed, if_neg silent]
    split <;> rfl

/-- A run that the machine does not feed, or a move without a change, is not reported. -/
theorem finalReport_withExisting_none (iso : String)
    (other : ∀ session, a.sessions.lookup id = some session →
      (f session.machine).1.changed = false ∨ session.runId ≠ r) :
    finalReport r (a.withExisting iso id f).1 = none := by
  cases found : a.sessions.lookup id with
  | none => simp only [AdapterCore.withExisting, found]; rfl
  | some session =>
    rw [finalReport_withExisting found, if_neg]
    rintro ⟨changed, own⟩
    rcases other session found with same | foreign
    · rw [same] at changed
      cases changed
    · exact foreign own

end Adapter

/-! ## The two machines at the end of a turn -/

/-- A hook after which the inferring machine is done leaves the other one done too; unless it is
reported by the inferring one, neither reports anything. -/
theorem done_together {m : ClaudeStateMachine} {w : ClaudeInferMachine} {ev : ClaudeHookEvent}
    (own : m.core.nativeId = ev.sessionId) (own' : w.core.nativeId = ev.sessionId)
    (before : w.core.state = .done → m.core.state = .done) (nowMs : Nat)
    (done : (w.apply ev nowMs).2.core.state = .done) :
    (m.apply ev).2.core.state = .done ∧ ((w.apply ev nowMs).1.changed = true ∨
      w.core.state = .done ∧ (w.apply ev nowMs).1.changed = false ∧
        (m.apply ev).1.changed = false) := by
  have noted : (m.absorb ev).core.state = m.core.state := Core.note_state ..
  have noted' : (w.core.note ev.cwd ev.toolName).state = w.core.state := Core.note_state ..
  unfold ClaudeInferMachine.apply at done ⊢
  unfold ClaudeStateMachine.apply
  rw [if_neg (not_not.mpr own'.symm)] at done
  rw [if_neg (not_not.mpr own.symm), if_neg (not_not.mpr own'.symm)]
  cases kind : ev.kind with
  | preToolUse | userPromptSubmit =>
    simp [kind, ClaudeInferMachine.resume, Core.enterWorking] at done
  | stop =>
    cases active : ev.stopHookActive with
    | true => simp [kind, active, ClaudeInferMachine.resume, Core.enterWorking] at done
    | false =>
      refine ⟨by simp [Core.setDone], ?_⟩
      by_cases was : w.core.state = .done
      · by_cases loud : w.inferredWaiting = true ∨
            (w.core.note ev.cwd ev.toolName).urgency ≠ none
        · left
          simp only [ClaudeInferMachine.clearInference, Core.transition]
          rcases loud with waiting | urgent
          · simp [waiting]
          · simp only [Core.note_urgency] at urgent
            simp [urgent]
        · right
          rw [not_or, not_ne_iff, Bool.not_eq_true] at loud
          obtain ⟨quiet, calm⟩ := loud
          rw [Core.note_urgency] at calm
          simp [ClaudeInferMachine.clearInference, Core.transition, noted, was, before was, quiet,
            calm]
      · left
        simp [ClaudeInferMachine.clearInference, Core.transition, was]
  | sessionEnd => simp [kind, Core.setDead] at done
  | sessionStart =>
    simp only [kind, noted'] at done ⊢
    split at done
    · simp [Core.reviveIdle] at done
    · have was : w.core.state = .done := noted'.symm.trans done
      simp [noted, was, before was, Core.noOp, Core.transition]
  | postToolUse =>
    cases waiting : w.inferredWaiting with
    | true => simp [kind, ClaudeInferMachine.clearInference, waiting, Core.enterWorking] at done
    | false =>
      simp only [kind, ClaudeInferMachine.clearInference, waiting, Bool.false_eq_true,
        if_false] at done ⊢
      have was : w.core.state = .done := noted'.symm.trans done
      simp [noted, was, before was, Core.noOp, Core.transition]
  | subagentStop | preCompact | other name =>
    simp only [kind] at done ⊢
    have was : w.core.state = .done := noted'.symm.trans done
    simp [noted, was, before was, Core.noOp, Core.transition]

/-- A tick or a verdict after which a machine is done has left it as it was. -/
theorem ClaudeInferMachine.respond_done {w : ClaudeInferMachine} {e : InferEvent}
    (hook : ∀ ev nowMs, e ≠ .hook ev nowMs) (done : (w.respond e).2.core.state = .done) :
    w.core.state = .done ∧ (w.respond e).1.changed = false := by
  cases e with
  | hook ev nowMs => exact absurd rfl (hook ev nowMs)
  | tick nowMs =>
    simp only [respond, tick] at done ⊢
    split at done
    · simp [fireInference, Core.setWaitingApproval] at done
    · rename_i early
      rw [if_neg early]
      exact ⟨done, rfl⟩
  | corroborate verdict =>
    cases verdict with
    | resolved =>
      simp only [respond, corroborate] at done ⊢
      split at done
      · simp [Core.enterWorking] at done
      · rename_i quiet
        rw [if_neg quiet]
        exact ⟨done, rfl⟩
    | stuck | unknown => exact ⟨done, rfl⟩

theorem ClaudeInferMachine.lastMessage_of_done {w : ClaudeInferMachine}
    (done : w.core.state = .done) : w.lastMessage = some "Task complete." := by
  rw [lastMessage, done]

/-! ## Along a run -/

/-- A session whose inferring machine is done was last reported as done, by that machine. -/
def Concluded (claude : AdapterCore ClaudeStateMachine) (infer : AdapterCore ClaudeInferMachine)
    (sent : List ReporterCommand) : Prop :=
  ∀ id s t, claude.sessions.lookup id = some s → infer.sessions.lookup id = some t →
    t.machine.core.state = .done → s.machine.core.state = .done ∧
      ∃ run, finalReport t.runId sent = some run ∧ run.state = .done ∧
        run.lastMessage = some "Task complete."

namespace Concluded

variable {claude : AdapterCore ClaudeStateMachine} {infer infer' : AdapterCore ClaudeInferMachine}
  {sent cmds : List ReporterCommand}

/-- Commands that report no run of Claude change nothing. -/
theorem silent (h : Concluded claude infer sent)
    (none : ∀ id t, infer.sessions.lookup id = some t → finalReport t.runId cmds = none) :
    Concluded claude infer (sent ++ cmds) := by
  intro id s t hook inferring done
  rw [finalReport_append, none id t inferring, Option.none_or]
  exact h id s t hook inferring done

/-- Two sessions of an adapter feed different runs. -/
theorem foreign {M : Type} {a : AdapterCore M} {ok : String → M → Prop}
    (serves : a.Serves "claude" ok) {id id' : String} {s t : AdapterSession M}
    (found : a.sessions.lookup id = some s) (there : a.sessions.lookup id' = some t)
    (other : id' ≠ id) : s.runId ≠ t.runId := by
  intro shared
  refine other (serves.runIdOf_injective (r := t.runId) ?_ ?_)
  · rw [AdapterCore.runIdOf, there]
    rfl
  · rw [AdapterCore.runIdOf, found, ← shared]
    rfl

/-- A tick or a verdict reaches one machine. -/
theorem infer_moves {ok : String → ClaudeInferMachine → Prop} (h : Concluded claude infer sent)
    (serves : infer.Serves "claude" ok) (iso id : String) {e : InferEvent}
    (hook : ∀ ev nowMs, e ≠ .hook ev nowMs) :
    Concluded claude (infer.withExisting iso id (fun m => m.respond e)).2
      (sent ++ (infer.withExisting iso id (fun m => m.respond e)).1) := by
  cases found : infer.sessions.lookup id with
  | none =>
    simp only [AdapterCore.withExisting, found, List.append_nil]
    exact h
  | some w =>
    intro id' s t there moved done
    rw [AdapterCore.withExisting_of_some found] at moved
    by_cases same : id' = id
    · subst same
      rw [AList.lookup_insert, Option.some.injEq] at moved
      subst moved
      obtain ⟨was, quiet⟩ := ClaudeInferMachine.respond_done hook done
      rw [finalReport_append, finalReport_withExisting found, quiet]
      exact h id' s w there found was
    · rw [AList.lookup_insert_ne same] at moved
      rw [finalReport_append, finalReport_withExisting found,
        if_neg (fun both => foreign serves found moved same both.2)]
      exact h id' s t there moved done

theorem driven {ok : String → ClaudeInferMachine → Prop} {allowed : String → InferEvent → Prop}
    (hooks : ∀ id e, allowed id e → ∀ ev nowMs, e ≠ .hook ev nowMs)
    (h : Concluded claude infer sent) (serves : infer.Serves "claude" ok)
    (moves : Driven allowed infer cmds infer') : Concluded claude infer' (sent ++ cmds) := by
  have both : infer'.Serves "claude" (fun _ _ => True) ∧
      Concluded claude infer' (sent ++ cmds) := by
    induction moves with
    | rest =>
      rw [List.append_nil]
      exact ⟨⟨serves.named, serves.minted, fun _ _ _ => trivial⟩, h⟩
    | move iso id e before may ih =>
      rw [← List.append_assoc]
      exact ⟨ih.1.withExisting iso (fun _ _ => trivial),
        ih.2.infer_moves ih.1 iso id (hooks id e may)⟩
  exact both.2

/-- Sessions that are seen for the first time are idle. -/
theorem enroll {codex : AdapterCore CodexStateMachine} {core : ReporterCore}
    (h : Concluded claude infer sent) (matched : Matched claude infer codex core) (id : String)
    (debounceMs : Nat) : Concluded (claude.ensure id (.new id)).2
      (infer.ensure id (.withDebounceMs id debounceMs)).2 sent := by
  have paired := matched.paired id
  rcases claude.ensure_cases id (.new id) with ⟨s, there, eq⟩ | ⟨absent, eq⟩ <;>
    rcases infer.ensure_cases id (.withDebounceMs id debounceMs) with ⟨t, there', eq'⟩ |
      ⟨absent', eq'⟩
  · rw [eq, eq']
    exact h
  · simp [there, absent'] at paired
  · simp [absent, there'] at paired
  · rw [eq, eq']
    intro id' s t hook inferring done
    by_cases same : id' = id
    · subst same
      rw [AList.lookup_insert, Option.some.injEq] at inferring
      subst inferring
      cases done
    · rw [AList.lookup_insert_ne same] at hook inferring
      exact h id' s t hook inferring done

/-- A hook reaches both machines of a session, the inferring one second. -/
theorem hook_moves {codex : AdapterCore CodexStateMachine} {core : ReporterCore}
    (h : Concluded claude infer sent) (matched : Matched claude infer codex core)
    (ev : ClaudeHookEvent) (iso inferIso : String) (nowMs : Nat)
    {m : AdapterSession ClaudeStateMachine} {w : AdapterSession ClaudeInferMachine}
    (found : claude.sessions.lookup ev.sessionId = some m)
    (found' : infer.sessions.lookup ev.sessionId = some w) :
    Concluded (claude.withExisting iso ev.sessionId (fun m => m.apply ev)).2
      (infer.withExisting inferIso ev.sessionId (fun w => w.respond (.hook ev nowMs))).2
      (sent ++ ((claude.withExisting iso ev.sessionId (fun m => m.apply ev)).1 ++
        (infer.withExisting inferIso ev.sessionId (fun w => w.respond (.hook ev nowMs))).1)) := by
  have shared : m.runId = w.runId := by
    have paired := matched.paired ev.sessionId
    rw [found, found'] at paired
    exact Option.some.inj paired
  intro id s t hook inferring done
  rw [AdapterCore.withExisting_of_some found] at hook
  rw [AdapterCore.withExisting_of_some found'] at inferring
  rw [finalReport_append, finalReport_append, finalReport_withExisting found,
    finalReport_withExisting found']
  by_cases same : id = ev.sessionId
  · subst same
    rw [AList.lookup_insert, Option.some.injEq] at hook inferring
    subst hook inferring
    obtain ⟨concluded, loud | ⟨was, quiet, still⟩⟩ := done_together
      (matched.hooks.machines _ m found).1 (matched.inferring.machines _ w found').1
      (fun was => (h _ m w found found' was).1) nowMs done
    · refine ⟨concluded, RunMachine.buildRun (w.machine.respond (.hook ev nowMs)).2 w.runId inferIso,
        ?_, done, ClaudeInferMachine.lastMessage_of_done done⟩
      rw [if_pos ⟨loud, rfl⟩, Option.some_or, Option.some_or]
    · refine ⟨concluded, ?_⟩
      have quiet' : (w.machine.respond (.hook ev nowMs)).1.changed = false := quiet
      rw [still, quiet']
      exact (h _ m w found found' was).2
  · rw [AList.lookup_insert_ne same] at hook inferring
    have apart := foreign matched.inferring found' inferring same
    rw [if_neg (fun both => apart both.2), if_neg (fun both => apart (shared ▸ both.2))]
    exact h id s t hook inferring done

end Concluded

namespace Shell

/-- What was sent so far, before a step and after it. -/
def Concluded (shell : Shell) (sent : List ReporterCommand) : Prop :=
  VsFleet.Concluded shell.receiver.claude.core shell.receiver.infer.core sent

/-- What a Claude hook that was understood makes the receiver send. -/
theorem sent_claude {fromStr : String → Option Json} {line body : String} {ev : ClaudeHookEvent}
    (shell : Shell) (iso inferIso : String) (nowMs : Nat)
    (framed : parseFrame line = some (.claude, body))
    (parsed : ClaudeHookEvent.parse fromStr body = .ok ev) :
    shell.sent fromStr (.frame iso inferIso line nowMs) =
      ((shell.receiver.claude.core.ensure ev.sessionId (.new ev.sessionId)).2.withExisting iso
        ev.sessionId (fun m => m.apply ev)).1 ++
      ((shell.receiver.infer.core.ensure ev.sessionId
        (.withDebounceMs ev.sessionId shell.receiver.infer.debounceMs)).2.withExisting inferIso
          ev.sessionId (fun m => m.respond (.hook ev nowMs))).1 := by
  simp only [sent, Receiver.processAt, framed, Receiver.dispatch, parsed, ClaudeAdapter.ingest,
    ClaudeInferAdapter.ingest, AdapterCore.applyAndCommands_eq]
  rfl

/-- What a Codex hook that was understood makes the receiver send. -/
theorem sent_codex {fromStr : String → Option Json} {line body : String} {ev : CodexHookEvent}
    (shell : Shell) (iso inferIso : String) (nowMs : Nat)
    (framed : parseFrame line = some (.codex, body))
    (parsed : CodexHookEvent.parse fromStr body = .ok ev) :
    shell.sent fromStr (.frame iso inferIso line nowMs) =
      ((shell.receiver.codex.core.ensure ev.threadId (.new ev.threadId)).2.withExisting iso
        ev.threadId (fun m => m.apply ev)).1 := by
  simp only [sent, Receiver.processAt, framed, Receiver.dispatch, parsed, CodexAdapter.ingest,
    AdapterCore.applyAndCommands_eq]

/-- A frame that is not understood sends nothing. -/
theorem sent_dropped {fromStr : String → Option Json} {line : String} (shell : Shell)
    (iso inferIso : String) (nowMs : Nat)
    (claude : ∀ body ev, parseFrame line = some (.claude, body) →
      ClaudeHookEvent.parse fromStr body ≠ .ok ev)
    (codex : ∀ body ev, parseFrame line = some (.codex, body) →
      CodexHookEvent.parse fromStr body ≠ .ok ev) :
    shell.sent fromStr (.frame iso inferIso line nowMs) = [] := by
  simp only [sent, Receiver.processAt]
  split
  · rename_i agent body framed
    unfold Receiver.dispatch
    split
    · split
      · rename_i ev parsed
        exact absurd parsed (claude body ev framed)
      · rfl
    · split
      · rename_i ev parsed
        exact absurd parsed (codex body ev framed)
      · rfl
  · rfl

theorem Concluded.step {shell : Shell} {sent : List ReporterCommand} (h : shell.Concluded sent)
    (matched : shell.Matched) (fromStr : String → Option Json) (s : Step) :
    (shell.step fromStr s).Concluded (sent ++ shell.sent fromStr s) := by
  cases s with
  | frame iso inferIso line nowMs =>
    by_cases claude : ∃ body ev, parseFrame line = some (.claude, body) ∧
        ClaudeHookEvent.parse fromStr body = .ok ev
    · obtain ⟨body, ev, framed, parsed⟩ := claude
      obtain ⟨⟨hooks, inferring⟩, rfl, rfl, hooks', inferring', -⟩ :=
        step_claude shell iso inferIso nowMs framed parsed
      unfold Shell.Concluded
      rw [hooks', inferring', sent_claude shell iso inferIso nowMs framed parsed]
      have seen := VsFleet.Matched.enroll matched ev.sessionId shell.receiver.infer.debounceMs
      have concluded := VsFleet.Concluded.enroll h matched ev.sessionId
        shell.receiver.infer.debounceMs
      exact concluded.hook_moves seen ev iso inferIso nowMs (AdapterCore.lookup_ensure ..)
        (AdapterCore.lookup_ensure ..)
    · by_cases codex : ∃ body ev, parseFrame line = some (.codex, body) ∧
          CodexHookEvent.parse fromStr body = .ok ev
      · obtain ⟨body, ev, framed, parsed⟩ := codex
        obtain ⟨threads, rfl, hooks, inferring, -⟩ :=
          step_codex shell iso inferIso nowMs framed parsed
        unfold Shell.Concluded
        rw [hooks, inferring, sent_codex shell iso inferIso nowMs framed parsed]
        refine VsFleet.Concluded.silent h (fun id t there => ?_)
        refine finalReport_withExisting_none iso (fun session found => Or.inr ?_)
        have serves := matched.threads.ensure ev.threadId (.new ev.threadId)
          ⟨rfl, Core.honest_new _, Bool.noConfusion⟩
        obtain ⟨n, minted⟩ := serves.minted ev.threadId session found
        obtain ⟨n', minted'⟩ := matched.inferring.minted id t there
        rw [minted, minted']
        exact fun same => AdapterCore.mint_claude_ne_codex _ _ _ _ same.symm
      · have unread : ∀ body ev, parseFrame line = some (.claude, body) →
            ClaudeHookEvent.parse fromStr body ≠ .ok ev :=
          fun body ev framed parsed => claude ⟨body, ev, framed, parsed⟩
        have unread' : ∀ body ev, parseFrame line = some (.codex, body) →
            CodexHookEvent.parse fromStr body ≠ .ok ev :=
          fun body ev framed parsed => codex ⟨body, ev, framed, parsed⟩
        have dropped := step_dropped shell iso inferIso nowMs unread unread'
        unfold Shell.Concluded
        rw [dropped.1, dropped.2.1, sent_dropped shell iso inferIso nowMs unread unread',
          List.append_nil]
        exact h
  | tick readToString iter vetoIso iso nowMs =>
    obtain ⟨claude, -, driven⟩ :=
      shell.receiver.tickAt_ticked fromStr readToString iter vetoIso iso nowMs
    refine VsFleet.Concluded.driven ?_ h matched.inferring driven
    rintro id e (rfl | ⟨verdict, t, rfl, -⟩) <;> exact fun ev nowMs => InferEvent.noConfusion
  | reap elapsed iter iso =>
    rw [Shell.sent, List.append_nil]
    exact h

/-- Along a run the sessions whose machines are done were last reported so. -/
theorem concluded_log (fromStr : String → Option Json) (steps : List Step) :
    ∀ (shell : Shell) (sent : List ReporterCommand), shell.Matched → shell.Concluded sent →
      (steps.foldl (Shell.step fromStr) shell).Concluded (sent ++ shell.log fromStr steps) := by
  induction steps with
  | nil =>
    intro shell sent _ h
    rw [log, List.append_nil]
    exact h
  | cons s steps ih =>
    intro shell sent matched h
    rw [log, ← List.append_assoc]
    exact ih _ _ (matched.step fromStr s) (h.step matched fromStr s)

/-- After a frame that ends a turn the inferring machine of the session is done. -/
theorem done_of_stop {fromStr : String → Option Json} {line body : String} {ev : ClaudeHookEvent}
    {shell : Shell} (matched : shell.Matched) (iso inferIso : String) (nowMs : Nat)
    (framed : parseFrame line = some (.claude, body))
    (parsed : ClaudeHookEvent.parse fromStr body = .ok ev) (stop : ev.kind = .stop)
    (real : ev.stopHookActive = false) : ∃ s t,
    (shell.step fromStr (.frame iso inferIso line nowMs)).receiver.claude.core.sessions.lookup
      ev.sessionId = some s ∧
    (shell.step fromStr (.frame iso inferIso line nowMs)).receiver.infer.core.sessions.lookup
      ev.sessionId = some t ∧ s.runId = t.runId ∧ t.machine.core.state = .done := by
  obtain ⟨⟨hooks, inferring⟩, rfl, rfl, hooks', inferring', -⟩ :=
    step_claude shell iso inferIso nowMs framed parsed
  have seen := VsFleet.Matched.enroll matched ev.sessionId shell.receiver.infer.debounceMs
  have found := AdapterCore.lookup_ensure shell.receiver.claude.core ev.sessionId
    (.new ev.sessionId)
  have found' := AdapterCore.lookup_ensure shell.receiver.infer.core ev.sessionId
    (.withDebounceMs ev.sessionId shell.receiver.infer.debounceMs)
  have paired := seen.paired ev.sessionId
  rw [found, found'] at paired
  have own := (seen.inferring.machines _ _ found').1
  rw [hooks', inferring', AdapterCore.withExisting_of_some found,
    AdapterCore.withExisting_of_some found']
  refine ⟨_, _, AList.lookup_insert .., AList.lookup_insert .., Option.some.inj paired, ?_⟩
  simp [ClaudeInferMachine.respond, ClaudeInferMachine.apply, own, stop, real, Core.setDone]

/-- A frame that ends a turn and says what the agent said: the last report of the run is that it is
done, but with what was said only where that is the message of the inferring machine anyway. -/
theorem preview_kept_iff (fromStr : String → Option Json) (config : ReporterConfig)
    (steps : List Step) (iso inferIso line : String) (nowMs : Nat) {body msg : String}
    {ev : ClaudeHookEvent} (framed : parseFrame line = some (.claude, body))
    (parsed : ClaudeHookEvent.parse fromStr body = .ok ev) (stop : ev.kind = .stop)
    (real : ev.stopHookActive = false) (_said : ev.lastMessage = some msg) :
    let run := steps ++ [.frame iso inferIso line nowMs]
    (∃ r report, (run.foldl (Shell.step fromStr) (new config)).receiver.claude.core.runIdOf
        ev.sessionId = some r ∧ finalReport r ((new config).log fromStr run) = some report ∧
      report.state = .done ∧ report.lastMessage = some (preview msg)) ↔
      preview msg = "Task complete." := by
  intro run
  have matched := matched_foldl fromStr config steps
  obtain ⟨s, t, found, found', shared, done⟩ :=
    done_of_stop matched iso inferIso nowMs framed parsed stop real
  have start : (new config).Concluded [] := by
    intro id s t hook
    cases hook
  have concluded := concluded_log fromStr run (new config) [] (matched_new config) start
  rw [List.nil_append] at concluded
  have split : run.foldl (Shell.step fromStr) (new config) =
      (steps.foldl (Shell.step fromStr) (new config)).step fromStr
        (.frame iso inferIso line nowMs) := List.foldl_append ..
  rw [split] at concluded ⊢
  obtain ⟨-, report, last, state, message⟩ := concluded _ s t found found' done
  have owned : ((steps.foldl (Shell.step fromStr) (new config)).step fromStr
      (.frame iso inferIso line nowMs)).receiver.claude.core.runIdOf ev.sessionId =
        some t.runId := by
    rw [AdapterCore.runIdOf, found, ← shared]
    rfl
  constructor
  · rintro ⟨r, report', own, last', -, message'⟩
    cases own.symm.trans owned
    cases last'.symm.trans last
    exact Option.some.inj (message'.symm.trans message)
  · intro same
    exact ⟨t.runId, report, owned, last, state, same ▸ message⟩

/-- The first frame of a session ends a turn: what was said is reported, and then overwritten. -/
theorem preview_lost :
    parseFrame ("claude " ++ stopText "All tests pass.") =
      some (.claude, stopText "All tests pass.") ∧
    ClaudeHookEvent.parse (readStop "All tests pass.") (stopText "All tests pass.") =
      .ok { ClaudeHookEvent.plain "s" .stop with lastMessage := some "All tests pass." } ∧
    ¬ ∃ r report, ((new (.new "w")).step (readStop "All tests pass.")
        (stopFrame "All tests pass.")).receiver.claude.core.runIdOf "s" = some r ∧
      finalReport r ((new (.new "w")).log (readStop "All tests pass.")
        [stopFrame "All tests pass."]) = some report ∧ report.state = .done ∧
      report.lastMessage = some (preview "All tests pass.") := by
  refine ⟨by decide, by decide, ?_⟩
  rintro ⟨r, report, own, last, -, kept⟩
  have own' : ((new (.new "w")).step (readStop "All tests pass.")
      (stopFrame "All tests pass.")).receiver.claude.core.runIdOf "s" =
        some "claude:s:run-1" := by decide
  cases own'.symm.trans own
  have message : (finalReport "claude:s:run-1" ((new (.new "w")).log (readStop "All tests pass.")
      [stopFrame "All tests pass."])).map (fun report => report.lastMessage) =
        some (some "Task complete.") := by decide
  rw [last, Option.map_some, kept] at message
  revert message
  decide

/-- A turn that ends with the very words of the inferring machine keeps them. -/
theorem preview_kept_iff_at_words : ∃ r report,
    ([stopFrame "Task complete."].foldl (Shell.step (readStop "Task complete."))
      (new (.new "w"))).receiver.claude.core.runIdOf "s" = some r ∧
    finalReport r ((new (.new "w")).log (readStop "Task complete.")
      [stopFrame "Task complete."]) = some report ∧ report.state = .done ∧
    report.lastMessage = some (preview "Task complete.") := by
  have framed : parseFrame ("claude " ++ stopText "Task complete.") =
      some (.claude, stopText "Task complete.") := by decide
  have parsed : ClaudeHookEvent.parse (readStop "Task complete.") (stopText "Task complete.") =
      .ok { ClaudeHookEvent.plain "s" .stop with lastMessage := some "Task complete." } := by
    decide
  exact (preview_kept_iff (readStop "Task complete.") (.new "w") [] "" ""
    ("claude " ++ stopText "Task complete.") 0 framed parsed rfl rfl rfl).mpr (by decide)

end Shell

end VsFleet
