import VsFleet.Misc.Runs
import VsFleet.Reporter.ClaudeInfer
import VsFleet.Reporter.ClaudeShim
import VsFleet.Reporter.Codex

/-!
# Confidence honesty

Every event takes a machine along one edge of the lifecycle. Only the edge into death and the edge
into waiting can leave a run sure of itself, so that what the four machines claim with high
confidence goes back to an event that says so.
-/

namespace VsFleet

/-- The edges of the lifecycle. -/
inductive Edge where
  | stay
  | working
  | waiting (confidence : Confidence)
  | done
  | dead
  | idle

/-- Death and waiting are taken only for a reason. -/
def Edge.Allowed (ends : Prop) (asks : Confidence → Prop) : Edge → Prop
  | .dead => ends
  | .waiting confidence => asks confidence
  | _ => True

namespace Core

/-- The core at the other end of an edge. -/
def along (core : Core) : Edge → Core
  | .stay => core
  | .working => core.enterWorking
  | .waiting confidence => core.setWaitingApproval confidence
  | .done => core.setDone
  | .dead => core.setDead
  | .idle => core.reviveIdle

/-- The core has gone along an edge, whatever it has noted in passing. -/
structure Moves (core : Core) (edge : Edge) (core' : Core) : Prop where
  nativeId : core'.nativeId = core.nativeId
  state : core'.state = (core.along edge).state
  urgency : core'.urgency = (core.along edge).urgency
  confidence : core'.confidence = (core.along edge).confidence

theorem Moves.refl (core : Core) : core.Moves .stay core := ⟨rfl, rfl, rfl, rfl⟩

/-- What is noted in passing does not matter. -/
theorem Moves.of_note {core core' : Core} {edge : Edge} {cwd tool : Option String}
    (h : (core.note cwd tool).Moves edge core') : core.Moves edge core' := by
  obtain ⟨nativeId, state, urgency, confidence⟩ := h
  refine ⟨by simpa using nativeId, ?_, ?_, ?_⟩
  all_goals cases edge <;> simp_all [along, enterWorking, setWaitingApproval, setDone, setDead,
    reviveIdle]

/-- A core that is urgent exactly where it waits, and sure only where it waits or is dead. -/
structure Honest (core : Core) : Prop where
  urgent : core.urgency.isSome ↔ core.state = .waiting
  sure : core.confidence = .high → core.state = .dead ∨ core.state = .waiting

theorem honest_new (id : String) : (new id).Honest := ⟨by simp [new], by simp [new]⟩

theorem Honest.moves {core core' : Core} {edge : Edge} (h : core.Honest)
    (move : core.Moves edge core') : core'.Honest := by
  obtain ⟨-, state, urgency, confidence⟩ := move
  constructor
  · rw [state, urgency]
    cases edge with
    | stay => exact h.urgent
    | _ => simp [along, enterWorking, setWaitingApproval, setDone, setDead, reviveIdle]
  · rw [state, confidence]
    cases edge with
    | stay => exact h.sure
    | _ => simp [along, enterWorking, setWaitingApproval, setDone, setDead, reviveIdle]

/-- A core becomes sure by dying or by waiting on a sure signal. -/
theorem Moves.sure {core core' : Core} {edge : Edge} (move : core.Moves edge core') {state : State}
    (before : ¬ (core.confidence = .high ∧ core.state = state))
    (after : core'.confidence = .high ∧ core'.state = state) :
    (state = .dead ∧ edge = .dead) ∨ (state = .waiting ∧ edge = .waiting .high) := by
  rw [move.state, move.confidence] at after
  cases edge with
  | stay => exact absurd after before
  | dead => exact Or.inl ⟨after.2.symm, rfl⟩
  | waiting confidence => exact Or.inr ⟨after.2.symm, congrArg Edge.waiting after.1⟩
  | _ => cases after.1

end Core

/-! ## What the events of each machine do -/

theorem ClaudeStateMachine.apply_moves (m : ClaudeStateMachine) (ev : ClaudeHookEvent) :
    ∃ edge, m.core.Moves edge (m.apply ev).2.core ∧
      edge.Allowed (ev.sessionId = m.core.nativeId ∧ ev.kind = .sessionEnd) (fun _ => False) := by
  unfold ClaudeStateMachine.apply
  split
  · exact ⟨.stay, .refl _, trivial⟩
  · rename_i own
    dsimp only
    split
    case h_1 | h_2 => exact ⟨.working, .of_note ⟨rfl, rfl, rfl, rfl⟩, trivial⟩
    case h_3 =>
      split
      · exact ⟨.stay, .of_note (.refl _), trivial⟩
      · exact ⟨.done, .of_note ⟨rfl, rfl, rfl, rfl⟩, trivial⟩
    case h_4 end_ => exact ⟨.dead, .of_note ⟨rfl, rfl, rfl, rfl⟩, not_not.mp own, end_⟩
    case h_5 =>
      split
      · exact ⟨.idle, .of_note ⟨rfl, rfl, rfl, rfl⟩, trivial⟩
      · exact ⟨.stay, .of_note (.refl _), trivial⟩
    all_goals exact ⟨.stay, .of_note (.refl _), trivial⟩

theorem CodexStateMachine.resume_moves (m : CodexStateMachine) :
    m.core.Moves .working m.resume.2.core := ⟨rfl, rfl, rfl, rfl⟩

theorem CodexStateMachine.apply_moves (m : CodexStateMachine) (ev : CodexHookEvent) :
    ∃ edge, m.core.Moves edge (m.apply ev).2.core ∧
      edge.Allowed False
        (fun _ => ev.threadId = m.core.nativeId ∧ ev.kind = .permissionRequest) := by
  unfold CodexStateMachine.apply
  split
  · exact ⟨.stay, .refl _, trivial⟩
  · rename_i own
    dsimp only
    split
    case h_1 | h_2 => exact ⟨.working, .of_note (resume_moves (m.absorb ev)), trivial⟩
    case h_3 asks =>
      exact ⟨.waiting .high, .of_note ⟨rfl, rfl, rfl, rfl⟩, not_not.mp own, asks⟩
    case h_4 =>
      split
      · exact ⟨.working, .of_note (resume_moves (m.absorb ev)), trivial⟩
      · exact ⟨.done, .of_note ⟨rfl, rfl, rfl, rfl⟩, trivial⟩
    all_goals exact ⟨.stay, .of_note (.refl _), trivial⟩

/-- The session an event of the shim machine is about. -/
def ShimEvent.sessionId : ShimEvent → String
  | .hook ev => ev.sessionId
  | .approval req => req.sessionId

/-- An event that says that the agent asks for permission. -/
def ShimEvent.Asks : ShimEvent → Prop
  | .hook ev => isPermissionRequest ev.kind
  | .approval _ => True

/-- The end of the session. -/
def ShimEvent.Ends : ShimEvent → Prop
  | .hook ev => ev.kind = .sessionEnd
  | .approval _ => False

namespace ClaudeShimStateMachine

theorem resume_moves (m : ClaudeShimStateMachine) : m.core.Moves .working m.resume.2.core :=
  ⟨rfl, rfl, rfl, rfl⟩

theorem raiseApproval_moves (m : ClaudeShimStateMachine) :
    m.core.Moves (.waiting m.ctx.approvalConfidence) m.raiseApproval.2.core :=
  ⟨rfl, rfl, rfl, rfl⟩

theorem step_moves (m : ClaudeShimStateMachine) (e : ShimEvent) :
    ∃ edge, m.core.Moves edge (m.step e).core ∧
      edge.Allowed (e.sessionId = m.core.nativeId ∧ e.Ends) (fun confidence =>
        e.sessionId = m.core.nativeId ∧ e.Asks ∧ confidence = m.ctx.approvalConfidence) := by
  cases e with
  | hook ev =>
    simp only [step, apply]
    split
    · exact ⟨.stay, .refl _, trivial⟩
    · rename_i own
      have own := not_not.mp own
      split
      · rename_i asks
        exact ⟨_, .of_note (raiseApproval_moves { m with core := _ }), own, asks, rfl⟩
      · split
        case h_1 | h_2 =>
          exact ⟨.working, .of_note (resume_moves { m with core := _ }), trivial⟩
        case h_3 =>
          split
          · exact ⟨.working, .of_note (resume_moves { m with core := _ }), trivial⟩
          · exact ⟨.done, .of_note ⟨rfl, rfl, rfl, rfl⟩, trivial⟩
        case h_4 ends => exact ⟨.dead, .of_note ⟨rfl, rfl, rfl, rfl⟩, own, ends⟩
        case h_5 =>
          split
          · exact ⟨.idle, .of_note ⟨rfl, rfl, rfl, rfl⟩, trivial⟩
          · exact ⟨.stay, .of_note (.refl _), trivial⟩
        all_goals exact ⟨.stay, .of_note (.refl _), trivial⟩
  | approval req =>
    simp only [step, applyApproval]
    split
    · exact ⟨.stay, .refl _, trivial⟩
    · rename_i own
      exact ⟨_, .of_note (raiseApproval_moves { m with core := _ }), not_not.mp own, trivial, rfl⟩

end ClaudeShimStateMachine

/-- The end of a session is told to the inferring machine by a hook. -/
def InferEvent.Ends (id : String) : InferEvent → Prop
  | .hook ev _ => ev.sessionId = id ∧ ev.kind = .sessionEnd
  | _ => False

namespace ClaudeInferMachine

theorem resume_moves (m : ClaudeInferMachine) : m.core.Moves .working m.resume.2.core :=
  ⟨rfl, rfl, rfl, rfl⟩

theorem apply_moves (m : ClaudeInferMachine) (ev : ClaudeHookEvent) (nowMs : Nat) :
    ∃ edge, m.core.Moves edge (m.apply ev nowMs).2.core ∧
      edge.Allowed (ev.sessionId = m.core.nativeId ∧ ev.kind = .sessionEnd) (fun _ => False) := by
  unfold apply
  split
  · exact ⟨.stay, .refl _, trivial⟩
  · rename_i own
    dsimp only
    split
    case h_1 | h_2 =>
      exact ⟨.working, .of_note (resume_moves { m with core := _ }), trivial⟩
    case h_3 =>
      split
      · exact ⟨.working, .of_note (resume_moves { m with core := _ }), trivial⟩
      · exact ⟨.done, .of_note ⟨rfl, rfl, rfl, rfl⟩, trivial⟩
    case h_4 ends => exact ⟨.dead, .of_note ⟨rfl, rfl, rfl, rfl⟩, not_not.mp own, ends⟩
    case h_5 =>
      split
      · exact ⟨.idle, .of_note ⟨rfl, rfl, rfl, rfl⟩, trivial⟩
      · exact ⟨.stay, .of_note (.refl _), trivial⟩
    case h_6 =>
      split
      · exact ⟨.working, .of_note ⟨rfl, rfl, rfl, rfl⟩, trivial⟩
      · exact ⟨.stay, .of_note (.refl _), trivial⟩
    all_goals exact ⟨.stay, .of_note (.refl _), trivial⟩

theorem step_moves (m : ClaudeInferMachine) (e : InferEvent) :
    ∃ edge, m.core.Moves edge (m.step e).core ∧
      edge.Allowed (e.Ends m.core.nativeId) (fun confidence => confidence = .inferred) := by
  cases e with
  | hook ev nowMs =>
    obtain ⟨edge, moves, allowed⟩ := m.apply_moves ev nowMs
    refine ⟨edge, moves, ?_⟩
    cases edge with
    | waiting confidence => exact allowed.elim
    | _ => exact allowed
  | tick nowMs =>
    simp only [step, respond, tick]
    split
    · exact ⟨.waiting .inferred, ⟨rfl, rfl, rfl, rfl⟩, rfl⟩
    · exact ⟨.stay, .refl _, trivial⟩
  | corroborate verdict =>
    simp only [step, respond, corroborate]
    split
    · split
      · exact ⟨.working, ⟨rfl, rfl, rfl, rfl⟩, trivial⟩
      · exact ⟨.stay, .refl _, trivial⟩
    all_goals exact ⟨.stay, .refl _, trivial⟩

end ClaudeInferMachine

/-! ## What the machines build -/

/-- A run that is sure of itself only where its machine was told, and is urgent and stamped exactly
where it waits. -/
structure AgentRun.Honest (run : AgentRun) (ended asked : Prop) : Prop where
  sure : run.confidence = .high → (run.state = .dead ∧ ended) ∨ (run.state = .waiting ∧ asked)
  urgent : run.urgency.isSome ↔ run.state = .waiting
  stamped : run.waitingSince.isSome ↔ run.state = .waiting

/-- A machine whose runs are honest whatever it is fed, and that is deaf to what is not meant for
it. The end and the request it goes by are the ones it has stayed dead or waiting since. -/
structure HonestMachine {M E : Type} [RunMachine M] (step : M → E → M) (start : M)
    (foreign ends asks : E → Prop) : Prop where
  honest : ∀ events runId iso, (RunMachine.buildRun (events.foldl step start) runId iso).Honest
    (Since step ends (fun m => (RunMachine.buildRun m runId iso).state = .dead) start events)
    (Since step asks (fun m => (RunMachine.buildRun m runId iso).state = .waiting) start events)
  deaf : ∀ (events : List E) e, foreign e →
    step (events.foldl step start) e = events.foldl step start

theorem HonestMachine.of_moves {M E : Type} [RunMachine M] {step : M → E → M} {start : M}
    {foreign ends asks : E → Prop} (core : M → Core) (inv : M → Prop) {id : String}
    (built : ∀ m runId iso, ∃ agentKind msg,
      RunMachine.buildRun m runId iso = (core m).toRun agentKind runId iso msg)
    (begins : core start = .new id) (start_inv : inv start)
    (keeps : ∀ m e, inv m → inv (step m e))
    (moves : ∀ m e, inv m → ∃ edge, (core m).Moves edge (core (step m e)) ∧
      edge.Allowed (ends e) (fun confidence => confidence = .high → asks e))
    (deaf : ∀ m e, inv m → foreign e → step m e = m) :
    HonestMachine step start foreign ends asks := by
  have reached : ∀ events : List E, inv (events.foldl step start) ∧
      (core (events.foldl step start)).Honest := by
    intro events
    refine foldl_invariant (fun m => inv m ∧ (core m).Honest) ?_ events start
      ⟨start_inv, begins ▸ Core.honest_new id⟩
    rintro m e ⟨h, honest⟩
    obtain ⟨edge, move, -⟩ := moves m e h
    exact ⟨keeps m e h, honest.moves move⟩
  refine ⟨fun events runId iso => ?_, fun events e => deaf _ e (reached events).1⟩
  have state : ∀ m, (RunMachine.buildRun m runId iso).state = (core m).state := by
    intro m
    obtain ⟨agentKind, msg, eq⟩ := built m runId iso
    rw [eq]
    rfl
  have honest := (reached events).2
  -- a sure run came to be sure in its state by an event that may say so
  have since : ∀ (P : E → Prop) (s : State),
      (∀ m e, inv m → ¬ ((core m).confidence = .high ∧ (core m).state = s) →
        (core (step m e)).confidence = .high ∧ (core (step m e)).state = s → P e) →
      (core (events.foldl step start)).confidence = .high →
      (core (events.foldl step start)).state = s →
      Since step P (fun m => (RunMachine.buildRun m runId iso).state = s) start events := by
    intro P s enters sure is
    refine (Since.of_enters keeps enters start_inv ?_ events ⟨sure, is⟩).mono ?_
    · rw [begins]
      rintro ⟨h, -⟩
      cases h
    · rintro m ⟨-, h⟩
      rw [state, h]
  obtain ⟨agentKind, msg, eq⟩ := built (events.foldl step start) runId iso
  rw [eq]
  refine ⟨fun sure => ?_, honest.urgent, ?_⟩
  · rcases honest.sure sure with is | is
    · refine Or.inl ⟨is, since _ _ (fun m e h before after => ?_) sure is⟩
      obtain ⟨edge, move, allowed⟩ := moves m e h
      rcases move.sure before after with ⟨-, rfl⟩ | ⟨contra, -⟩
      · exact allowed
      · cases contra
    · refine Or.inr ⟨is, since _ _ (fun m e h before after => ?_) sure is⟩
      obtain ⟨edge, move, allowed⟩ := moves m e h
      rcases move.sure before after with ⟨contra, -⟩ | ⟨-, rfl⟩
      · cases contra
      · exact allowed rfl
  · simp only [Core.toRun]
    split <;> simp [*]

namespace Core

/-- Waiting is entered along its own edges alone. -/
theorem Moves.not_waiting {core core' : Core} {edge : Edge} (move : core.Moves edge core')
    (before : core.state ≠ .waiting) (other : ∀ confidence, edge ≠ .waiting confidence) :
    core'.state ≠ .waiting := by
  rw [move.state]
  cases edge with
  | stay => exact before
  | waiting confidence => exact absurd rfl (other confidence)
  | _ => exact State.noConfusion

end Core

/-- The hooks-first machine never waits. -/
theorem ClaudeStateMachine.state_ne_waiting (id : String) (events : List ClaudeHookEvent) :
    (events.foldl (fun m ev => (m.apply ev).2) (new id)).core.state ≠ .waiting := by
  refine foldl_invariant (fun m : ClaudeStateMachine => m.core.state ≠ .waiting) ?_ events
    (new id) (by simp [new, Core.new])
  intro m ev before
  obtain ⟨edge, move, allowed⟩ := m.apply_moves ev
  refine move.not_waiting before ?_
  rintro confidence rfl
  exact allowed

theorem ClaudeStateMachine.honest (id : String) :
    HonestMachine (fun m ev => (ClaudeStateMachine.apply m ev).2) (.new id)
      (fun ev => ev.sessionId ≠ id) (fun ev => ev.sessionId = id ∧ ev.kind = .sessionEnd)
      (fun _ => False) := by
  refine .of_moves (fun m => m.core) (fun m => m.core.nativeId = id)
    (fun m _ _ => ⟨.claudeCode, m.lastMessage, rfl⟩) rfl rfl ?_ ?_ ?_
  · intro m ev own
    obtain ⟨edge, move, -⟩ := m.apply_moves ev
    exact move.nativeId.trans own
  · rintro m ev rfl
    obtain ⟨edge, move, allowed⟩ := m.apply_moves ev
    refine ⟨edge, move, ?_⟩
    cases edge with
    | waiting confidence => exact allowed.elim
    | _ => exact allowed
  · rintro m ev rfl foreign
    simp only [apply, if_pos foreign]

theorem CodexStateMachine.honest (id : String) :
    HonestMachine (fun m ev => (CodexStateMachine.apply m ev).2) (.new id)
      (fun ev => ev.threadId ≠ id) (fun _ => False)
      (fun ev => ev.threadId = id ∧ ev.kind = .permissionRequest) := by
  refine .of_moves (fun m => m.core) (fun m => m.core.nativeId = id)
    (fun m _ _ => ⟨.codex, m.lastMessage, rfl⟩) rfl rfl ?_ ?_ ?_
  · intro m ev own
    obtain ⟨edge, move, -⟩ := m.apply_moves ev
    exact move.nativeId.trans own
  · rintro m ev rfl
    obtain ⟨edge, move, allowed⟩ := m.apply_moves ev
    refine ⟨edge, move, ?_⟩
    cases edge with
    | waiting confidence => exact fun _ => allowed
    | _ => exact allowed
  · rintro m ev rfl foreign
    simp only [apply, if_pos foreign]

/-- A request makes the shim machine sure only in the terminal of the shim. -/
theorem LaunchContext.approvalConfidence_eq_high {ctx : LaunchContext} :
    ctx.approvalConfidence = .high ↔ ctx = .shimTerminal := by cases ctx <;> decide

theorem ClaudeShimStateMachine.step_ctx (m : ClaudeShimStateMachine) (e : ShimEvent) :
    (m.step e).ctx = m.ctx := by
  cases e with
  | hook ev =>
    simp only [step, apply]
    repeat' split
    all_goals rfl
  | approval req =>
    simp only [step, applyApproval]
    split <;> rfl

theorem ClaudeShimStateMachine.honest (id : String) (ctx : LaunchContext) :
    HonestMachine ClaudeShimStateMachine.step (.new id ctx) (fun e => e.sessionId ≠ id)
      (fun e => e.sessionId = id ∧ e.Ends)
      (fun e => e.sessionId = id ∧ e.Asks ∧ ctx = .shimTerminal) := by
  refine .of_moves (fun m => m.core) (fun m => m.core.nativeId = id ∧ m.ctx = ctx)
    (fun m _ _ => ⟨.claudeCode, m.lastMessage, rfl⟩) rfl ⟨rfl, rfl⟩ ?_ ?_ ?_
  · rintro m e ⟨own, same⟩
    obtain ⟨edge, move, -⟩ := m.step_moves e
    exact ⟨move.nativeId.trans own, (m.step_ctx e).trans same⟩
  · rintro m e ⟨rfl, rfl⟩
    obtain ⟨edge, move, allowed⟩ := m.step_moves e
    refine ⟨edge, move, ?_⟩
    cases edge with
    | waiting confidence =>
      obtain ⟨own, asks, rfl⟩ := allowed
      exact fun sure => ⟨own, asks, LaunchContext.approvalConfidence_eq_high.mp sure⟩
    | _ => exact allowed
  · rintro m e ⟨rfl, -⟩ foreign
    cases e with
    | hook ev =>
      have foreign : ev.sessionId ≠ m.core.nativeId := foreign
      simp only [step, apply, if_pos foreign]
    | approval req =>
      have foreign : req.sessionId ≠ m.core.nativeId := foreign
      simp only [step, applyApproval, if_pos foreign]

/-- A hook of another session. -/
def InferEvent.Foreign (id : String) : InferEvent → Prop
  | .hook ev _ => ev.sessionId ≠ id
  | _ => False

theorem ClaudeInferMachine.honest (id : String) (debounceMs : Nat) :
    HonestMachine ClaudeInferMachine.step (.withDebounceMs id debounceMs) (InferEvent.Foreign id)
      (InferEvent.Ends id) (fun _ => False) := by
  refine .of_moves (fun m => m.core) (fun m => m.core.nativeId = id)
    (fun m _ _ => ⟨.claudeCode, m.lastMessage, rfl⟩) rfl rfl ?_ ?_ ?_
  · intro m e own
    obtain ⟨edge, move, -⟩ := m.step_moves e
    exact move.nativeId.trans own
  · rintro m e rfl
    obtain ⟨edge, move, allowed⟩ := m.step_moves e
    refine ⟨edge, move, ?_⟩
    cases edge with
    | waiting confidence =>
      rintro rfl
      cases allowed
    | _ => exact allowed
  · rintro m e rfl foreign
    cases e with
    | hook ev nowMs =>
      have foreign : ev.sessionId ≠ m.core.nativeId := foreign
      simp only [step, respond, apply, if_pos foreign]
    | tick nowMs => cases foreign
    | corroborate verdict => cases foreign

/-- All four machines are honest about their confidence. The hooks-first one never waits, and the
inferring one is never sure that it does. -/
theorem confidence_honest (id : String) (ctx : LaunchContext) (debounceMs : Nat) :
    (HonestMachine (fun m ev => (ClaudeStateMachine.apply m ev).2) (.new id)
        (fun ev => ev.sessionId ≠ id) (fun ev => ev.sessionId = id ∧ ev.kind = .sessionEnd)
        (fun _ => False) ∧
      ∀ events : List ClaudeHookEvent,
        (events.foldl (fun m ev => (ClaudeStateMachine.apply m ev).2) (.new id)).core.state ≠
          .waiting) ∧
    HonestMachine (fun m ev => (CodexStateMachine.apply m ev).2) (.new id)
      (fun ev => ev.threadId ≠ id) (fun _ => False)
      (fun ev => ev.threadId = id ∧ ev.kind = .permissionRequest) ∧
    HonestMachine ClaudeShimStateMachine.step (.new id ctx) (fun e => e.sessionId ≠ id)
      (fun e => e.sessionId = id ∧ e.Ends)
      (fun e => e.sessionId = id ∧ e.Asks ∧ ctx = .shimTerminal) ∧
    (HonestMachine ClaudeInferMachine.step (.withDebounceMs id debounceMs) (InferEvent.Foreign id)
        (InferEvent.Ends id) (fun _ => False) ∧
      ∀ events : List InferEvent,
        (events.foldl ClaudeInferMachine.step (.withDebounceMs id debounceMs)).core.state =
          .waiting →
        (events.foldl ClaudeInferMachine.step (.withDebounceMs id debounceMs)).core.confidence =
          .inferred) := by
  refine ⟨⟨ClaudeStateMachine.honest id, ClaudeStateMachine.state_ne_waiting id⟩,
    CodexStateMachine.honest id, ClaudeShimStateMachine.honest id ctx,
    ClaudeInferMachine.honest id debounceMs, fun events waits => ?_⟩
  have honest := (ClaudeInferMachine.honest id debounceMs).honest events "" ""
  cases sure : (events.foldl ClaudeInferMachine.step (.withDebounceMs id debounceMs)).core.confidence
    with
  | inferred => rfl
  | high =>
    rcases honest.sure sure with ⟨dead, -⟩ | ⟨-, since⟩
    · cases waits.symm.trans dead
    · obtain ⟨-, -, -, -, asked, -⟩ := since
      exact asked.elim

end VsFleet
