import VsFleet.Reporter.Claude

/-!
# Claude under the shim

The machine for a `claude` that may run in the terminal of the shim
(`fleet-reporter/src/claude_shim.rs`). A permission request is authoritative there and a guess
everywhere else.
-/

namespace VsFleet

/-- `LaunchContext` (`claude_shim.rs:62-72`). -/
inductive LaunchContext where
  | shimTerminal
  | nativeUi
  deriving DecidableEq, Repr

namespace LaunchContext

/-- `permission_request_is_authoritative` (`claude_shim.rs:78-80`). -/
def permissionRequestIsAuthoritative (ctx : LaunchContext) : Bool := ctx = .shimTerminal

/-- `approval_confidence` (`claude_shim.rs:85-91`). -/
def approvalConfidence (ctx : LaunchContext) : Confidence :=
  if ctx.permissionRequestIsAuthoritative then .high else .inferred

end LaunchContext

/-- `ApprovalRequest` (`claude_shim.rs:120-127`). -/
structure ApprovalRequest where
  sessionId : String
  cwd : Option String
  toolName : Option String
  deriving DecidableEq, Repr

/-- `is_permission_request` (`claude_shim.rs:161-163`). -/
def isPermissionRequest (kind : ClaudeHookKind) : Bool := kind = .other "PermissionRequest"

/-- `ClaudeShimStateMachine` (`claude_shim.rs:183-190`). -/
structure ClaudeShimStateMachine where
  core : Core
  ctx : LaunchContext
  deriving DecidableEq, Repr

namespace ClaudeShimStateMachine

/-- `new` (`claude_shim.rs:194-199`). -/
def new (sessionId : String) (ctx : LaunchContext) : ClaudeShimStateMachine := ⟨.new sessionId, ctx⟩

/-- `raise_approval` (`claude_shim.rs:320-327`). -/
def raiseApproval (m : ClaudeShimStateMachine) : Transition × ClaudeShimStateMachine :=
  let core := m.core.setWaitingApproval m.ctx.approvalConfidence
  (core.transition true false true, { m with core })

/-- A hook that shows activity ends an approval and leaves the run working. -/
def resume (m : ClaudeShimStateMachine) : Transition × ClaudeShimStateMachine :=
  let resolved := m.core.pendingApproval
  let wasWorking : Bool := m.core.state = .working ∧ m.core.urgency = none
  let core := m.core.enterWorking
  (core.transition (!wasWorking || resolved) resolved true, { m with core })

/-- `apply` (`claude_shim.rs:233-290`). -/
def apply (m : ClaudeShimStateMachine) (ev : ClaudeHookEvent) :
    Transition × ClaudeShimStateMachine :=
  if ev.sessionId ≠ m.core.nativeId then (m.core.noOp false, m)
  else
    let m := { m with core := m.core.note ev.cwd ev.toolName }
    if isPermissionRequest ev.kind then m.raiseApproval
    else
      match ev.kind with
      | .userPromptSubmit | .preToolUse => m.resume
      | .stop =>
        if ev.stopHookActive then m.resume
        else
          let resolved := m.core.pendingApproval
          let changed : Bool := m.core.state ≠ .done ∨ m.core.urgency ≠ none
          let core := m.core.setDone
          (core.transition (changed || resolved) resolved false, { m with core })
      | .sessionEnd =>
        let core := m.core.setDead
        (core.transition (m.core.state ≠ .dead) false false, { m with core })
      | .sessionStart =>
        if m.core.state = .dead then
          let core := m.core.reviveIdle
          ((core.noOp false).intoChanged, { m with core })
        else (m.core.noOp false, m)
      | .postToolUse | .subagentStop | .preCompact => (m.core.noOp true, m)
      | .other _ => (m.core.noOp false, m)

/-- `apply_approval` (`claude_shim.rs:297-304`). -/
def applyApproval (m : ClaudeShimStateMachine) (req : ApprovalRequest) :
    Transition × ClaudeShimStateMachine :=
  if req.sessionId ≠ m.core.nativeId then (m.core.noOp false, m)
  else raiseApproval { m with core := m.core.note req.cwd req.toolName }

/-- `last_message` (`claude_shim.rs:329-340`). -/
def lastMessage (m : ClaudeShimStateMachine) : Option String :=
  match m.core.state with
  | .waiting =>
    match m.core.lastTool with
    | some t => some s!"Approve {t}?"
    | none => some "Approval required"
  | .working => m.core.lastTool.map (fun t => s!"Running {t}…")
  | .done => some "Task complete."
  | .dead => some "Session closed."
  | _ => none

/-- `to_run` (`claude_shim.rs:309-316`). -/
def toRun (m : ClaudeShimStateMachine) (runId updatedAt : String) : AgentRun :=
  m.core.toRun .claudeCode runId updatedAt m.lastMessage

end ClaudeShimStateMachine

/-- What the machine is fed: hooks and approvals. -/
inductive ShimEvent where
  | hook (ev : ClaudeHookEvent)
  | approval (req : ApprovalRequest)
  deriving DecidableEq, Repr

/-- The machine after an event. -/
def ClaudeShimStateMachine.step (m : ClaudeShimStateMachine) : ShimEvent → ClaudeShimStateMachine
  | .hook ev => (m.apply ev).2
  | .approval req => (m.applyApproval req).2

instance : RunMachine ClaudeShimStateMachine := ⟨fun m => m.core.state, ClaudeShimStateMachine.toRun⟩

end VsFleet
