import VsFleet.Reporter.Machine
import VsFleet.Reporter.Payload

/-!
# The Codex adapter

The hook events of Codex and the machine that reads a run's state off them
(`fleet-reporter/src/codex.rs`). A permission request is the one authoritative signal; no hook says
that a thread ended.
-/

namespace VsFleet

/-- `CodexHookKind` (`codex.rs:77-96`). -/
inductive CodexHookKind where
  | sessionStart
  | userPromptSubmit
  | preToolUse
  | postToolUse
  | permissionRequest
  | stop
  | preCompact
  | postCompact
  | other (name : String)
  deriving DecidableEq, Repr

/-- `from_name` (`codex.rs:99-111`). -/
def CodexHookKind.fromName (name : String) : CodexHookKind :=
  match name with
  | "SessionStart" => .sessionStart
  | "UserPromptSubmit" => .userPromptSubmit
  | "PreToolUse" => .preToolUse
  | "PostToolUse" => .postToolUse
  | "PermissionRequest" => .permissionRequest
  | "Stop" => .stop
  | "PreCompact" => .preCompact
  | "PostCompact" => .postCompact
  | _ => .other name

/-- `CodexHookEvent` (`codex.rs:133-154`). -/
structure CodexHookEvent where
  kind : CodexHookKind
  threadId : String
  turnId : Option String
  cwd : Option String
  toolName : Option String
  stopHookActive : Bool
  lastMessage : Option String
  toolUseId : Option String
  deriving DecidableEq, Repr

/-- `RawCodexHook` (`codex.rs:162-182`). -/
structure RawCodexHook where
  hookEventName : Option String
  sessionId : Option String
  turnId : Option String
  cwd : Option String
  toolName : Option String
  stopHookActive : Option Bool
  lastAssistantMessage : Option String
  toolUseId : Option String

/-- The derived decoding of `RawCodexHook`. -/
def RawCodexHook.decode (v : Json) : Option RawCodexHook := do
  let fields ← v.structFields ["hook_event_name", "session_id", "turn_id", "cwd", "tool_name",
    "stop_hook_active", "last_assistant_message", "tool_use_id"]
  return {
    hookEventName := ← optionalField Json.asString ["hook_event_name", "hookEventName"] fields
    sessionId := ← optionalField Json.asString
      ["session_id", "sessionId", "thread_id", "threadId"] fields
    turnId := ← optionalField Json.asString ["turn_id", "turnId"] fields
    cwd := ← optionalField Json.asString ["cwd"] fields
    toolName := ← optionalField Json.asString ["tool_name", "toolName"] fields
    stopHookActive := ← optionalField Json.asBool ["stop_hook_active", "stopHookActive"] fields
    lastAssistantMessage := ← optionalField Json.asString
      ["last_assistant_message", "lastAssistantMessage"] fields
    toolUseId := ← optionalField Json.asString ["tool_use_id", "toolUseId"] fields }

/-- `CodexParseError` (`codex.rs:187-197`). What serde says of invalid JSON is only logged. -/
inductive CodexParseError where
  | invalidJson
  | missingEventName
  | missingThreadId
  deriving DecidableEq, Repr

namespace CodexHookEvent

/-- `from_raw` (`codex.rs:219-239`). -/
def fromRaw (raw : RawCodexHook) : Except CodexParseError CodexHookEvent :=
  match raw.hookEventName with
  | none => .error .missingEventName
  | some name =>
    match nonEmpty raw.sessionId with
    | none => .error .missingThreadId
    | some threadId => .ok {
        kind := .fromName name
        threadId := threadId
        turnId := raw.turnId
        cwd := raw.cwd
        toolName := raw.toolName
        stopHookActive := raw.stopHookActive.getD false
        lastMessage := nonEmpty raw.lastAssistantMessage
        toolUseId := nonEmpty raw.toolUseId }

/-- `parse` (`codex.rs:205-209`), with what reads a text as JSON. -/
def parse (fromStr : String → Option Json) (json : String) :
    Except CodexParseError CodexHookEvent :=
  match (fromStr json).bind RawCodexHook.decode with
  | none => .error .invalidJson
  | some raw => fromRaw raw

end CodexHookEvent

/-- `CodexStateMachine` (`codex.rs:254-261`). -/
structure CodexStateMachine where
  core : Core
  lastAssistantMessage : Option String
  deriving DecidableEq, Repr

namespace CodexStateMachine

/-- `new` (`codex.rs:267-272`). -/
def new (threadId : String) : CodexStateMachine := ⟨.new threadId, none⟩

/-- What `apply` takes over from an event before it looks at its kind. -/
def absorb (m : CodexStateMachine) (ev : CodexHookEvent) : CodexStateMachine where
  core := m.core.note ev.cwd ev.toolName
  lastAssistantMessage := ev.lastMessage.or m.lastAssistantMessage

/-- A hook that shows activity ends an approval and leaves the run working. -/
def resume (m : CodexStateMachine) : Transition × CodexStateMachine :=
  let resolved := m.core.pendingApproval
  let wasWorking : Bool := m.core.state = .working ∧ m.core.urgency = none
  let core := m.core.enterWorking
  (core.transition (!wasWorking || resolved) resolved true, { m with core })

/-- `apply` (`codex.rs:307-375`). -/
def apply (m : CodexStateMachine) (ev : CodexHookEvent) : Transition × CodexStateMachine :=
  if ev.threadId ≠ m.core.nativeId then (m.core.noOp false, m)
  else
    let m := m.absorb ev
    match ev.kind with
    | .userPromptSubmit | .preToolUse => m.resume
    | .permissionRequest =>
      let core := m.core.setWaitingApproval .high
      (core.transition true false true, { m with core })
    | .stop =>
      if ev.stopHookActive then m.resume
      else
        let resolved := m.core.pendingApproval
        let changed : Bool := m.core.state ≠ .done ∨ m.core.urgency ≠ none
        let core := m.core.setDone
        (core.transition (changed || resolved) resolved false, { m with core })
    | .sessionStart | .postToolUse | .preCompact | .postCompact => (m.core.noOp true, m)
    | .other _ => (m.core.noOp false, m)

/-- `last_message` (`codex.rs:389-408`). -/
def lastMessage (m : CodexStateMachine) : Option String :=
  match m.core.state with
  | .waiting =>
    match m.core.lastTool with
    | some t => some s!"Approve {t}?"
    | none => some "Approval required"
  | .working => m.core.lastTool.map (fun t => s!"Running {t}…")
  | .done => some ((m.lastAssistantMessage.map preview).getD "Task complete.")
  | _ => none

/-- `to_run` (`codex.rs:380-387`). -/
def toRun (m : CodexStateMachine) (runId updatedAt : String) : AgentRun :=
  m.core.toRun .codex runId updatedAt m.lastMessage

end CodexStateMachine

instance : RunMachine CodexStateMachine := ⟨fun m => m.core.state, CodexStateMachine.toRun⟩

/-- `CodexAdapter` (`codex.rs:442-444`). -/
structure CodexAdapter where
  core : AdapterCore CodexStateMachine

/-- `new` (`codex.rs:457-461`). -/
def CodexAdapter.new : CodexAdapter := ⟨.new "codex"⟩

/-- `ingest` (`codex.rs:498-504`). The transition it also returns is read by tests alone. -/
def CodexAdapter.ingest (adapter : CodexAdapter) (iso : String) (ev : CodexHookEvent) :
    List ReporterCommand × CodexAdapter :=
  let (cmds, core) := adapter.core.applyAndCommands iso ev.threadId (.new ev.threadId)
    (fun m => m.apply ev)
  (cmds, ⟨core⟩)

end VsFleet
