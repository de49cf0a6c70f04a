import VsFleet.Reporter.Machine
import VsFleet.Reporter.Payload

/-!
# The Claude adapter

The hook events of Claude and the machine that reads a run's state off them
(`fleet-reporter/src/claude.rs`). This machine never waits: no hook of the native panel says that
the agent asks for something.
-/

namespace VsFleet

/-- `ClaudeHookKind` (`claude.rs:76-96`). -/
inductive ClaudeHookKind where
  | sessionStart
  | userPromptSubmit
  | preToolUse
  | postToolUse
  | stop
  | subagentStop
  | sessionEnd
  | preCompact
  | other (name : String)
  deriving DecidableEq, Repr

/-- `from_name` (`claude.rs:99-111`). -/
def ClaudeHookKind.fromName (name : String) : ClaudeHookKind :=
  match name with
  | "SessionStart" => .sessionStart
  | "UserPromptSubmit" => .userPromptSubmit
  | "PreToolUse" => .preToolUse
  | "PostToolUse" => .postToolUse
  | "Stop" => .stop
  | "SubagentStop" => .subagentStop
  | "SessionEnd" => .sessionEnd
  | "PreCompact" => .preCompact
  | _ => .other name

/-- `ClaudeHookEvent` (`claude.rs:133-158`). -/
structure ClaudeHookEvent where
  kind : ClaudeHookKind
  sessionId : String
  cwd : Option String
  toolName : Option String
  stopHookActive : Bool
  lastMessage : Option String
  toolUseId : Option String
  transcriptPath : Option String
  deriving DecidableEq, Repr

/-- `RawClaudeHook` (`claude.rs:165-187`). -/
structure RawClaudeHook where
  hookEventName : Option String
  sessionId : Option String
  cwd : Option String
  toolName : Option String
  stopHookActive : Option Bool
  lastAssistantMessage : Option String
  toolUseId : Option String
  transcriptPath : Option String

/-- The derived decoding of `RawClaudeHook`. -/
def RawClaudeHook.decode (v : Json) : Option RawClaudeHook := do
  let fields ← v.structFields ["hook_event_name", "session_id", "cwd", "tool_name",
    "stop_hook_active", "last_assistant_message", "tool_use_id", "transcript_path"]
  return {
    hookEventName := ← optionalField Json.asString ["hook_event_name", "hookEventName"] fields
    sessionId := ← optionalField Json.asString ["session_id", "sessionId"] fields
    cwd := ← optionalField Json.asString ["cwd"] fields
    toolName := ← optionalField Json.asString ["tool_name", "toolName"] fields
    stopHookActive := ← optionalField Json.asBool ["stop_hook_active", "stopHookActive"] fields
    lastAssistantMessage := ← optionalField Json.asString
      ["last_assistant_message", "lastAssistantMessage"] fields
    toolUseId := ← optionalField Json.asString ["tool_use_id", "toolUseId"] fields
    transcriptPath := ← optionalField Json.asString ["transcript_path", "transcriptPath"] fields }

/-- `ClaudeParseError` (`claude.rs:192-202`). What serde says of invalid JSON is only logged. -/
inductive ClaudeParseError where
  | invalidJson
  | missingEventName
  | missingSessionId
  deriving DecidableEq, Repr

namespace ClaudeHookEvent

/-- `from_raw` (`claude.rs:224-244`). -/
def fromRaw (raw : RawClaudeHook) : Except ClaudeParseError ClaudeHookEvent :=
  match raw.hookEventName with
  | none => .error .missingEventName
  | some name =>
    match nonEmpty raw.sessionId with
    | none => .error .missingSessionId
    | some sessionId => .ok {
        kind := .fromName name
        sessionId := sessionId
        cwd := raw.cwd
        toolName := raw.toolName
        stopHookActive := raw.stopHookActive.getD false
        lastMessage := nonEmpty raw.lastAssistantMessage
        toolUseId := nonEmpty raw.toolUseId
        transcriptPath := nonEmpty raw.transcriptPath }

/-- `parse` (`claude.rs:210-214`), with what reads a text as JSON. -/
def parse (fromStr : String → Option Json) (json : String) :
    Except ClaudeParseError ClaudeHookEvent :=
  match (fromStr json).bind RawClaudeHook.decode with
  | none => .error .invalidJson
  | some raw => fromRaw raw

/-- An event with nothing but its kind and its session, for worked cases. -/
def plain (sessionId : String) (kind : ClaudeHookKind) : ClaudeHookEvent :=
  ⟨kind, sessionId, none, none, false, none, none, none⟩

end ClaudeHookEvent

/-- `ClaudeStateMachine` (`claude.rs:258-266`). -/
structure ClaudeStateMachine where
  core : Core
  lastAssistantMessage : Option String
  deriving DecidableEq, Repr

namespace ClaudeStateMachine

/-- `new` (`claude.rs:271-276`). -/
def new (sessionId : String) : ClaudeStateMachine := ⟨.new sessionId, none⟩

/-- What `apply` takes over from an event before it looks at its kind. -/
def absorb (m : ClaudeStateMachine) (ev : ClaudeHookEvent) : ClaudeStateMachine where
  core := m.core.note ev.cwd ev.toolName
  lastAssistantMessage := ev.lastMessage.or m.lastAssistantMessage

/-- `apply` (`claude.rs:303-368`). -/
def apply (m : ClaudeStateMachine) (ev : ClaudeHookEvent) : Transition × ClaudeStateMachine :=
  if ev.sessionId ≠ m.core.nativeId then (m.core.noOp false, m)
  else
    let m := m.absorb ev
    match ev.kind with
    | .userPromptSubmit | .preToolUse =>
      let core := m.core.enterWorking
      (core.transition (m.core.state ≠ .working) false true, { m with core })
    | .stop =>
      if ev.stopHookActive then (m.core.noOp true, m)
      else
        let core := m.core.setDone
        (core.transition (m.core.state ≠ .done) false false, { m with core })
    | .sessionEnd =>
      let core := m.core.setDead
      (core.transition (m.core.state ≠ .dead) false false, { m with core })
    | .sessionStart =>
      if m.core.state = .dead then
        let core := m.core.reviveIdle
        ((core.noOp false).intoChanged, { m with core })
      else (m.core.noOp false, m)
    | .postToolUse | .subagentStop | .preCompact => (m.core.noOp true, m)
    | .other _ => (m.core.noOp false, m)

/-- `last_message` (`claude.rs:383-399`). -/
def lastMessage (m : ClaudeStateMachine) : Option String :=
  match m.core.state with
  | .working => m.core.lastTool.map (fun t => s!"Running {t}…")
  | .idle => m.lastAssistantMessage.map preview
  | .done => some ((m.lastAssistantMessage.map preview).getD "Task complete.")
  | .dead => some "Session closed."
  | _ => none

/-- `to_run` (`claude.rs:374-381`). -/
def toRun (m : ClaudeStateMachine) (runId updatedAt : String) : AgentRun :=
  m.core.toRun .claudeCode runId updatedAt m.lastMessage

end ClaudeStateMachine

instance : RunMachine ClaudeStateMachine := ⟨fun m => m.core.state, ClaudeStateMachine.toRun⟩

/-- `ClaudeAdapter` (`claude.rs:440-442`). -/
structure ClaudeAdapter where
  core : AdapterCore ClaudeStateMachine

/-- `new` (`claude.rs:452-456`). -/
def ClaudeAdapter.new : ClaudeAdapter := ⟨.new "claude"⟩

/-- `ingest` (`claude.rs:490-496`). The transition it also returns is read by tests alone. -/
def ClaudeAdapter.ingest (adapter : ClaudeAdapter) (iso : String) (ev : ClaudeHookEvent) :
    List ReporterCommand × ClaudeAdapter :=
  let (cmds, core) := adapter.core.applyAndCommands iso ev.sessionId (.new ev.sessionId)
    (fun m => m.apply ev)
  (cmds, ⟨core⟩)

end VsFleet
