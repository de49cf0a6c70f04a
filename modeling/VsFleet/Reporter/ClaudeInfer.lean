import VsFleet.Reporter.Claude

/-!
# Inferred waiting

The machine that infers from a tool call with nothing after it that Claude waits for the user, and
the look at the transcript that can veto it (`fleet-reporter/src/claude_infer.rs`). Times are
milliseconds.
-/

namespace VsFleet

/-- `DEFAULT_DEBOUNCE_MS` (`claude_infer.rs:53`). -/
def defaultDebounceMs : Nat := 1500

/-- `Corroboration` (`claude_infer.rs:62-73`). -/
inductive Corroboration where
  | stuck
  | resolved
  | unknown
  deriving DecidableEq, Repr

/-! ## The transcript -/

/-- The content blocks of one line of a transcript, none where the line is not understood. -/
def transcriptBlocks (fromStr : String → Option Json) (line : String) : List Json :=
  match fromStr line with
  | none => []
  | some value =>
    match (value.get? "message").bind (fun m => m.get? "content") <|> value.get? "content" with
    | some (.array blocks) => blocks
    | _ => []

/-- The content blocks of a transcript, in order, from its lines that are not empty. -/
def transcript (fromStr : String → Option Json) (body : String) : List Json :=
  let lines := ((body.toList.splitOn '\n').map trim).filter (fun line => ¬ line.isEmpty)
  lines.flatMap (fun line => transcriptBlocks fromStr (String.ofList line))

/-- The string under a key of a block of the given type. -/
def blockId (type key : String) (block : Json) : Option String :=
  if (block.get? "type").bind Json.asString = some type then
    (block.get? key).bind Json.asString
  else none

/-- The tool calls of a transcript and the calls that have a result. -/
def dispatched (blocks : List Json) : List String := blocks.filterMap (blockId "tool_use" "id")

/-- The ids of the tool calls that have a result. -/
def completed (blocks : List Json) : List String :=
  blocks.filterMap (blockId "tool_result" "tool_use_id")

/-- `corroborate_jsonl` (`claude_infer.rs:83-134`), on the blocks of the transcript. -/
def corroborateJsonl (blocks : List Json) : Corroboration :=
  match (dispatched blocks).getLast? with
  | some last => if last ∈ completed blocks then .resolved else .stuck
  | none => .unknown

/-- `corroborate_jsonl_for` (`claude_infer.rs:146-190`). -/
def corroborateJsonlFor (blocks : List Json) (toolUseId : String) : Corroboration :=
  if toolUseId ∉ dispatched blocks then .unknown
  else if toolUseId ∈ completed blocks then .resolved
  else .stuck

/-! ## The machine -/

/-- `ClaudeInferMachine` (`claude_infer.rs:194-210`). -/
structure ClaudeInferMachine where
  core : Core
  debounceMs : Nat
  armedSince : Option Nat
  inferredWaiting : Bool
  armedToolUseId : Option String
  armedTranscriptPath : Option String
  deriving DecidableEq, Repr

namespace ClaudeInferMachine

/-- `with_debounce_ms` (`claude_infer.rs:219-228`). -/
def withDebounceMs (sessionId : String) (debounceMs : Nat) : ClaudeInferMachine where
  core := .new sessionId
  debounceMs := debounceMs
  armedSince := none
  inferredWaiting := false
  armedToolUseId := none
  armedTranscriptPath := none

/-- `debounce_elapsed` (`claude_infer.rs:275-278`). -/
def debounceElapsed (m : ClaudeInferMachine) (nowMs : Nat) : Bool :=
  match m.armedSince with
  | some armedAt => nowMs - armedAt ≥ m.debounceMs
  | none => false

/-- `clear_inference` (`claude_infer.rs:411-418`). -/
def clearInference (m : ClaudeInferMachine) : Bool × ClaudeInferMachine :=
  (m.inferredWaiting, { m with
    armedSince := none
    armedToolUseId := none
    armedTranscriptPath := none
    inferredWaiting := false })

/-- `fire_inference` (`claude_infer.rs:403-409`). -/
def fireInference (m : ClaudeInferMachine) : Transition × ClaudeInferMachine :=
  let core := m.core.setWaitingApproval .inferred
  (core.transition true false false, { m with armedSince := none, inferredWaiting := true, core })

/-- A hook that shows activity ends an inference and leaves the run working. -/
def resume (m : ClaudeInferMachine) : Transition × ClaudeInferMachine :=
  let (resolved, m) := m.clearInference
  let wasWorking : Bool := m.core.state = .working ∧ m.core.urgency = none
  let core := m.core.enterWorking
  (core.transition (!wasWorking || resolved) resolved true, { m with core })

/-- `apply` (`claude_infer.rs:281-357`). -/
def apply (m : ClaudeInferMachine) (ev : ClaudeHookEvent) (nowMs : Nat) :
    Transition × ClaudeInferMachine :=
  if ev.sessionId ≠ m.core.nativeId then (m.core.noOp false, m)
  else
    let m := { m with core := m.core.note ev.cwd ev.toolName }
    match ev.kind with
    | .preToolUse =>
      let (t, m) := m.resume
      (t, { m with
        armedSince := some nowMs
        armedToolUseId := ev.toolUseId
        armedTranscriptPath := ev.transcriptPath })
    | .userPromptSubmit => m.resume
    | .stop =>
      if ev.stopHookActive then m.resume
      else
        let (resolved, m) := m.clearInference
        let changed : Bool := m.core.state ≠ .done ∨ m.core.urgency ≠ none
        let core := m.core.setDone
        (core.transition (changed || resolved) resolved false, { m with core })
    | .sessionEnd =>
      let core := m.core.setDead
      (core.transition (m.core.state ≠ .dead) false false,
        { m with armedSince := none, inferredWaiting := false, core })
    | .sessionStart =>
      if m.core.state = .dead then
        let core := m.core.reviveIdle
        ((core.noOp false).intoChanged,
          { m with core, armedSince := none, inferredWaiting := false })
      else (m.core.noOp false, m)
    | .postToolUse =>
      let (resolved, m) := m.clearInference
      if resolved then
        let core := m.core.enterWorking
        (core.transition true true true, { m with core })
      else (m.core.noOp true, m)
    | .subagentStop | .preCompact => (m.core.noOp true, m)
    | .other _ => (m.core.noOp false, m)

/-- `tick` (`claude_infer.rs:362-369`). -/
def tick (m : ClaudeInferMachine) (nowMs : Nat) : Transition × ClaudeInferMachine :=
  if m.debounceElapsed nowMs then m.fireInference else (m.core.noOp false, m)

/-- `corroborate` (`claude_infer.rs:377-391`). -/
def corroborate (m : ClaudeInferMachine) (verdict : Corroboration) :
    Transition × ClaudeInferMachine :=
  match verdict with
  | .resolved =>
    let (resolved, m) := m.clearInference
    if resolved then
      let core := m.core.enterWorking
      (core.transition true true false, { m with core })
    else (m.core.noOp false, m)
  | .stuck | .unknown => (m.core.noOp false, m)

/-- `last_message` (`claude_infer.rs:420-431`). -/
def lastMessage (m : ClaudeInferMachine) : Option String :=
  match m.core.state with
  | .waiting =>
    match m.core.lastTool with
    | some t => some s!"Possibly waiting on {t} (inferred)"
    | none => some "Possibly waiting (inferred)"
  | .working => m.core.lastTool.map (fun t => s!"Running {t}...")
  | .done => some "Task complete."
  | .dead => some "Session closed."
  | _ => none

/-- `to_run` (`claude_infer.rs:394-401`). -/
def toRun (m : ClaudeInferMachine) (runId updatedAt : String) : AgentRun :=
  m.core.toRun .claudeCode runId updatedAt m.lastMessage

end ClaudeInferMachine

/-- What the machine is fed: hooks and ticks with the time, and verdicts. -/
inductive InferEvent where
  | hook (ev : ClaudeHookEvent) (nowMs : Nat)
  | tick (nowMs : Nat)
  | corroborate (verdict : Corroboration)
  deriving DecidableEq, Repr

/-- What the machine makes of an event. -/
def ClaudeInferMachine.respond (m : ClaudeInferMachine) :
    InferEvent → Transition × ClaudeInferMachine
  | .hook ev nowMs => m.apply ev nowMs
  | .tick nowMs => m.tick nowMs
  | .corroborate verdict => m.corroborate verdict

/-- The machine after an event. -/
def ClaudeInferMachine.step (m : ClaudeInferMachine) (e : InferEvent) : ClaudeInferMachine :=
  (m.respond e).2

instance : RunMachine ClaudeInferMachine := ⟨fun m => m.core.state, ClaudeInferMachine.toRun⟩

/-! ## The adapter -/

/-- `ClaudeInferAdapter` (`claude_infer.rs:447-450`). -/
structure ClaudeInferAdapter where
  core : AdapterCore ClaudeInferMachine
  debounceMs : Nat

namespace ClaudeInferAdapter

/-- `with_debounce_ms` (`claude_infer.rs:465-470`). -/
def withDebounceMs (debounceMs : Nat) : ClaudeInferAdapter := ⟨.new "claude", debounceMs⟩

/-- `new` (`claude_infer.rs:460-462`). -/
def new : ClaudeInferAdapter := withDebounceMs defaultDebounceMs

/-- `ingest` (`claude_infer.rs:507-518`). -/
def ingest (adapter : ClaudeInferAdapter) (iso : String) (ev : ClaudeHookEvent) (nowMs : Nat) :
    List ReporterCommand × ClaudeInferAdapter :=
  let (cmds, core) := adapter.core.applyAndCommands iso ev.sessionId
    (.withDebounceMs ev.sessionId adapter.debounceMs) (fun m => m.apply ev nowMs)
  (cmds, { adapter with core })

/-- One round of the loop of `tick`. -/
def tickOne (iso : String → String) (nowMs : Nat) (acc : List ReporterCommand × ClaudeInferAdapter)
    (sessionId : String) : List ReporterCommand × ClaudeInferAdapter :=
  let (cmds, core) := acc.2.core.withExisting (iso sessionId) sessionId (fun m => m.tick nowMs)
  (acc.1 ++ cmds, { acc.2 with core })

/-- `tick` (`claude_infer.rs:522-528`). -/
def tick (adapter : ClaudeInferAdapter)
    (iter : IterOrder (Sigma fun _ : String => AdapterSession ClaudeInferMachine))
    (iso : String → String) (nowMs : Nat) : List ReporterCommand × ClaudeInferAdapter :=
  (adapter.core.ids iter).foldl (tickOne iso nowMs) ([], adapter)

/-- `pending_fires` (`claude_infer.rs:534-540`). -/
def pendingFires (adapter : ClaudeInferAdapter)
    (iter : IterOrder (Sigma fun _ : String => AdapterSession ClaudeInferMachine)) (nowMs : Nat) :
    List (String × Option String) :=
  ((iter.perm adapter.core.sessions.entries).filter
    (fun (entry : Sigma fun _ : String => AdapterSession ClaudeInferMachine) =>
      entry.2.machine.debounceElapsed nowMs)).map
    (fun entry => (entry.1, entry.2.machine.armedTranscriptPath))

/-- `corroborate` (`claude_infer.rs:545-552`). -/
def corroborate (adapter : ClaudeInferAdapter) (iso sessionId : String) (verdict : Corroboration) :
    List ReporterCommand × ClaudeInferAdapter :=
  let (cmds, core) := adapter.core.withExisting iso sessionId (fun m => m.corroborate verdict)
  (cmds, { adapter with core })

/-- `corroborate_blob` (`claude_infer.rs:559-568`). -/
def corroborateBlob (adapter : ClaudeInferAdapter) (fromStr : String → Option Json)
    (iso sessionId blob : String) : List ReporterCommand × ClaudeInferAdapter :=
  match adapter.core.sessions.lookup sessionId with
  | none => ([], adapter)
  | some session =>
    adapter.corroborate iso sessionId <|
      match session.machine.armedToolUseId with
      | some id => corroborateJsonlFor (transcript fromStr blob) id
      | none => corroborateJsonl (transcript fromStr blob)

end ClaudeInferAdapter

end VsFleet
