import VsFleet.Reporter.Receiver

/-!
# Where the receiver could panic

A frame of the hook receiver once more, with all in it that could panic: the two `expect`s of an
adapter (`fleet-reporter/src/machine.rs`) and the slice of a line for the log
(`fleet-reporter/src/serve.rs`). `none` is a panic.
-/

namespace VsFleet

/-! ## Slices -/

/-- `len`, in bytes. -/
def byteLen : List Char → Nat
  | [] => 0
  | c :: text => c.utf8Size + byteLen text

/-- `&text[..max]`: the byte `max` must be the end or one at which a character starts. -/
def sliceTo : List Char → Nat → Option (List Char)
  | _, 0 => some []
  | [], _ + 1 => none
  | c :: text, max + 1 =>
    if c.utf8Size ≤ max + 1 then (sliceTo text (max + 1 - c.utf8Size)).map (fun cut => c :: cut)
    else none

/-- `truncate` (`serve.rs:325-333`). -/
def truncate (s : String) : Option String :=
  let text := trim s.toList
  if byteLen text ≤ 120 then some (String.ofList text)
  else (sliceTo text 120).map (fun cut => String.ofList (cut ++ ['…']))

/-! ## The adapters -/

namespace AdapterCore

variable {M : Type} [RunMachine M]

/-- `commands_for` (`machine.rs:369-384`) with its lookup of the session. -/
def tryCommandsFor (core : AdapterCore M) (iso id runId : String) (t : Transition) :
    Option (List ReporterCommand) :=
  if t.changed then
    (core.sessions.lookup id).map (fun session =>
      [.upsertRun (RunMachine.buildRun session.machine runId iso)])
  else if t.liveness then some [.liveness runId]
  else some []

/-- `apply_and_commands` (`machine.rs:337-350`) with its lookup of the session. -/
def tryApplyAndCommands (core : AdapterCore M) (iso id : String) (make : M)
    (apply : M → Transition × M) : Option (List ReporterCommand × AdapterCore M) := do
  let core := (core.ensure id make).2
  let session ← core.sessions.lookup id
  let (t, machine) := apply session.machine
  let core := { core with sessions := core.sessions.insert id { session with machine } }
  let cmds ← core.tryCommandsFor iso id session.runId t
  return (cmds, core)

end AdapterCore

/-- `ingest` (`claude.rs:490-496`). -/
def ClaudeAdapter.tryIngest (adapter : ClaudeAdapter) (iso : String) (ev : ClaudeHookEvent) :
    Option (List ReporterCommand × ClaudeAdapter) := do
  let (cmds, core) ← adapter.core.tryApplyAndCommands iso ev.sessionId (.new ev.sessionId)
    (fun m => m.apply ev)
  return (cmds, ⟨core⟩)

/-- `ingest` (`claude_infer.rs:507-518`). -/
def ClaudeInferAdapter.tryIngest (adapter : ClaudeInferAdapter) (iso : String)
    (ev : ClaudeHookEvent) (nowMs : Nat) : Option (List ReporterCommand × ClaudeInferAdapter) := do
  let (cmds, core) ← adapter.core.tryApplyAndCommands iso ev.sessionId
    (.withDebounceMs ev.sessionId adapter.debounceMs) (fun m => m.apply ev nowMs)
  return (cmds, { adapter with core })

/-- `ingest` (`codex.rs:498-504`). -/
def CodexAdapter.tryIngest (adapter : CodexAdapter) (iso : String) (ev : CodexHookEvent) :
    Option (List ReporterCommand × CodexAdapter) := do
  let (cmds, core) ← adapter.core.tryApplyAndCommands iso ev.threadId (.new ev.threadId)
    (fun m => m.apply ev)
  return (cmds, ⟨core⟩)

/-! ## The receiver -/

namespace Receiver

/-- A drop with its line in the log (`serve.rs:240-242`, `serve.rs:318-320`). The macro renders the
frame only where the level `debug` is on. -/
def dropLogged (receiver : Receiver) (debug : Bool) (frame : String) :
    Option (List ReporterCommand × Receiver) := do
  if debug then
    let _ ← truncate frame
  return receiver.dropUnparseable

/-- `dispatch` (`serve.rs:293-308`). -/
def tryDispatch (receiver : Receiver) (debug : Bool) (fromStr : String → Option Json)
    (iso inferIso : String) (agent : Agent) (body : String) (nowMs : Nat) :
    Option (List ReporterCommand × Receiver) :=
  match agent with
  | .claude =>
    match ClaudeHookEvent.parse fromStr body with
    | .ok ev => do
      let (cmds, claude) ← receiver.claude.tryIngest iso ev
      let (more, infer) ← receiver.infer.tryIngest inferIso ev nowMs
      return (cmds ++ more, { receiver with claude, infer })
    | .error _ => receiver.dropLogged debug body
  | .codex =>
    match CodexHookEvent.parse fromStr body with
    | .ok ev => do
      let (cmds, codex) ← receiver.codex.tryIngest iso ev
      return (cmds, { receiver with codex })
    | .error _ => receiver.dropLogged debug body

/-- `process_at` (`serve.rs:230-245`). -/
def tryProcessAt (receiver : Receiver) (debug : Bool) (fromStr : String → Option Json)
    (iso inferIso line : String) (nowMs : Nat) : Option (List ReporterCommand × Receiver) :=
  let receiver := { receiver with frames := receiver.frames + 1 }
  match parseFrame line with
  | some (agent, body) => receiver.tryDispatch debug fromStr iso inferIso agent body nowMs
  | none => receiver.dropLogged debug line

end Receiver

end VsFleet
