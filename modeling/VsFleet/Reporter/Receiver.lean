import VsFleet.Reporter.ClaudeInfer
import VsFleet.Reporter.Codex

/-!
# The hook receiver

The receiver of `fleet-reporter --serve` (`fleet-reporter/src/serve.rs`): a frame goes to the
adapters of its agent, and a timer lets the inference move on while no frame comes. Parsing JSON and
reading a transcript are arguments; times are milliseconds, and the stamps of the runs are arguments
too, for the machine of the hooks and for the inferring one. With the core that takes the commands
it is the shell of a served reporter.
-/

namespace VsFleet

/-- `Agent` (`serve.rs:87-92`). -/
inductive Agent where
  | claude
  | codex
  deriving DecidableEq, Repr

/-- `from_tag` (`serve.rs:98-104`). -/
def Agent.fromTag (tag : List Char) : Option Agent :=
  match String.ofList (tag.map Char.toLower) with
  | "claude" | "claude-code" | "claudecode" => some .claude
  | "codex" => some .codex
  | _ => none

/-- `parse_frame` (`serve.rs:125-148`); the only drift it finds is an empty line. -/
def parseFrame (line : String) : Option (Agent × String) :=
  let line := trim line.toList
  if line.isEmpty then none
  else
    match splitOnce line with
    | some (first, rest) =>
      match Agent.fromTag first with
      | some agent => some (agent, String.ofList (trimStart rest))
      | none => some (.claude, String.ofList line)
    | none => some (.claude, String.ofList line)

/-- `Receiver` (`serve.rs:171-185`), without the origin of its clock. -/
structure Receiver where
  claude : ClaudeAdapter
  infer : ClaudeInferAdapter
  codex : CodexAdapter
  frames : Nat
  dropped : Nat

namespace Receiver

/-- `new` (`serve.rs:202-204`). -/
def new : Receiver := ⟨.new, .new, .new, 0, 0⟩

/-- `drop_unparseable` (`serve.rs:313-321`). -/
def dropUnparseable (receiver : Receiver) : List ReporterCommand × Receiver :=
  ([], { receiver with dropped := receiver.dropped + 1 })

/-- `dispatch` (`serve.rs:293-308`). -/
def dispatch (receiver : Receiver) (fromStr : String → Option Json) (iso inferIso : String)
    (agent : Agent) (body : String) (nowMs : Nat) : List ReporterCommand × Receiver :=
  match agent with
  | .claude =>
    match ClaudeHookEvent.parse fromStr body with
    | .ok ev =>
      let (cmds, claude) := receiver.claude.ingest iso ev
      let (more, infer) := receiver.infer.ingest inferIso ev nowMs
      (cmds ++ more, { receiver with claude, infer })
    | .error _ => receiver.dropUnparseable
  | .codex =>
    match CodexHookEvent.parse fromStr body with
    | .ok ev =>
      let (cmds, codex) := receiver.codex.ingest iso ev
      (cmds, { receiver with codex })
    | .error _ => receiver.dropUnparseable

/-- `process_at` (`serve.rs:230-245`). -/
def processAt (receiver : Receiver) (fromStr : String → Option Json) (iso inferIso line : String)
    (nowMs : Nat) : List ReporterCommand × Receiver :=
  let receiver := { receiver with frames := receiver.frames + 1 }
  match parseFrame line with
  | some (agent, body) => receiver.dispatch fromStr iso inferIso agent body nowMs
  | none => receiver.dropUnparseable

/-- One round of the loop of `tick_at` over the calls that are about to fire. -/
def vetoOne (fromStr : String → Option Json) (readToString : String → Option String)
    (iso : String → String) (acc : List ReporterCommand × ClaudeInferAdapter)
    (pending : String × Option String) : List ReporterCommand × ClaudeInferAdapter :=
  match pending.2.bind readToString with
  | some blob =>
    let (cmds, infer) := acc.2.corroborateBlob fromStr (iso pending.1) pending.1 blob
    (acc.1 ++ cmds, infer)
  | none => acc

/-- `tick_at` (`serve.rs:267-279`). -/
def tickAt (receiver : Receiver) (fromStr : String → Option Json)
    (readToString : String → Option String)
    (iter : IterOrder (Sigma fun _ : String => AdapterSession ClaudeInferMachine))
    (vetoIso iso : String → String) (nowMs : Nat) : List ReporterCommand × Receiver :=
  let (cmds, infer) := (receiver.infer.pendingFires iter nowMs).foldl
    (vetoOne fromStr readToString vetoIso) ([], receiver.infer)
  let (more, infer) := infer.tick iter iso nowMs
  (cmds ++ more, { receiver with infer })

end Receiver

/-! ## The served reporter -/

/-- The receiver and the core behind it. -/
structure Shell where
  receiver : Receiver
  core : ReporterCore

/-- The commands reach the core in their order. Its stamp is for an exit, and no hook brings one. -/
def ReporterCore.applyAll (core : ReporterCore) (cmds : List ReporterCommand) : ReporterCore :=
  cmds.foldl (fun core cmd => (core.apply "" cmd).2) core

namespace Shell

/-- The shell before its first frame. -/
def new (config : ReporterConfig) : Shell := ⟨.new, .new config⟩

/-- What can happen to the shell: a frame, a tick of the inference, and a tick of the reporter that
reaps. -/
inductive Step where
  | frame (iso inferIso line : String) (nowMs : Nat)
  | tick (readToString : String → Option String)
      (iter : IterOrder (Sigma fun _ : String => AdapterSession ClaudeInferMachine))
      (vetoIso iso : String → String) (nowMs : Nat)
  | reap (elapsed : Nat) (iter : IterOrder (Sigma fun _ : String => LivenessTracker))
      (iso : String → String)

/-- A frame from the socket or a tick; the commands go to the core. -/
def step (fromStr : String → Option Json) (shell : Shell) : Step → Shell
  | .frame iso inferIso line nowMs =>
    let (cmds, receiver) := shell.receiver.processAt fromStr iso inferIso line nowMs
    ⟨receiver, shell.core.applyAll cmds⟩
  | .tick readToString iter vetoIso iso nowMs =>
    let (cmds, receiver) := shell.receiver.tickAt fromStr readToString iter vetoIso iso nowMs
    ⟨receiver, shell.core.applyAll cmds⟩
  | .reap elapsed iter iso =>
    { shell with core := (shell.core.advanceTo elapsed).reapTimeouts iter iso }

/-- What a step makes the receiver send. -/
def sent (fromStr : String → Option Json) (shell : Shell) : Step → List ReporterCommand
  | .frame iso inferIso line nowMs =>
    (shell.receiver.processAt fromStr iso inferIso line nowMs).1
  | .tick readToString iter vetoIso iso nowMs =>
    (shell.receiver.tickAt fromStr readToString iter vetoIso iso nowMs).1
  | .reap _ _ _ => []

/-- All that the receiver sends along a run, in order. -/
def log (fromStr : String → Option Json) (shell : Shell) : List Step → List ReporterCommand
  | [] => []
  | s :: steps => shell.sent fromStr s ++ (shell.step fromStr s).log fromStr steps

end Shell

/-- A hook with nothing but its name and its session, as a line and as what it reads as, for worked
cases. -/
def Json.plainHook (name sessionId : String) : Json :=
  .object [("hook_event_name", .string name), ("session_id", .string sessionId)]

/-- The JSON of the hooks of the session `s` in worked cases. -/
def readPlain (text : String) : Option Json :=
  if text = "\x7b\"hook_event_name\":\"PreToolUse\",\"session_id\":\"s\"\x7d" then
    some (.plainHook "PreToolUse" "s")
  else none

end VsFleet
