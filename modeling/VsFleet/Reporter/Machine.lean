import VsFleet.Reporter.Core

/-!
# The shared core of the agent machines

The lifecycle state that the machine of every agent embeds, and the bookkeeping of an adapter around
one machine a session (`fleet-reporter/src/machine.rs`). An operation that changes its receiver and
returns a value gives the value first. The machines never ask for the time: the stamp of a run is
an argument.
-/

namespace VsFleet

/-- `Transition` (`machine.rs:39-54`). -/
structure Transition where
  state : State
  urgency : Option Urgency
  confidence : Confidence
  changed : Bool
  resolvedApproval : Bool
  liveness : Bool
  deriving DecidableEq, Repr

/-- `into_changed` (`machine.rs:58-61`). -/
def Transition.intoChanged (t : Transition) : Transition := { t with changed := true }

/-- `Core` (`machine.rs:68-77`). -/
structure Core where
  nativeId : String
  cwd : String
  state : State
  urgency : Option Urgency
  confidence : Confidence
  lastTool : Option String
  pendingApproval : Bool
  deriving DecidableEq, Repr

namespace Core

/-- `new` (`machine.rs:82-92`). -/
def new (nativeId : String) : Core where
  nativeId := nativeId
  cwd := "/"
  state := .idle
  urgency := none
  confidence := .inferred
  lastTool := none
  pendingApproval := false

/-- `note_cwd` (`machine.rs:133-139`). -/
def noteCwd (core : Core) : Option String → Core
  | some c => if c.isEmpty then core else { core with cwd := c }
  | none => core

/-- `note_tool` (`machine.rs:141-145`). -/
def noteTool (core : Core) : Option String → Core
  | some t => { core with lastTool := some t }
  | none => core

/-- `enter_working` (`machine.rs:149-154`). -/
def enterWorking (core : Core) : Core :=
  { core with state := .working, urgency := none, confidence := .inferred, pendingApproval := false }

/-- `set_waiting_approval` (`machine.rs:158-163`). -/
def setWaitingApproval (core : Core) (confidence : Confidence) : Core :=
  { core with state := .waiting, urgency := some .approval, confidence, pendingApproval := true }

/-- `set_done` (`machine.rs:166-171`). -/
def setDone (core : Core) : Core :=
  { core with state := .done, urgency := none, confidence := .inferred, pendingApproval := false }

/-- `set_dead` (`machine.rs:173-178`). -/
def setDead (core : Core) : Core :=
  { core with state := .dead, urgency := none, confidence := .high, pendingApproval := false }

/-- `revive_idle` (`machine.rs:180-185`). -/
def reviveIdle (core : Core) : Core :=
  { core with state := .idle, urgency := none, confidence := .inferred, pendingApproval := false }

/-- `transition` (`machine.rs:200-209`). -/
def transition (core : Core) (changed resolvedApproval liveness : Bool) : Transition :=
  ⟨core.state, core.urgency, core.confidence, changed, resolvedApproval, liveness⟩

/-- `no_op` (`machine.rs:189-198`). -/
def noOp (core : Core) (liveness : Bool) : Transition := core.transition false false liveness

/-- `to_run` (`machine.rs:214-241`). -/
def toRun (core : Core) (agentKind : AgentKind) (runId updatedAt : String)
    (lastMessage : Option String) : AgentRun where
  schemaVersion := VsFleet.schemaVersion
  runId := runId
  agentKind := agentKind
  nativeId := core.nativeId
  cwd := core.cwd
  state := core.state
  urgency := core.urgency
  lastMessage := lastMessage
  waitingSince := if core.state = .waiting then some updatedAt else none
  confidence := core.confidence
  diffSummary := none
  updatedAt := updatedAt
  extra := []

/-- What an event carries in passing. -/
def note (core : Core) (cwd tool : Option String) : Core := (core.noteCwd cwd).noteTool tool

/-- Only the working directory and the last tool are noted. -/
theorem note_eq (core : Core) (cwd tool : Option String) : core.note cwd tool =
    { core with cwd := (core.note cwd tool).cwd, lastTool := (core.note cwd tool).lastTool } := by
  unfold note noteCwd noteTool
  cases cwd <;> cases tool <;> dsimp only <;> split <;> rfl

@[simp] theorem note_nativeId (core : Core) (cwd tool : Option String) :
    (core.note cwd tool).nativeId = core.nativeId := by rw [note_eq]

@[simp] theorem note_state (core : Core) (cwd tool : Option String) :
    (core.note cwd tool).state = core.state := by rw [note_eq]

@[simp] theorem note_urgency (core : Core) (cwd tool : Option String) :
    (core.note cwd tool).urgency = core.urgency := by rw [note_eq]

@[simp] theorem note_confidence (core : Core) (cwd tool : Option String) :
    (core.note cwd tool).confidence = core.confidence := by rw [note_eq]

@[simp] theorem note_pendingApproval (core : Core) (cwd tool : Option String) :
    (core.note cwd tool).pendingApproval = core.pendingApproval := by rw [note_eq]

end Core

/-- `RunMachine` (`machine.rs:245-250`). -/
class RunMachine (M : Type) where
  runState : M → State
  buildRun : M → (runId updatedAt : String) → AgentRun

/-- The `Session` of an adapter (`machine.rs:254-259`). -/
structure AdapterSession (M : Type) where
  machine : M
  runId : String

/-- `AdapterCore` (`machine.rs:265-269`). The prefix of the run ids is the agent's. -/
structure AdapterCore (M : Type) where
  sessions : HashMap String (AdapterSession M)
  runCounter : Nat
  agent : String

namespace AdapterCore

variable {M : Type}

/-- `new` (`machine.rs:274-280`). -/
def new (agent : String) : AdapterCore M := ⟨∅, 0, agent⟩

/-- The run id minted for the session that is counted as the `n`th. -/
def mint (agent id : String) (n : Nat) : String := agent ++ ":" ++ id ++ ":run-" ++ toString n

/-- `run_id_of` (`machine.rs:288-290`). -/
def runIdOf (core : AdapterCore M) (id : String) : Option String :=
  (core.sessions.lookup id).map (fun session => session.runId)

/-- `ids` (`machine.rs:303-305`), in the iteration order of the map. -/
def ids (core : AdapterCore M) (iter : IterOrder (Sigma fun _ : String => AdapterSession M)) :
    List String := (iter.perm core.sessions.entries).map (fun entry => entry.1)

/-- `ensure` (`machine.rs:313-325`), with the session the map then holds. -/
def ensure (core : AdapterCore M) (id : String) (make : M) : AdapterSession M × AdapterCore M :=
  match core.sessions.lookup id with
  | some session => (session, core)
  | none =>
    let session := ⟨make, mint core.agent id (core.runCounter + 1)⟩
    (session, { core with
      runCounter := core.runCounter + 1
      sessions := core.sessions.insert id session })

variable [RunMachine M]

/-- `commands_for` (`machine.rs:369-384`), on the session as it is by then. -/
def commandsFor (iso : String) (t : Transition) (session : AdapterSession M) :
    List ReporterCommand :=
  if t.changed then [.upsertRun (RunMachine.buildRun session.machine session.runId iso)]
  else if t.liveness then [.liveness session.runId]
  else []

/-- `apply_and_commands` (`machine.rs:337-350`). -/
def applyAndCommands (core : AdapterCore M) (iso id : String) (make : M)
    (apply : M → Transition × M) : List ReporterCommand × AdapterCore M :=
  let (session, core) := core.ensure id make
  let (t, machine) := apply session.machine
  let session := { session with machine }
  (commandsFor iso t session, { core with sessions := core.sessions.insert id session })

/-- `with_existing` (`machine.rs:354-365`). -/
def withExisting (core : AdapterCore M) (iso id : String) (apply : M → Transition × M) :
    List ReporterCommand × AdapterCore M :=
  match core.sessions.lookup id with
  | none => ([], core)
  | some session =>
    let (t, machine) := apply session.machine
    let session := { session with machine }
    (commandsFor iso t session, { core with sessions := core.sessions.insert id session })

end AdapterCore

end VsFleet
