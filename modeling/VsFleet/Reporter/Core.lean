import VsFleet.Reporter.Buffer
import VsFleet.Reporter.Identity

/-!
# The reporter core

The pure half of the reporter (`fleet-reporter/src/reporter.rs` and `liveness.rs`): the known runs,
their liveness and their stamps, and the deltas they leave in the buffer. The backoff policy and
the intervals of the timers decide when the driver acts and are not part of it; instants and
timeouts are natural numbers. Where the source reads the wall clock, the stamp it reads is an
argument.
-/

namespace VsFleet

/-! ## Liveness -/

/-- `Liveness` (`liveness.rs:29-36`). -/
inductive Liveness where
  | alive
  | deadConfirmedExit
  | deadTimeout
  deriving DecidableEq, Repr

/-- `LivenessTracker` (`liveness.rs:49-56`). -/
structure LivenessTracker where
  timeout : Nat
  lastSeen : Nat
  confirmedExit : Bool

namespace LivenessTracker

/-- `new` (`liveness.rs:60-66`). -/
def new (timeout : Nat) : LivenessTracker := ⟨timeout, 0, false⟩

/-- `observe_liveness` (`liveness.rs:74-78`). -/
def observeLiveness (t : LivenessTracker) (now : Nat) : LivenessTracker :=
  if now ≥ t.lastSeen then { t with lastSeen := now } else t

/-- `observe_exit` (`liveness.rs:81-83`). -/
def observeExit (t : LivenessTracker) : LivenessTracker := { t with confirmedExit := true }

/-- `evaluate` (`liveness.rs:90-100`). -/
def evaluate (t : LivenessTracker) (now : Nat) : Liveness :=
  if t.confirmedExit then .deadConfirmedExit
  else if now - t.lastSeen > t.timeout then .deadTimeout
  else .alive

end LivenessTracker

/-! ## The core -/

/-- `ReporterConfig` (`reporter.rs:49-66`), what the core reads of it. -/
structure ReporterConfig where
  sessionId : String
  livenessTimeout : Nat
  cleanStart : Bool

/-- `ReporterConfig::new` (`reporter.rs:70-80`), in milliseconds. -/
def ReporterConfig.new (sessionId : String) : ReporterConfig := ⟨sessionId, 30000, false⟩

/-- `ReporterCommand` (`reporter.rs:87-100`). -/
inductive ReporterCommand where
  | upsertSession (session : Session)
  | upsertRun (run : AgentRun)
  | liveness (runId : String)
  | confirmExit (runId reason : String)
  | shutdown

/-- The run a command is a sign of life of. -/
def ReporterCommand.signals : ReporterCommand → Option String
  | .upsertRun run => some run.runId
  | .liveness runId => some runId
  | _ => none

/-- The run a command ends. -/
def ReporterCommand.exits : ReporterCommand → Option String
  | .upsertRun run => if run.state = .dead then some run.runId else none
  | .confirmExit runId _ => some runId
  | _ => none

/-- `ReporterCore` (`reporter.rs:140-166`). The map of known runs is read only by key. -/
structure ReporterCore where
  config : ReporterConfig
  buffer : DeltaBuffer
  registeredSession : Option Session
  knownRuns : HashMap String AgentRun
  runOrder : List String
  liveness : HashMap String LivenessTracker
  identity : IdentityLedger
  now : Nat

namespace ReporterCore

/-- `new` (`reporter.rs:170-182`). -/
def new (config : ReporterConfig) : ReporterCore where
  config := config
  buffer := .new
  registeredSession := none
  knownRuns := ∅
  runOrder := []
  liveness := ∅
  identity := .new
  now := 0

/-- `stamped_run_upsert` (`reporter.rs:189-209`). -/
def stampedRunUpsert (core : ReporterCore) (run : AgentRun) : ClientMessage × ReporterCore :=
  let (stamp, identity) :=
    (core.identity.sight run.nativeId core.config.cleanStart).stamp run.nativeId
  (.runUpsert core.config.sessionId run stamp, { core with identity })

/-- `remember_run` (`reporter.rs:213-218`). -/
def rememberRun (core : ReporterCore) (run : AgentRun) : ReporterCore :=
  { core with
    runOrder := if run.runId ∈ core.knownRuns then core.runOrder else core.runOrder ++ [run.runId]
    knownRuns := core.knownRuns.insert run.runId run }

/-- `runs_in_order` (`reporter.rs:221-226`). -/
def runsInOrder (core : ReporterCore) : List AgentRun :=
  OrderedMap.values core.knownRuns core.runOrder

/-- `advance_to` (`reporter.rs:246-250`). -/
def advanceTo (core : ReporterCore) (now : Nat) : ReporterCore :=
  if now ≥ core.now then { core with now } else core

/-- `buffer.push`, through the core. -/
def enqueue (core : ReporterCore) (msg : ClientMessage) : ReporterCore :=
  { core with buffer := core.buffer.push msg }

/-- A run is remembered and its stamped delta enqueued, the end of every path that reports one. -/
def report (core : ReporterCore) (run : AgentRun) : ReporterCore :=
  let (msg, core) := (core.rememberRun run).stampedRunUpsert run
  core.enqueue msg

/-- `dead_run` (`reporter.rs:309-333`), with the stamp `now_iso8601` reads. -/
def deadRun (core : ReporterCore) (iso runId reason : String) : AgentRun :=
  let r := match core.knownRuns.lookup runId with
    | some known => { known with urgency := none, waitingSince := none }
    | none => .new runId .other runId "/" .dead .high iso
  { r with
    state := .dead
    confidence := .high
    updatedAt := iso
    lastMessage := some reason }

/-- `apply` (`reporter.rs:260-304`). -/
def apply (core : ReporterCore) (iso : String) : ReporterCommand → Bool × ReporterCore
  | .upsertSession session =>
    (true, { core with registeredSession := some session }.enqueue (.sessionUpsert session))
  | .upsertRun run =>
    let tracker := (core.liveness.lookup run.runId).getD (.new core.config.livenessTimeout)
    let tracker := if run.state = .dead then tracker.observeExit
      else tracker.observeLiveness core.now
    (true, { core with liveness := core.liveness.insert run.runId tracker }.report run)
  | .liveness runId =>
    (true, { core with
      liveness := HashMap.modify core.liveness runId (fun t => t.observeLiveness core.now) })
  | .confirmExit runId reason =>
    let core := { core with
      liveness := HashMap.modify core.liveness runId (fun t => t.observeExit) }
    (true, core.report (core.deadRun iso runId reason))
  | .shutdown => (false, core)

/-- The run ids `reap_timeouts` finds, in the iteration order of the map. -/
def timedOut (iter : IterOrder (Sigma fun _ : String => LivenessTracker)) (core : ReporterCore) :
    List String :=
  ((iter.perm core.liveness.entries).filter
    (fun (entry : Sigma fun _ : String => LivenessTracker) =>
      entry.2.evaluate core.now = .deadTimeout)).map (fun entry => entry.1)

/-- The body of the loop of `reap_timeouts`. -/
def reapOne (iso : String → String) (core : ReporterCore) (id : String) : ReporterCore :=
  let core := { core with liveness := core.liveness.erase id }
  core.report (core.deadRun (iso id) id "heartbeat timeout")

/-- `reap_timeouts` (`reporter.rs:339-355`). The ids it returns are logged. -/
def reapTimeouts (core : ReporterCore) (iter : IterOrder (Sigma fun _ : String => LivenessTracker))
    (iso : String → String) : ReporterCore := (core.timedOut iter).foldl (reapOne iso) core

/-- `heartbeat_message` (`reporter.rs:363-369`). -/
def heartbeatMessage (core : ReporterCore) : Option ClientMessage :=
  core.registeredSession.map (fun s => .sessionUpsert { s with runs := core.runsInOrder })

/-- `registration_message` (`reporter.rs:374-376`). -/
def registrationMessage (core : ReporterCore) : Option ClientMessage := core.heartbeatMessage

/-- `drain` (`reporter.rs:379-381`). -/
def drain (core : ReporterCore) : List Delta × ReporterCore :=
  (core.buffer.drain.1, { core with buffer := core.buffer.drain.2 })

/-- `requeue_unsent` (`reporter.rs:386-391`). -/
def requeueUnsent (core : ReporterCore) (tail : List Delta) : ReporterCore :=
  let (newer, core) := core.drain
  { core with
    buffer := (tail ++ newer).foldl (fun b d => b.pushPreserving d.seq d.msg) core.buffer }

/-- What could not be sent goes back into an empty buffer as it was, and nothing is dropped. -/
theorem requeueUnsent_of_empty {core : ReporterCore} {tail : List Delta}
    (ordered : tail.Pairwise (fun d e => d.seq < e.seq))
    (numbered : ∀ d ∈ tail, d.seq < core.buffer.nextSeq)
    (fits : tail.length ≤ core.buffer.capacity) (empty : core.buffer.queue = []) :
    core.requeueUnsent tail = { core with buffer := { core.buffer with queue := tail } } := by
  have again := DeltaBuffer.foldl_pushPreserving tail (b := { core.buffer with queue := [] })
    ordered numbered fits
  simp only [requeueUnsent, drain, DeltaBuffer.drain, empty, List.append_nil]
  rw [again]
  rfl

/-- `last_seq` (`reporter.rs:399-401`). -/
def lastSeq (core : ReporterCore) : Nat := core.buffer.lastSeq

end ReporterCore

end VsFleet
