import VsFleet.Protocol.Objects

/-!
# Messages on the wire

The events the Hub pushes to a face (`fleet-protocol/src/events.rs`), the commands a face sends
back (`commands.rs`) and the inbound envelope of the Hub (`fleet-hub/src/wire.rs`). A time in them
is read by `jiff`, whose parser is a parameter, and cut to whole seconds (`time.rs`).
-/

namespace VsFleet

/-- `Event` (`events.rs:28-74`). -/
inductive Event where
  | snapshot (schemaVersion : Nat) (sessions : List Session)
  | sessionAdded (schemaVersion : Nat) (session : Session)
  | sessionUpdated (schemaVersion : Nat) (session : Session)
  | sessionRemoved (schemaVersion : Nat) (sessionId : String)
  | runAdded (schemaVersion : Nat) (sessionId : String) (run : AgentRun)
  | runUpdated (schemaVersion : Nat) (sessionId : String) (run : AgentRun)
  | runRemoved (schemaVersion : Nat) (sessionId : String) (runId : String)

/-- The convenience constructors of `Event` (`events.rs:90-134`) stamp the current version. -/
def Event.ofSnapshot (sessions : List Session) : Event := .snapshot schemaVersion sessions

/-- A session was added. -/
def Event.ofSessionAdded (session : Session) : Event := .sessionAdded schemaVersion session

/-- A session has changed. -/
def Event.ofSessionUpdated (session : Session) : Event := .sessionUpdated schemaVersion session

/-- A session is gone. -/
def Event.ofSessionRemoved (sessionId : String) : Event := .sessionRemoved schemaVersion sessionId

/-- A run was added to a session. -/
def Event.ofRunAdded (sessionId : String) (run : AgentRun) : Event :=
  .runAdded schemaVersion sessionId run

/-- A run of a session has changed. -/
def Event.ofRunUpdated (sessionId : String) (run : AgentRun) : Event :=
  .runUpdated schemaVersion sessionId run

/-- A run of a session is gone. -/
def Event.ofRunRemoved (sessionId runId : String) : Event :=
  .runRemoved schemaVersion sessionId runId

/-- `Target`. -/
inductive Target where
  | session (sessionId : String)
  | run (runId : String)

/-- `Command`. -/
inductive Command where
  | focus (schemaVersion : Nat) (target : Target)
  | mute (schemaVersion : Nat) (sessionId : String)
  | unmute (schemaVersion : Nat) (sessionId : String)
  | solo (schemaVersion : Nat) (sessionId : String)
  | dismiss (schemaVersion : Nat) (target : Target)
  | setTags (schemaVersion : Nat) (sessionId : String) (tags : List String)

/-- `SeqStamp`: the durable identity of a run, its epoch and its place in the series. -/
structure SeqStamp where
  durableId : String
  epoch : Nat
  seq : Nat
  deriving DecidableEq, Repr

/-- `ClientMessage`. -/
inductive ClientMessage where
  | subscribe
  | command (command : Command)
  | sessionUpsert (session : Session)
  | sessionRemove (sessionId : String)
  | runUpsert (sessionId : String) (run : AgentRun) (stamp : Option SeqStamp)
  | runRemove (sessionId : String) (runId : String)

/-! ## Reading a time -/

/-- The nanoseconds from the epoch that a text reads as; without an offset it is UTC
(`time.rs:27-36`). -/
def readTimestamp (parse : String → Option Int) (s : String) : Option Int :=
  (parse s).or (parse (s ++ "Z"))

/-- `Timestamp::as_second`: a fraction is cut, toward the epoch. -/
def asSecond (nanos : Int) : Int :=
  nanos.tdiv 1000000000

/-- `parse_epoch_secs` (`time.rs:25-37`). -/
def parseTimestampSecs (parse : String → Option Int) (s : String) : Option Int :=
  (readTimestamp parse s).map asSecond

end VsFleet
