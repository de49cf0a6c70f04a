import VsFleet.Protocol.Codec

/-!
# The log and the inbound wire

The JSON form of the messages a client sends (`fleet-hub/src/wire.rs`) and of the rows of the event
log (`fleet-hub/src/persist.rs`), as the derive macros make it.
-/

namespace VsFleet

open Serde

variable (float : String → Option String)

/-- `SeqStamp` (`wire.rs:31-39`). -/
def SeqStamp.declared : List String := ["durable_id", "epoch", "seq"]

/-- The fields of a stamp. -/
def SeqStamp.fields (s : SeqStamp) : List (String × Option Json) :=
  [("durable_id", some (.string s.durableId)),
    ("epoch", some (writeNat s.epoch)),
    ("seq", some (writeNat s.seq))]

/-- A stamp as it is written. -/
def SeqStamp.serialize (s : SeqStamp) : Json := writeStruct s.fields []

/-- A stamp as it is read: the epoch is 0 where it is missing. -/
def SeqStamp.deserialize (j : Json) : Option SeqStamp := do
  let entries ← (j.structFields declared).bind (unique declared)
  return {
    durableId := ← required readString entries "durable_id"
    epoch := ← defaulted (readNat u64Bound) 0 entries "epoch"
    seq := ← required (readNat u64Bound) entries "seq" }

/-- `ClientMessage::type_name` (`wire.rs:110-119`). -/
def ClientMessage.typeName : ClientMessage → String
  | .subscribe => "subscribe"
  | .command _ => "command"
  | .sessionUpsert _ => "session.upsert"
  | .sessionRemove _ => "session.remove"
  | .runUpsert _ _ _ => "run.upsert"
  | .runRemove _ _ => "run.remove"

/-- `ClientMessage` (`wire.rs:64-106`): a command is flattened, its name and fields beside the
type. -/
def ClientMessage.fields : ClientMessage → List (String × Option Json)
  | .subscribe => []
  | .command c => c.tagged
  | .sessionUpsert session => [("session", some session.serialize)]
  | .sessionRemove sessionId => [("session_id", some (.string sessionId))]
  | .runUpsert sessionId run stamp =>
    [("session_id", some (.string sessionId)), ("run", some run.serialize),
      ("stamp", stamp.map SeqStamp.serialize)]
  | .runRemove sessionId runId =>
    [("session_id", some (.string sessionId)), ("run_id", some (.string runId))]

/-- A message as it is written, with the name of its variant in `type`. -/
def ClientMessage.serialize (m : ClientMessage) : Json := writeTagged "type" m.typeName m.fields

/-- A message as it is read. -/
def ClientMessage.deserialize (j : Json) : Option ClientMessage := do
  let (name, content) ← readTagged float "type" j
  match name with
  | "subscribe" => return .subscribe
  | "command" => return .command (← Command.deserialize float (.object content))
  | "session.upsert" =>
    let entries ← unique ["session"] content
    return .sessionUpsert (← required (Session.deserialize float) entries "session")
  | "session.remove" =>
    let entries ← unique ["session_id"] content
    return .sessionRemove (← required readString entries "session_id")
  | "run.upsert" =>
    let entries ← unique ["session_id", "run", "stamp"] content
    return .runUpsert (← required readString entries "session_id")
      (← required (AgentRun.deserialize float) entries "run")
      (← defaulted (readOption SeqStamp.deserialize) none entries "stamp")
  | "run.remove" =>
    let entries ← unique ["session_id", "run_id"] content
    return .runRemove (← required readString entries "session_id")
      (← required readString entries "run_id")
  | _ => none

/-- `PersistEvent` (`persist.rs:59-75`). -/
inductive PersistEvent where
  | sessionUpsert (session : Session)
  | sessionRemove (sessionId : String)
  | runUpsert (sessionId : String) (run : AgentRun)
  | runRemove (sessionId : String) (runId : String)

/-- The tags of `PersistEvent` (`persist.rs:59-75`). -/
def PersistEvent.kind : PersistEvent → String
  | .sessionUpsert _ => "session.upsert"
  | .sessionRemove _ => "session.remove"
  | .runUpsert _ _ => "run.upsert"
  | .runRemove _ _ => "run.remove"

/-- The fields of `PersistEvent` (`persist.rs:59-75`). -/
def PersistEvent.fields : PersistEvent → List (String × Option Json)
  | .sessionUpsert session => [("session", some session.serialize)]
  | .sessionRemove sessionId => [("session_id", some (.string sessionId))]
  | .runUpsert sessionId run =>
    [("session_id", some (.string sessionId)), ("run", some run.serialize)]
  | .runRemove sessionId runId =>
    [("session_id", some (.string sessionId)), ("run_id", some (.string runId))]

/-- A row of the log as it is written, with the name of its variant in `kind`. -/
def PersistEvent.serialize (e : PersistEvent) : Json := writeTagged "kind" e.kind e.fields

/-- A row of the log as it is read. -/
def PersistEvent.deserialize (j : Json) : Option PersistEvent := do
  let (name, content) ← readTagged float "kind" j
  match name with
  | "session.upsert" =>
    let entries ← unique ["session"] content
    return .sessionUpsert (← required (Session.deserialize float) entries "session")
  | "session.remove" =>
    let entries ← unique ["session_id"] content
    return .sessionRemove (← required readString entries "session_id")
  | "run.upsert" =>
    let entries ← unique ["session_id", "run"] content
    return .runUpsert (← required readString entries "session_id")
      (← required (AgentRun.deserialize float) entries "run")
  | "run.remove" =>
    let entries ← unique ["session_id", "run_id"] content
    return .runRemove (← required readString entries "session_id")
      (← required readString entries "run_id")
  | _ => none

end VsFleet
