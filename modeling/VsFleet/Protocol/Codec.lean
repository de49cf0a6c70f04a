import VsFleet.Misc.Serde
import VsFleet.Protocol.Wire

/-!
# The protocol on the wire

The JSON form of the product objects, the events and the commands, as the derive macros make it
from the attributes of `fleet-protocol/src/objects.rs`, `state.rs`, `events.rs` and `commands.rs`.
Each type has its fields in the order of its declaration, a writer and a reader.
-/

namespace VsFleet

open Serde

variable (float : String → Option String)

/-- A `u32` is below this. -/
def u32Bound : Nat := 4294967296

/-- A `u64` is below this. -/
def u64Bound : Nat := 18446744073709551616

/-- `String`, read from a JSON string. -/
def readString : Json → Option String := Json.asString

/-- `bool`, read from a JSON boolean. -/
def readBool : Json → Option Bool := Json.asBool

/-! ## Unit variants -/

/-- The tokens of `State` (`state.rs:19-32`). -/
def State.token : State → String
  | .working => "working"
  | .waiting => "waiting"
  | .idle => "idle"
  | .done => "done"
  | .error => "error"
  | .dead => "dead"

/-- `State::ALL` (`state.rs:36-43`). -/
def State.all : List State := [.working, .waiting, .idle, .done, .error, .dead]

/-- The tokens of `Urgency` (`state.rs:61-76`): the named variant for none has the token `null`. -/
def Urgency.token : Urgency → String
  | .approval => "approval"
  | .question => "question"
  | .idleDone => "idle-done"
  | .none => "null"

/-- `Urgency::ALL` (`state.rs:80-85`). -/
def Urgency.all : List Urgency := [.approval, .question, .idleDone, .none]

/-- The tokens of `Confidence` (`state.rs:95-101`). -/
def Confidence.token : Confidence → String
  | .high => "high"
  | .inferred => "inferred"

/-- `Confidence::ALL` (`state.rs:105`). -/
def Confidence.all : List Confidence := [.high, .inferred]

/-- The tokens of `LocationKind` (`objects.rs:39-43`). -/
def LocationKind.token : LocationKind → String
  | .local => "local"
  | .docker => "docker"
  | .remote => "remote"

/-- The variants of `LocationKind`. -/
def LocationKind.all : List LocationKind := [.local, .docker, .remote]

/-- The tokens of `LocationGlyph` (`objects.rs:49-53`). -/
def LocationGlyph.token : LocationGlyph → String
  | .laptop => "laptop"
  | .docker => "docker"
  | .remote => "remote"

/-- The variants of `LocationGlyph`. -/
def LocationGlyph.all : List LocationGlyph := [.laptop, .docker, .remote]

/-- The tokens of `EditorKind` (`objects.rs:73-77`). -/
def EditorKind.token : EditorKind → String
  | .vscode => "vscode"
  | .cursor => "cursor"
  | .windsurf => "windsurf"

/-- The variants of `EditorKind`. -/
def EditorKind.all : List EditorKind := [.vscode, .cursor, .windsurf]

/-- The tokens of `ServerKind` (`objects.rs:98-103`). -/
def ServerKind.token : ServerKind → String
  | .codeServer => "code-server"
  | .openvscodeServer => "openvscode-server"
  | .desktopRemote => "desktop-remote"
  | .local => "local"

/-- The variants of `ServerKind`. -/
def ServerKind.all : List ServerKind := [.codeServer, .openvscodeServer, .desktopRemote, .local]

/-- The tokens of `AgentKind` (`objects.rs:120-124`). -/
def AgentKind.token : AgentKind → String
  | .claudeCode => "claude-code"
  | .codex => "codex"
  | .other => "other"

/-- The variants of `AgentKind`. -/
def AgentKind.all : List AgentKind := [.claudeCode, .codex, .other]

/-- A `State`, from its token. -/
def readState : Json → Option State := readToken State.all State.token

/-- An `Urgency`, from its token. -/
def readUrgency : Json → Option Urgency := readToken Urgency.all Urgency.token

/-- A `Confidence`, from its token. -/
def readConfidence : Json → Option Confidence := readToken Confidence.all Confidence.token

/-- A `LocationKind`, from its token. -/
def readLocationKind : Json → Option LocationKind := readToken LocationKind.all LocationKind.token

/-- A `LocationGlyph`, from its token. -/
def readLocationGlyph : Json → Option LocationGlyph :=
  readToken LocationGlyph.all LocationGlyph.token

/-- An `EditorKind`, from its token. -/
def readEditorKind : Json → Option EditorKind := readToken EditorKind.all EditorKind.token

/-- A `ServerKind`, from its token. -/
def readServerKind : Json → Option ServerKind := readToken ServerKind.all ServerKind.token

/-- An `AgentKind`, from its token. -/
def readAgentKind : Json → Option AgentKind := readToken AgentKind.all AgentKind.token

/-! ## Objects -/

/-- `is_none_or_json_null` (`objects.rs:31-33`), as the skip of an opaque field. -/
def skipNoneOrNull : Option Json → Option Json
  | none | some .null => none
  | some v => some v

/-- `Location` (`objects.rs:58-67`). -/
def Location.declared : List String := ["kind", "label", "glyph", "attach_hint"]

/-- The declared fields of a location, in their order; an absent hint is left out. -/
def Location.fields (l : Location) : List (String × Option Json) :=
  [("kind", some (.string l.kind.token)),
    ("label", some (.string l.label)),
    ("glyph", some (.string l.glyph.token)),
    ("attach_hint", l.attachHint.map .string)]

/-- A location as it is written: the declared fields, then the unknown ones. -/
def Location.serialize (l : Location) : Json := writeStruct l.fields l.extra

/-- A location as it is read: defaults for what is missing, and what is not declared kept apart. -/
def Location.deserialize (j : Json) : Option Location := do
  let entries ← readMap declared j
  return {
    kind := ← required readLocationKind entries "kind"
    label := ← required readString entries "label"
    glyph := ← required readLocationGlyph entries "glyph"
    attachHint := ← defaulted (readOption readString) none entries "attach_hint"
    extra := ← flattened float declared entries }

/-- `Editor` (`objects.rs:83-92`). -/
def Editor.declared : List String := ["kind", "focus_hint"]

/-- The declared fields of an editor, each left out where it is absent. -/
def Editor.fields (e : Editor) : List (String × Option Json) :=
  [("kind", e.kind.map (fun kind => .string kind.token)),
    ("focus_hint", e.focusHint.map .string)]

/-- An editor as it is written: the declared fields, then the unknown ones. -/
def Editor.serialize (e : Editor) : Json := writeStruct e.fields e.extra

/-- An editor as it is read: defaults for what is missing, and what is not declared kept apart. -/
def Editor.deserialize (j : Json) : Option Editor := do
  let entries ← readMap declared j
  return {
    kind := ← defaulted (readOption readEditorKind) none entries "kind"
    focusHint := ← defaulted (readOption readString) none entries "focus_hint"
    extra := ← flattened float declared entries }

/-- `Server` (`objects.rs:108-114`). -/
def Server.declared : List String := ["kind", "version"]

/-- The declared fields of a server; an absent version is left out. -/
def Server.fields (s : Server) : List (String × Option Json) :=
  [("kind", some (.string s.kind.token)),
    ("version", s.version.map .string)]

/-- A server as it is written: the declared fields, then the unknown ones. -/
def Server.serialize (s : Server) : Json := writeStruct s.fields s.extra

/-- A server as it is read: the defaults of what is missing, and what is not declared kept apart. -/
def Server.deserialize (j : Json) : Option Server := do
  let entries ← readMap declared j
  return {
    kind := ← required readServerKind entries "kind"
    version := ← defaulted (readOption readString) none entries "version"
    extra := ← flattened float declared entries }

/-- `AgentRun` (`objects.rs:132-160`). -/
def AgentRun.declared : List String :=
  ["schema_version", "run_id", "agent_kind", "native_id", "cwd", "state", "urgency",
    "last_message", "waiting_since", "confidence", "diff_summary", "updated_at"]

/-- The declared fields of a run, in their order, without those that are skipped when absent. -/
def AgentRun.fields (r : AgentRun) : List (String × Option Json) :=
  [("schema_version", some (writeNat r.schemaVersion)),
    ("run_id", some (.string r.runId)),
    ("agent_kind", some (.string r.agentKind.token)),
    ("native_id", some (.string r.nativeId)),
    ("cwd", some (.string r.cwd)),
    ("state", some (.string r.state.token)),
    ("urgency", r.urgency.map (fun urgency => .string urgency.token)),
    ("last_message", r.lastMessage.map .string),
    ("waiting_since", r.waitingSince.map .string),
    ("confidence", some (.string r.confidence.token)),
    ("diff_summary", skipNoneOrNull r.diffSummary),
    ("updated_at", some (.string r.updatedAt))]

/-- A run as it is written: the declared fields, then the unknown ones. -/
def AgentRun.serialize (r : AgentRun) : Json := writeStruct r.fields r.extra

/-- A run as it is read: the defaults of what is missing, and what is not declared kept apart. -/
def AgentRun.deserialize (j : Json) : Option AgentRun := do
  let entries ← readMap declared j
  return {
    schemaVersion := ← required (readNat u32Bound) entries "schema_version"
    runId := ← required readString entries "run_id"
    agentKind := ← required readAgentKind entries "agent_kind"
    nativeId := ← required readString entries "native_id"
    cwd := ← required readString entries "cwd"
    state := ← required readState entries "state"
    urgency := ← defaulted (readOption readUrgency) none entries "urgency"
    lastMessage := ← defaulted (readOption readString) none entries "last_message"
    waitingSince := ← defaulted (readOption readString) none entries "waiting_since"
    confidence := ← required readConfidence entries "confidence"
    diffSummary := ← defaulted (readOption (readValue float)) none entries "diff_summary"
    updatedAt := ← required readString entries "updated_at"
    extra := ← flattened float declared entries }

/-- `Session` (`objects.rs:198-230`). -/
def Session.declared : List String :=
  ["schema_version", "session_id", "title", "location", "editor", "server", "runs",
    "rollup_state", "rollup_urgency", "muted", "soloed", "unread", "tags", "policy",
    "updated_at"]

/-- The declared fields of a session, in their order, with those left out that are skipped when
absent. -/
def Session.fields (s : Session) : List (String × Option Json) :=
  [("schema_version", some (writeNat s.schemaVersion)),
    ("session_id", some (.string s.sessionId)),
    ("title", some (.string s.title)),
    ("location", some s.location.serialize),
    ("editor", s.editor.map Editor.serialize),
    ("server", some s.server.serialize),
    ("runs", some (writeList AgentRun.serialize s.runs)),
    ("rollup_state", some (.string s.rollupState.token)),
    ("rollup_urgency", s.rollupUrgency.map (fun urgency => .string urgency.token)),
    ("muted", some (.bool s.muted)),
    ("soloed", some (.bool s.soloed)),
    ("unread", some (.bool s.unread)),
    ("tags", some (writeList .string s.tags)),
    ("policy", skipNoneOrNull s.policy),
    ("updated_at", some (.string s.updatedAt))]

/-- A session as it is written: the declared fields, then the unknown ones. -/
def Session.serialize (s : Session) : Json := writeStruct s.fields s.extra

/-- A session as it is read: defaults for what is missing, and what is not declared kept apart. -/
def Session.deserialize (j : Json) : Option Session := do
  let entries ← readMap declared j
  return {
    schemaVersion := ← required (readNat u32Bound) entries "schema_version"
    sessionId := ← required readString entries "session_id"
    title := ← required readString entries "title"
    location := ← required (Location.deserialize float) entries "location"
    editor := ← defaulted (readOption (Editor.deserialize float)) none entries "editor"
    server := ← required (Server.deserialize float) entries "server"
    runs := ← required (readList (AgentRun.deserialize float)) entries "runs"
    rollupState := ← required readState entries "rollup_state"
    rollupUrgency := ← defaulted (readOption readUrgency) none entries "rollup_urgency"
    muted := ← defaulted readBool false entries "muted"
    soloed := ← defaulted readBool false entries "soloed"
    unread := ← defaulted readBool false entries "unread"
    tags := ← defaulted (readList readString) [] entries "tags"
    policy := ← defaulted (readOption (readValue float)) none entries "policy"
    updatedAt := ← required readString entries "updated_at"
    extra := ← flattened float declared entries }

/-! ## Events -/

/-- `Event::type_name` (`events.rs:78-88`). -/
def Event.typeName : Event → String
  | .snapshot _ _ => "fleet.snapshot"
  | .sessionAdded _ _ => "session.added"
  | .sessionUpdated _ _ => "session.updated"
  | .sessionRemoved _ _ => "session.removed"
  | .runAdded _ _ _ => "run.added"
  | .runUpdated _ _ _ => "run.updated"
  | .runRemoved _ _ _ => "run.removed"

/-- `Event` (`events.rs:28-74`). -/
def Event.fields : Event → List (String × Option Json)
  | .snapshot schemaVersion sessions =>
    [("schema_version", some (writeNat schemaVersion)),
      ("sessions", some (writeList Session.serialize sessions))]
  | .sessionAdded schemaVersion session | .sessionUpdated schemaVersion session =>
    [("schema_version", some (writeNat schemaVersion)), ("session", some session.serialize)]
  | .sessionRemoved schemaVersion sessionId =>
    [("schema_version", some (writeNat schemaVersion)), ("session_id", some (.string sessionId))]
  | .runAdded schemaVersion sessionId run | .runUpdated schemaVersion sessionId run =>
    [("schema_version", some (writeNat schemaVersion)), ("session_id", some (.string sessionId)),
      ("run", some run.serialize)]
  | .runRemoved schemaVersion sessionId runId =>
    [("schema_version", some (writeNat schemaVersion)), ("session_id", some (.string sessionId)),
      ("run_id", some (.string runId))]

/-- An event as it is written, with the name of its variant in `type`. -/
def Event.serialize (e : Event) : Json := writeTagged "type" e.typeName e.fields

/-- The two events of one shape that carry a session, and the two that carry a run. -/
def readSessionEvent (event : Nat → Session → Event) (content : List (String × Json)) :
    Option Event := do
  let entries ← unique ["schema_version", "session"] content
  return event (← required (readNat u32Bound) entries "schema_version")
    (← required (Session.deserialize float) entries "session")

/-- The content of the two events that carry a run. -/
def readRunEvent (event : Nat → String → AgentRun → Event) (content : List (String × Json)) :
    Option Event := do
  let entries ← unique ["schema_version", "session_id", "run"] content
  return event (← required (readNat u32Bound) entries "schema_version")
    (← required readString entries "session_id")
    (← required (AgentRun.deserialize float) entries "run")

/-- An event as it is read: the variant that `type` names takes its own keys and no others. -/
def Event.deserialize (j : Json) : Option Event := do
  let (name, content) ← readTagged float "type" j
  match name with
  | "fleet.snapshot" =>
    let entries ← unique ["schema_version", "sessions"] content
    return .snapshot (← required (readNat u32Bound) entries "schema_version")
      (← required (readList (Session.deserialize float)) entries "sessions")
  | "session.added" => readSessionEvent float .sessionAdded content
  | "session.updated" => readSessionEvent float .sessionUpdated content
  | "session.removed" =>
    let entries ← unique ["schema_version", "session_id"] content
    return .sessionRemoved (← required (readNat u32Bound) entries "schema_version")
      (← required readString entries "session_id")
  | "run.added" => readRunEvent float .runAdded content
  | "run.updated" => readRunEvent float .runUpdated content
  | "run.removed" =>
    let entries ← unique ["schema_version", "session_id", "run_id"] content
    return .runRemoved (← required (readNat u32Bound) entries "schema_version")
      (← required readString entries "session_id") (← required readString entries "run_id")
  | _ => none

/-! ## Commands -/

/-- `Target` (`commands.rs:20-23`). -/
def Target.serialize : Target → Json
  | .session sessionId => writeTagged "type" "session" [("session_id", some (.string sessionId))]
  | .run runId => writeTagged "type" "run" [("run_id", some (.string runId))]

/-- A target as it is read. -/
def Target.deserialize (j : Json) : Option Target := do
  let (name, content) ← readTagged float "type" j
  match name with
  | "session" =>
    let entries ← unique ["session_id"] content
    return .session (← required readString entries "session_id")
  | "run" =>
    let entries ← unique ["run_id"] content
    return .run (← required readString entries "run_id")
  | _ => none

/-- `Command::command_name` (`commands.rs:80-89`). -/
def Command.commandName : Command → String
  | .focus _ _ => "focus"
  | .mute _ _ => "mute"
  | .unmute _ _ => "unmute"
  | .solo _ _ => "solo"
  | .dismiss _ _ => "dismiss"
  | .setTags _ _ _ => "set_tags"

/-- `Command` (`commands.rs:44-76`). -/
def Command.fields : Command → List (String × Option Json)
  | .focus schemaVersion target | .dismiss schemaVersion target =>
    [("schema_version", some (writeNat schemaVersion)), ("target", some target.serialize)]
  | .mute schemaVersion sessionId | .unmute schemaVersion sessionId
  | .solo schemaVersion sessionId =>
    [("schema_version", some (writeNat schemaVersion)), ("session_id", some (.string sessionId))]
  | .setTags schemaVersion sessionId tags =>
    [("schema_version", some (writeNat schemaVersion)), ("session_id", some (.string sessionId)),
      ("tags", some (writeList .string tags))]

/-- The name of the command among its fields. -/
def Command.tagged (c : Command) : List (String × Option Json) :=
  ("command", some (.string c.commandName)) :: c.fields

/-- A command as it is written, with the name of its variant in `command`. -/
def Command.serialize (c : Command) : Json := writeTagged "command" c.commandName c.fields

/-- The two commands that address a target, and the three that address a session alone. -/
def readTargetCommand (command : Nat → Target → Command) (content : List (String × Json)) :
    Option Command := do
  let entries ← unique ["schema_version", "target"] content
  return command (← required (readNat u32Bound) entries "schema_version")
    (← required (Target.deserialize float) entries "target")

/-- The content of the commands that name a session and nothing else. -/
def readSessionCommand (command : Nat → String → Command) (content : List (String × Json)) :
    Option Command := do
  let entries ← unique ["schema_version", "session_id"] content
  return command (← required (readNat u32Bound) entries "schema_version")
    (← required readString entries "session_id")

/-- A command as it is read. -/
def Command.deserialize (j : Json) : Option Command := do
  let (name, content) ← readTagged float "command" j
  match name with
  | "focus" => readTargetCommand float .focus content
  | "mute" => readSessionCommand .mute content
  | "unmute" => readSessionCommand .unmute content
  | "solo" => readSessionCommand .solo content
  | "dismiss" => readTargetCommand float .dismiss content
  | "set_tags" =>
    let entries ← unique ["schema_version", "session_id", "tags"] content
    return .setTags (← required (readNat u32Bound) entries "schema_version")
      (← required readString entries "session_id")
      (← required (readList readString) entries "tags")
  | _ => none

end VsFleet
