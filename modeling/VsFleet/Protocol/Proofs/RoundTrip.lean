import VsFleet.Protocol.Codec

/-!
# The protocol survives the wire

Reading inverts writing on every object of the protocol whose extra keys are none of its fields,
whose opaque fields are not the null value and whose numbers in both are read back exactly. The
numbers of its own fields always are.
-/

namespace VsFleet

open Serde

variable {float : String → Option String}

/-! ## Unit variants -/

/-- A state is read from its token, and so is each of the other enumerations. -/
theorem readState_token (s : State) : readState (.string s.token) = some s :=
  readToken_token (by decide) (by cases s <;> decide)

theorem readUrgency_token (u : Urgency) : readUrgency (.string u.token) = some u :=
  readToken_token (by decide) (by cases u <;> decide)

theorem readConfidence_token (c : Confidence) : readConfidence (.string c.token) = some c :=
  readToken_token (by decide) (by cases c <;> decide)

theorem readLocationKind_token (k : LocationKind) :
    readLocationKind (.string k.token) = some k :=
  readToken_token (by decide) (by cases k <;> decide)

theorem readLocationGlyph_token (g : LocationGlyph) :
    readLocationGlyph (.string g.token) = some g :=
  readToken_token (by decide) (by cases g <;> decide)

theorem readEditorKind_token (k : EditorKind) : readEditorKind (.string k.token) = some k :=
  readToken_token (by decide) (by cases k <;> decide)

theorem readServerKind_token (k : ServerKind) : readServerKind (.string k.token) = some k :=
  readToken_token (by decide) (by cases k <;> decide)

theorem readAgentKind_token (k : AgentKind) : readAgentKind (.string k.token) = some k :=
  readToken_token (by decide) (by cases k <;> decide)

theorem readString_string (s : String) : readString (.string s) = some s := rfl

theorem readBool_bool (b : Bool) : readBool (.bool b) = some b := rfl

/-- A text that may be missing is read back. -/
theorem optional_string (o : Option String) : Optional readString (o.map .string) o :=
  .map (fun s _ => readString_string s) (by simp)

/-- So is an urgency that may be missing. -/
theorem optional_urgency (o : Option Urgency) :
    Optional readUrgency (o.map (fun u => .string u.token)) o :=
  .map (fun u _ => readUrgency_token u) (by simp)

/-! ## Values of the types -/

/-- A flattened map: its entries are a map of values, as its type has them, with numbers that are
read back exactly, and none has the key of a field. -/
structure Extra.Proper (float : String → Option String) (declared : List String) (extra : Extra) :
    Prop where
  value : (Json.object extra).IsKeyed
  numbers : (Json.object extra).Exact float
  apart : ∀ e ∈ extra, e.1 ∉ declared

/-- An optional opaque field: a value with numbers that are read back exactly, and not the null
one. -/
def ProperOpaque (float : String → Option String) (o : Option Json) : Prop :=
  ∀ v, o = some v → v.IsKeyed ∧ v.Exact float ∧ v ≠ .null

/-- A run as its types have it, with the conditions on its map and its opaque field. -/
structure AgentRun.Proper (float : String → Option String) (r : AgentRun) : Prop where
  schemaVersion : r.schemaVersion < u32Bound
  diffSummary : ProperOpaque float r.diffSummary
  extra : Extra.Proper float AgentRun.declared r.extra

/-- A session as its types have it, with the conditions on its maps and its opaque field. -/
structure Session.Proper (float : String → Option String) (s : Session) : Prop where
  schemaVersion : s.schemaVersion < u32Bound
  location : Extra.Proper float Location.declared s.location.extra
  editor : ∀ e, s.editor = some e → Extra.Proper float Editor.declared e.extra
  server : Extra.Proper float Server.declared s.server.extra
  runs : ∀ r ∈ s.runs, r.Proper float
  policy : ProperOpaque float s.policy
  extra : Extra.Proper float Session.declared s.extra

/-- And a value that is kept as it was read. -/
theorem ProperOpaque.optional {o : Option Json} (h : ProperOpaque float o) :
    Optional (readValue float) (skipNoneOrNull o) o := by
  cases o with
  | none => exact Or.inl ⟨rfl, rfl⟩
  | some v =>
    obtain ⟨value, numbers, other⟩ := h v rfl
    have written : skipNoneOrNull (some v) = some v := by
      cases v with
      | null => exact absurd rfl other
      | _ => rfl
    have read : readValue float v = some v := by
      rw [readValue, Json.toValue, show v.readNumbers float = some v from numbers]
      exact congrArg some value
    exact Or.inr ⟨v, v, written, rfl, other, read⟩

/-! ## Numbers that are written -/

/-- The numbers of the fields that are written are read back exactly. -/
def ExactFields (float : String → Option String) (fields : List (String × Option Json)) : Prop :=
  ∀ f ∈ fields, ∀ v, f.2 = some v → v.Exact float

@[simp] theorem exactFields_nil : ExactFields float [] := by simp [ExactFields]

/-- Fields are exact if each that is written is. -/
@[simp] theorem exactFields_cons {f : String × Option Json} {fields : List (String × Option Json)} :
    ExactFields float (f :: fields) ↔ (∀ v, f.2 = some v → v.Exact float) ∧
      ExactFields float fields := List.forall_mem_cons

@[simp] theorem exact_string (s : String) : (Json.string s).Exact float := rfl
@[simp] theorem exact_bool (b : Bool) : (Json.bool b).Exact float := rfl

/-- A version is an integer that is read exactly. -/
theorem exact_version {n : Nat} (h : n < u32Bound) : (writeNat n).Exact float :=
  exact_writeNat (h.trans (by decide))

/-- The numbers of such a value are read exactly. -/
theorem ProperOpaque.numbers {o : Option Json} (h : ProperOpaque float o) {v : Json}
    (written : skipNoneOrNull o = some v) : v.Exact float := by
  cases o with
  | none => cases written
  | some w =>
    obtain rfl : w = v := by
      cases w <;> first | exact Option.some.inj written | cases written
    exact (h w rfl).2.1

/-! ## Objects -/

section

variable {l : Location} {e : Editor} {srv : Server} {r : AgentRun} {s : Session}

/-- A location with proper unknown fields is written exactly. -/
theorem Location.exact_serialize (h : Extra.Proper float Location.declared l.extra) :
    l.serialize.Exact float := by
  refine exact_writeStruct ?_ (Json.exact_object.mp h.numbers)
  change ExactFields float l.fields
  simp [Location.fields]

/-- So is an editor. -/
theorem Editor.exact_serialize (h : Extra.Proper float Editor.declared e.extra) :
    e.serialize.Exact float := by
  refine exact_writeStruct ?_ (Json.exact_object.mp h.numbers)
  change ExactFields float e.fields
  simp [Editor.fields]

/-- So is a server. -/
theorem Server.exact_serialize (h : Extra.Proper float Server.declared srv.extra) :
    srv.serialize.Exact float := by
  refine exact_writeStruct ?_ (Json.exact_object.mp h.numbers)
  change ExactFields float srv.fields
  simp [Server.fields]

/-- So is a run. -/
theorem AgentRun.Proper.exact_serialize (h : r.Proper float) : r.serialize.Exact float := by
  refine exact_writeStruct ?_ (Json.exact_object.mp h.extra.numbers)
  change ExactFields float r.fields
  have diffSummary : ∀ v, skipNoneOrNull r.diffSummary = some v → v.Exact float :=
    fun _ => h.diffSummary.numbers
  simpa [AgentRun.fields, exact_version h.schemaVersion] using diffSummary

/-- So is a session with its runs. -/
theorem Session.Proper.exact_serialize (h : s.Proper float) : s.serialize.Exact float := by
  refine exact_writeStruct ?_ (Json.exact_object.mp h.extra.numbers)
  change ExactFields float s.fields
  have runs : (writeList AgentRun.serialize s.runs).Exact float :=
    exact_writeList (fun r mem => (h.runs r mem).exact_serialize)
  have tags : (writeList .string s.tags).Exact float := exact_writeList (fun t _ => exact_string t)
  have policy : ∀ v, skipNoneOrNull s.policy = some v → v.Exact float :=
    fun _ => h.policy.numbers
  have editor := fun e found => Editor.exact_serialize (h.editor e found)
  simp [Session.fields, exact_version h.schemaVersion, Location.exact_serialize h.location,
    Server.exact_serialize h.server, runs, tags]
  exact ⟨editor, policy⟩

/-- The fields of a location are the declared ones, and the unknown ones are others. -/
theorem Location.layout (h : ∀ e ∈ l.extra, e.1 ∉ Location.declared) :
    Layout Location.declared l.fields l.extra := ⟨rfl, by decide, h⟩

/-- The same of an editor. -/
theorem Editor.layout (h : ∀ x ∈ e.extra, x.1 ∉ Editor.declared) :
    Layout Editor.declared e.fields e.extra := ⟨rfl, by decide, h⟩

/-- The same of a server. -/
theorem Server.layout (h : ∀ e ∈ srv.extra, e.1 ∉ Server.declared) :
    Layout Server.declared srv.fields srv.extra := ⟨rfl, by decide, h⟩

/-- The same of a run. -/
theorem AgentRun.layout (h : ∀ e ∈ r.extra, e.1 ∉ AgentRun.declared) :
    Layout AgentRun.declared r.fields r.extra := ⟨rfl, by decide, h⟩

/-- The same of a session. -/
theorem Session.layout (h : ∀ e ∈ s.extra, e.1 ∉ Session.declared) :
    Layout Session.declared s.fields s.extra := ⟨rfl, by decide, h⟩

/-- A location is read back as it was written. -/
theorem Location.deserialize_serialize (h : Extra.Proper float Location.declared l.extra) :
    deserialize float l.serialize = some l := by
  have layout := Location.layout h.apart
  unfold Location.deserialize Location.serialize
  refine bind_eq_some layout.readMap_writeStruct ?_
  refine bind_eq_some (layout.required_eq "kind" rfl (readLocationKind_token l.kind)) ?_
  refine bind_eq_some (layout.required_eq "label" rfl (readString_string l.label)) ?_
  refine bind_eq_some (layout.required_eq "glyph" rfl (readLocationGlyph_token l.glyph)) ?_
  refine bind_eq_some (layout.optional_eq "attach_hint" rfl (optional_string _)) ?_
  rw [layout.flattened_writeStruct h.value h.numbers]
  rfl

/-- So is an editor. -/
theorem Editor.deserialize_serialize (h : Extra.Proper float Editor.declared e.extra) :
    deserialize float e.serialize = some e := by
  have layout := Editor.layout h.apart
  unfold Editor.deserialize Editor.serialize
  refine bind_eq_some layout.readMap_writeStruct ?_
  refine bind_eq_some (layout.optional_eq "kind" rfl
    (.map (fun a _ => readEditorKind_token a) (by simp))) ?_
  refine bind_eq_some (layout.optional_eq "focus_hint" rfl (optional_string _)) ?_
  rw [layout.flattened_writeStruct h.value h.numbers]
  rfl

/-- So is a server. -/
theorem Server.deserialize_serialize (h : Extra.Proper float Server.declared srv.extra) :
    deserialize float srv.serialize = some srv := by
  have layout := Server.layout h.apart
  unfold Server.deserialize Server.serialize
  refine bind_eq_some layout.readMap_writeStruct ?_
  refine bind_eq_some (layout.required_eq "kind" rfl (readServerKind_token srv.kind)) ?_
  refine bind_eq_some (layout.optional_eq "version" rfl (optional_string _)) ?_
  rw [layout.flattened_writeStruct h.value h.numbers]
  rfl

/-- So is a run. -/
theorem AgentRun.deserialize_serialize (h : r.Proper float) :
    deserialize float r.serialize = some r := by
  have layout := AgentRun.layout h.extra.apart
  unfold AgentRun.deserialize AgentRun.serialize
  refine bind_eq_some layout.readMap_writeStruct ?_
  refine bind_eq_some (layout.required_eq "schema_version" rfl
    (readNat_writeNat h.schemaVersion)) ?_
  refine bind_eq_some (layout.required_eq "run_id" rfl (readString_string r.runId)) ?_
  refine bind_eq_some (layout.required_eq "agent_kind" rfl (readAgentKind_token r.agentKind)) ?_
  refine bind_eq_some (layout.required_eq "native_id" rfl (readString_string r.nativeId)) ?_
  refine bind_eq_some (layout.required_eq "cwd" rfl (readString_string r.cwd)) ?_
  refine bind_eq_some (layout.required_eq "state" rfl (readState_token r.state)) ?_
  refine bind_eq_some (layout.optional_eq "urgency" rfl (optional_urgency _)) ?_
  refine bind_eq_some (layout.optional_eq "last_message" rfl (optional_string _)) ?_
  refine bind_eq_some (layout.optional_eq "waiting_since" rfl (optional_string _)) ?_
  refine bind_eq_some (layout.required_eq "confidence" rfl (readConfidence_token r.confidence)) ?_
  refine bind_eq_some (layout.optional_eq "diff_summary" rfl h.diffSummary.optional) ?_
  refine bind_eq_some (layout.required_eq "updated_at" rfl (readString_string r.updatedAt)) ?_
  rw [layout.flattened_writeStruct h.extra.value h.extra.numbers]
  rfl

/-- An editor is not mistaken for a missing one. -/
theorem Editor.serialize_ne_null (e : Editor) : e.serialize ≠ .null := by
  simp [Editor.serialize, writeStruct]

/-- A session is read back with all it holds. -/
theorem Session.deserialize_serialize (h : s.Proper float) :
    deserialize float s.serialize = some s := by
  have layout := Session.layout h.extra.apart
  have runs : readList (AgentRun.deserialize float) (writeList AgentRun.serialize s.runs) =
      some s.runs :=
    Inverts.list (fun r => AgentRun.deserialize_serialize) h.runs
  have tags : readList readString (writeList .string s.tags) = some s.tags :=
    Inverts.list (P := fun _ => True) (fun t _ => readString_string t) (by simp)
  unfold Session.deserialize Session.serialize
  refine bind_eq_some layout.readMap_writeStruct ?_
  refine bind_eq_some (layout.required_eq "schema_version" rfl
    (readNat_writeNat h.schemaVersion)) ?_
  refine bind_eq_some (layout.required_eq "session_id" rfl (readString_string s.sessionId)) ?_
  refine bind_eq_some (layout.required_eq "title" rfl (readString_string s.title)) ?_
  refine bind_eq_some (layout.required_eq "location" rfl
    (Location.deserialize_serialize h.location)) ?_
  refine bind_eq_some (layout.optional_eq "editor" rfl
    (.map (fun a ha => Editor.deserialize_serialize (h.editor a ha)) Editor.serialize_ne_null)) ?_
  refine bind_eq_some (layout.required_eq "server" rfl (Server.deserialize_serialize h.server)) ?_
  refine bind_eq_some (layout.required_eq "runs" rfl runs) ?_
  refine bind_eq_some (layout.required_eq "rollup_state" rfl (readState_token s.rollupState)) ?_
  refine bind_eq_some (layout.optional_eq "rollup_urgency" rfl (optional_urgency _)) ?_
  refine bind_eq_some (layout.defaulted_eq "muted" rfl (readBool_bool s.muted)) ?_
  refine bind_eq_some (layout.defaulted_eq "soloed" rfl (readBool_bool s.soloed)) ?_
  refine bind_eq_some (layout.defaulted_eq "unread" rfl (readBool_bool s.unread)) ?_
  refine bind_eq_some (layout.defaulted_eq "tags" rfl tags) ?_
  refine bind_eq_some (layout.optional_eq "policy" rfl h.policy.optional) ?_
  refine bind_eq_some (layout.required_eq "updated_at" rfl (readString_string s.updatedAt)) ?_
  rw [layout.flattened_writeStruct h.extra.value h.extra.numbers]
  rfl

end

/-! ## Events -/

/-- An event as its types have it, with the conditions on the objects it carries. -/
def Event.Proper (float : String → Option String) : Event → Prop
  | .snapshot schemaVersion sessions => schemaVersion < u32Bound ∧ ∀ s ∈ sessions, s.Proper float
  | .sessionAdded schemaVersion session | .sessionUpdated schemaVersion session =>
    schemaVersion < u32Bound ∧ session.Proper float
  | .sessionRemoved schemaVersion _ | .runRemoved schemaVersion _ _ => schemaVersion < u32Bound
  | .runAdded schemaVersion _ run | .runUpdated schemaVersion _ run =>
    schemaVersion < u32Bound ∧ run.Proper float

section

variable {v : Nat} {s : Session} {id runId : String} {r : AgentRun}

/-- The content of an event with a session is read back. -/
theorem readSessionEvent_fields (event : Nat → Session → Event) (version : v < u32Bound)
    (h : s.Proper float) : readSessionEvent float event
      (present [("schema_version", some (writeNat v)), ("session", some s.serialize)] ++ []) =
      some (event v s) := by
  unfold readSessionEvent
  exact readTwo_eq "schema_version" "session" (by simp) event (readNat_writeNat version)
    (Session.deserialize_serialize h)

/-- And that of an event with a run. -/
theorem readRunEvent_fields (event : Nat → String → AgentRun → Event) (version : v < u32Bound)
    (h : r.Proper float) : readRunEvent float event
      (present [("schema_version", some (writeNat v)), ("session_id", some (.string id)),
        ("run", some r.serialize)] ++ []) = some (event v id r) := by
  have layout : Layout ["schema_version", "session_id", "run"]
    [("schema_version", some (writeNat v)), ("session_id", some (.string id)),
      ("run", some r.serialize)] [] := ⟨rfl, by decide, by simp⟩
  unfold readRunEvent
  refine bind_eq_some layout.unique_eq ?_
  refine bind_eq_some (layout.required_eq "schema_version" rfl (readNat_writeNat version)) ?_
  refine bind_eq_some (layout.required_eq "session_id" rfl (readString_string id)) ?_
  refine bind_eq_some (layout.required_eq "run" rfl (AgentRun.deserialize_serialize h)) ?_
  rfl

/-- What an event writes is exact. -/
theorem Event.exact_fields {e : Event} (h : e.Proper float) : ExactFields float e.fields := by
  cases e with
  | snapshot v sessions =>
    have each : (writeList Session.serialize sessions).Exact float :=
      exact_writeList (fun s mem => (h.2 s mem).exact_serialize)
    simp [Event.fields, exact_version h.1, each]
  | sessionAdded v session | sessionUpdated v session =>
    simp [Event.fields, exact_version h.1, h.2.exact_serialize]
  | sessionRemoved v id | runRemoved v id runId => simp [Event.fields, exact_version h]
  | runAdded v id run | runUpdated v id run =>
    simp [Event.fields, exact_version h.1, h.2.exact_serialize]

/-- An event is read back as it was written. -/
theorem Event.deserialize_serialize {e : Event} (h : e.Proper float) :
    deserialize float e.serialize = some e := by
  unfold Event.deserialize Event.serialize
  refine bind_eq_some (readTagged_writeTagged (by cases e <;> simp [Event.fields])
    (exact_fields h)) ?_
  cases e with
  | snapshot v sessions =>
    have each : readList (Session.deserialize float) (writeList Session.serialize sessions) =
        some sessions := Inverts.list (fun s => Session.deserialize_serialize) h.2
    exact readTwo_eq "schema_version" "sessions" (by simp) Event.snapshot (readNat_writeNat h.1)
      each
  | sessionAdded v session => exact readSessionEvent_fields .sessionAdded h.1 h.2
  | sessionUpdated v session => exact readSessionEvent_fields .sessionUpdated h.1 h.2
  | sessionRemoved v id =>
    exact readTwo_eq "schema_version" "session_id" (by simp) Event.sessionRemoved
      (readNat_writeNat h) (readString_string id)
  | runAdded v id run => exact readRunEvent_fields .runAdded h.1 h.2
  | runUpdated v id run => exact readRunEvent_fields .runUpdated h.1 h.2
  | runRemoved v id runId =>
    have layout : Layout ["schema_version", "session_id", "run_id"]
      (Event.fields (.runRemoved v id runId)) [] := ⟨rfl, by decide, by simp⟩
    refine bind_eq_some layout.unique_eq ?_
    refine bind_eq_some (layout.required_eq "schema_version" rfl (readNat_writeNat h)) ?_
    refine bind_eq_some (layout.required_eq "session_id" rfl (readString_string id)) ?_
    refine bind_eq_some (layout.required_eq "run_id" rfl (readString_string runId)) ?_
    rfl

end

/-! ## Commands -/

/-- A command as its types have it. -/
def Command.Proper : Command → Prop
  | .focus schemaVersion _ | .mute schemaVersion _ | .unmute schemaVersion _
  | .solo schemaVersion _ | .dismiss schemaVersion _ | .setTags schemaVersion _ _ =>
    schemaVersion < u32Bound

theorem Target.exact_serialize (t : Target) : t.serialize.Exact float := by
  cases t <;>
  · refine exact_writeTagged ?_
    change ExactFields float _
    simp

/-- So is a target. -/
theorem Target.deserialize_serialize (t : Target) : deserialize float t.serialize = some t := by
  cases t with
  | session id =>
    unfold Target.deserialize Target.serialize
    refine bind_eq_some (readTagged_writeTagged (by simp) (by simp)) ?_
    exact readOne_eq "session_id" Target.session (readString_string id)
  | run id =>
    unfold Target.deserialize Target.serialize
    refine bind_eq_some (readTagged_writeTagged (by simp) (by simp)) ?_
    exact readOne_eq "run_id" Target.run (readString_string id)

section

variable {v : Nat}

/-- The content of a command with a target is read back. -/
theorem readTargetCommand_fields (command : Nat → Target → Command) (t : Target)
    (version : v < u32Bound) : readTargetCommand float command
      (present [("schema_version", some (writeNat v)), ("target", some t.serialize)] ++ []) =
      some (command v t) := by
  unfold readTargetCommand
  exact readTwo_eq "schema_version" "target" (by simp) command (readNat_writeNat version)
    t.deserialize_serialize

/-- And that of a command that names a session. -/
theorem readSessionCommand_fields (command : Nat → String → Command) (id : String)
    (version : v < u32Bound) : readSessionCommand command
      (present [("schema_version", some (writeNat v)), ("session_id", some (.string id))] ++ []) =
      some (command v id) := by
  unfold readSessionCommand
  exact readTwo_eq "schema_version" "session_id" (by simp) command (readNat_writeNat version)
    (readString_string id)

/-- What a command writes is exact. -/
theorem Command.exact_fields {c : Command} (h : c.Proper) : ExactFields float c.fields := by
  cases c with
  | focus v target | dismiss v target =>
    simp [Command.fields, exact_version h, target.exact_serialize]
  | mute v id | unmute v id | solo v id => simp [Command.fields, exact_version h]
  | setTags v id tags =>
    have each : (writeList .string tags).Exact float := exact_writeList (fun t _ => exact_string t)
    simp [Command.fields, exact_version h, each]

/-- A command is read back as it was written. -/
theorem Command.deserialize_serialize {c : Command} (h : c.Proper) :
    deserialize float c.serialize = some c := by
  unfold Command.deserialize Command.serialize
  refine bind_eq_some (readTagged_writeTagged (by cases c <;> simp [Command.fields])
    (exact_fields h)) ?_
  cases c with
  | focus v target => exact readTargetCommand_fields .focus target h
  | mute v id => exact readSessionCommand_fields .mute id h
  | unmute v id => exact readSessionCommand_fields .unmute id h
  | solo v id => exact readSessionCommand_fields .solo id h
  | dismiss v target => exact readTargetCommand_fields .dismiss target h
  | setTags v id tags =>
    have layout : Layout ["schema_version", "session_id", "tags"]
      (Command.fields (.setTags v id tags)) [] := ⟨rfl, by decide, by simp⟩
    have each : readList readString (writeList .string tags) = some tags :=
      Inverts.list (P := fun _ => True) (fun t _ => readString_string t) (by simp)
    refine bind_eq_some layout.unique_eq ?_
    refine bind_eq_some (layout.required_eq "schema_version" rfl (readNat_writeNat h)) ?_
    refine bind_eq_some (layout.required_eq "session_id" rfl (readString_string id)) ?_
    refine bind_eq_some (layout.required_eq "tags" rfl each) ?_
    rfl

end

end VsFleet
