import VsFleet.Misc.Json

/-!
# The two product objects

`Session` and `AgentRun` with their descriptors (`fleet-protocol/src/objects.rs`), the core
enumerations (`state.rs`) and the rollups the Hub and every face compute with one ordering
(`rollup.rs`). Every field is carried: a face must show the object the Hub holds.
-/

namespace VsFleet

/-- `SCHEMA_VERSION` (`lib.rs:60`). -/
def schemaVersion : Nat := 1

/-- `Extra` (`objects.rs:22`): the unknown keys of an object in key order. -/
abbrev Extra := List (String × Json)

/-- `State` (`state.rs:19-32`). -/
inductive State where
  | working
  | waiting
  | idle
  | done
  | error
  | dead
  deriving DecidableEq, Repr

/-- `Urgency` (`state.rs:61-76`); `none` is the named token for no urgency. -/
inductive Urgency where
  | approval
  | question
  | idleDone
  | none
  deriving DecidableEq, Repr

/-- `Confidence` (`state.rs:95-101`). -/
inductive Confidence where
  | high
  | inferred
  deriving DecidableEq, Repr

/-- `LocationKind` (`objects.rs:39-43`). -/
inductive LocationKind where
  | «local»
  | docker
  | remote
  deriving DecidableEq, Repr

/-- `LocationGlyph` (`objects.rs:49-53`). -/
inductive LocationGlyph where
  | laptop
  | docker
  | remote
  deriving DecidableEq, Repr

/-- `Location` (`objects.rs:58-67`). -/
structure Location where
  kind : LocationKind
  label : String
  glyph : LocationGlyph
  attachHint : Option String
  extra : Extra

/-- `EditorKind` (`objects.rs:73-77`). -/
inductive EditorKind where
  | vscode
  | cursor
  | windsurf
  deriving DecidableEq, Repr

/-- `Editor` (`objects.rs:83-92`). -/
structure Editor where
  kind : Option EditorKind
  focusHint : Option String
  extra : Extra

/-- `ServerKind` (`objects.rs:98-103`). -/
inductive ServerKind where
  | codeServer
  | openvscodeServer
  | desktopRemote
  | «local»
  deriving DecidableEq, Repr

/-- `Server` (`objects.rs:108-114`). -/
structure Server where
  kind : ServerKind
  version : Option String
  extra : Extra

/-- `AgentKind` (`objects.rs:120-124`). -/
inductive AgentKind where
  | claudeCode
  | codex
  | other
  deriving DecidableEq, Repr

/-- `AgentRun` (`objects.rs:132-160`). -/
structure AgentRun where
  schemaVersion : Nat
  runId : String
  agentKind : AgentKind
  nativeId : String
  cwd : String
  state : State
  urgency : Option Urgency
  lastMessage : Option String
  waitingSince : Option String
  confidence : Confidence
  diffSummary : Option Json
  updatedAt : String
  extra : Extra

/-- `AgentRun::new` (`objects.rs:165-189`). -/
def AgentRun.new (runId : String) (agentKind : AgentKind) (nativeId cwd : String) (state : State)
    (confidence : Confidence) (updatedAt : String) : AgentRun where
  schemaVersion := VsFleet.schemaVersion
  runId := runId
  agentKind := agentKind
  nativeId := nativeId
  cwd := cwd
  state := state
  urgency := none
  lastMessage := none
  waitingSince := none
  confidence := confidence
  diffSummary := none
  updatedAt := updatedAt
  extra := []

/-- `Session` (`objects.rs:198-230`). -/
structure Session where
  schemaVersion : Nat
  sessionId : String
  title : String
  location : Location
  editor : Option Editor
  server : Server
  runs : List AgentRun
  rollupState : State
  rollupUrgency : Option Urgency
  muted : Bool
  soloed : Bool
  unread : Bool
  tags : List String
  policy : Option Json
  updatedAt : String
  extra : Extra

/-- `Session::new` (`objects.rs:235-261`). -/
def Session.new (sessionId title : String) (location : Location) (server : Server)
    (rollupState : State) (updatedAt : String) : Session where
  schemaVersion := VsFleet.schemaVersion
  sessionId := sessionId
  title := title
  location := location
  editor := none
  server := server
  runs := []
  rollupState := rollupState
  rollupUrgency := none
  muted := false
  soloed := false
  unread := false
  tags := []
  policy := none
  updatedAt := updatedAt
  extra := []

/-- A local session and a run with nothing but the given fields, for worked cases. -/
def Session.plain (sessionId : String) (runs : List AgentRun) : Session :=
  { Session.new sessionId sessionId ⟨.local, "laptop", .laptop, none, []⟩ ⟨.local, none, []⟩ .idle
      "2026-06-08T00:00:00Z" with runs := runs }

/-- A run with what `new` does not ask for left at its defaults. -/
def AgentRun.plain (runId nativeId : String) (state : State) : AgentRun :=
  .new runId .claudeCode nativeId "/" state .high "2026-06-08T00:00:00Z"

/-! ## Rollups -/

/-- `state_rank` (`rollup.rs:13-22`). -/
def stateRank : State → Nat
  | .waiting => 5
  | .error => 4
  | .working => 3
  | .done => 2
  | .idle => 1
  | .dead => 0

/-- `urgency_rank` (`rollup.rs:25-32`). -/
def urgencyRank : Urgency → Nat
  | .approval => 3
  | .question => 2
  | .idleDone => 1
  | .none => 0

/-- `Iterator::max_by_key`: the last element of the greatest rank. -/
def maxByKey {α : Type} (rank : α → Nat) : List α → Option α
  | [] => none
  | a :: rest => some (rest.foldl (fun best b => if rank best ≤ rank b then b else best) a)

/-- `rollup_state` (`rollup.rs:37-39`). -/
def rollupState (runs : List AgentRun) : Option State :=
  maxByKey stateRank (runs.map (fun r => r.state))

/-- `rollup_urgency` (`rollup.rs:43-47`). -/
def rollupUrgency (runs : List AgentRun) : Option Urgency :=
  maxByKey urgencyRank (runs.map (fun r => r.urgency.getD .none))

@[simp] theorem maxByKey_eq_none_iff {α : Type} (rank : α → Nat) (l : List α) :
    maxByKey rank l = none ↔ l = [] := by
  cases l <;> simp [maxByKey]

@[simp] theorem rollupState_eq_none_iff (runs : List AgentRun) :
    rollupState runs = none ↔ runs = [] := by simp [rollupState]

/-- `normalize_rollup_urgency` (`merge.rs:103-108`): no run and the named token are both
absence. The reducer of a face has the same match inline (`view.rs:322-325`). -/
def normalizeRollupUrgency (runs : List AgentRun) : Option Urgency :=
  match rollupUrgency runs with
  | some .none => none
  | none => none
  | some u => some u

end VsFleet
