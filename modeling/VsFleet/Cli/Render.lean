import VsFleet.Misc.OrderedMap
import VsFleet.Protocol.Wire

/-!
# The list of the command line

The reducer and the rows of `fleet ls` (`fleet-cli/src/render.rs`), the third reader of the event
stream of the Hub: a hash map of sessions with no order of its own, with its own upsert of a run
and its own rollups, and a list of rows sorted anew at every print.
-/

namespace VsFleet

/-- `RunRow` (`render.rs:70-79`). -/
structure RunRow where
  runId : String
  agentKind : AgentKind
  state : State
  confidence : Confidence
  cwd : String
  lastMessage : Option String
  urgency : Option Urgency
  waitingSince : Option String
  deriving DecidableEq, Repr

/-- `RunRow::from_run` (`render.rs:82-93`). -/
def RunRow.fromRun (r : AgentRun) : RunRow where
  runId := r.runId
  agentKind := r.agentKind
  state := r.state
  confidence := r.confidence
  cwd := r.cwd
  lastMessage := r.lastMessage
  urgency := r.urgency
  waitingSince := r.waitingSince

/-- `Row` (`render.rs:44-59`). -/
structure Row where
  sessionId : String
  title : String
  rollupState : State
  rollupUrgency : Option Urgency
  muted : Bool
  unread : Bool
  runs : List RunRow
  deriving DecidableEq, Repr

/-- `session_to_row` (`render.rs:274-284`). -/
def sessionToRow (s : Session) : Row where
  sessionId := s.sessionId
  title := s.title
  rollupState := s.rollupState
  rollupUrgency := s.rollupUrgency
  muted := s.muted
  unread := s.unread
  runs := s.runs.map RunRow.fromRun

/-- `sort_key` (`render.rs:144-163`): lower is displayed higher. -/
def sortKey (row : Row) : Nat × Nat × Nat :=
  let mutedK := if row.muted then 1 else 0
  let urgencyK := 255 - match row.rollupUrgency with
    | some .approval => 3
    | some .question => 2
    | some .idleDone => 1
    | some .none | none => 0
  let stateK := 255 - match row.rollupState with
    | .waiting => 5
    | .error => 4
    | .working => 3
    | .done => 2
    | .idle => 1
    | .dead => 0
  (mutedK, urgencyK, stateK)

/-- The comparison inside `rows` (`render.rs:251-255`): the keys as tuples, then the ids.
Strings compare by code points here and by bytes there, which is one order on UTF-8. -/
def Row.cmp (a b : Row) : Ordering :=
  let ka := sortKey a
  let kb := sortKey b
  ((compare ka.1 kb.1).then ((compare ka.2.1 kb.2.1).then (compare ka.2.2 kb.2.2))).then
    (compare a.sessionId b.sessionId)

/-- `recompute_rollups` (`render.rs:63-66`): no run resets to idle, and the named token is
absence. -/
def recomputeRollupsLocally (sess : Session) : Session :=
  { sess with
    rollupState := (rollupState sess.runs).getD .idle
    rollupUrgency := (rollupUrgency sess.runs).filter (fun u => u ≠ .none) }

/-- `CliState` (`render.rs:170-173`). -/
structure CliState where
  sessions : HashMap String Session

namespace CliState

/-- `new` (`render.rs:176-178`). -/
def new : CliState := ⟨∅⟩

/-- An insert under the session's own id. -/
def insert (c : CliState) (session : Session) : CliState :=
  ⟨c.sessions.insert session.sessionId session⟩

/-- The upsert of a run in two arms of `apply`: the first run of the id is replaced. -/
def upsertRun (sess : Session) (run : AgentRun) : Session :=
  match sess.runs.findIdx? (fun r => r.runId = run.runId) with
  | some pos => { sess with runs := sess.runs.set pos run }
  | none => { sess with runs := sess.runs ++ [run] }

/-- `apply` (`render.rs:187-234`). -/
def apply (c : CliState) (event : Event) : CliState :=
  match event with
  | .snapshot _ sessions => sessions.foldl insert new
  | .sessionAdded _ session | .sessionUpdated _ session => c.insert session
  | .sessionRemoved _ sessionId => ⟨c.sessions.erase sessionId⟩
  | .runAdded _ sessionId run | .runUpdated _ sessionId run =>
    ⟨HashMap.modify c.sessions sessionId (fun sess =>
      recomputeRollupsLocally (upsertRun sess run))⟩
  | .runRemoved _ sessionId runId =>
    ⟨HashMap.modify c.sessions sessionId (fun sess =>
      recomputeRollupsLocally { sess with runs := sess.runs.filter (fun r => r.runId ≠ runId) })⟩

/-- `apply_all` (`render.rs:239-244`). -/
def applyAll (c : CliState) (events : List Event) : CliState := events.foldl apply c

/-- `rows` (`render.rs:247-257`), for an iteration order of the map. -/
def rows (iter : IterOrder Session) (c : CliState) : List Row :=
  ((iter.perm (OrderedMap.unordered c.sessions)).map sessionToRow).mergeSort
    (fun a b => (a.cmp b).isLE)

end CliState

end VsFleet
