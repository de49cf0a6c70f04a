import VsFleet.Misc.OrderedMap
import VsFleet.Protocol.Wire

/-!
# The inbox model of a face

The copy of Hub state a host face keeps, the reducer that folds the events of the Hub into it and
the projection to the tabs the window draws (`fleet-host-core/src/view.rs`). The face has its own
run upsert and its own rollups: with no run left it keeps the old `rollup_state`, where the Hub
resets to idle.
-/

namespace VsFleet

/-- `TabState` (`view.rs:27-34`). -/
inductive TabState where
  | working
  | waiting
  | idle
  | done
  | error
  | dead
  deriving DecidableEq, Repr

/-- `TabState::from_state` (`view.rs:48-57`). -/
def TabState.fromState : State → TabState
  | .working => .working
  | .waiting => .waiting
  | .idle => .idle
  | .done => .done
  | .error => .error
  | .dead => .dead

/-- `TabState::is_attention` (`view.rs:76-78`). -/
def TabState.isAttention (state : TabState) : Bool := state = .waiting

/-- `AgentIcon` (`view.rs:87-93`). -/
inductive AgentIcon where
  | claude
  | codex
  | other
  | none
  deriving DecidableEq, Repr

/-- `AgentIcon::from_kind` (`view.rs:96-102`). -/
def AgentIcon.fromKind : AgentKind → AgentIcon
  | .claudeCode => .claude
  | .codex => .codex
  | .other => .other

/-- `SessionTab` (`view.rs:123-158`). -/
structure SessionTab where
  sessionId : String
  glyph : LocationGlyph
  agentIcon : AgentIcon
  title : String
  state : TabState
  urgency : Option Urgency
  confidence : Option Confidence
  waitingSince : Option String
  muted : Bool
  soloed : Bool
  unread : Bool
  runCount : Nat
  lastMessage : Option String
  deriving DecidableEq, Repr

/-- `InboxView` (`view.rs:167-170`). -/
structure InboxView where
  tabs : List SessionTab
  deriving DecidableEq, Repr

/-- `InboxModel` (`view.rs:196-200`). -/
structure InboxModel where
  sessions : HashMap String Session
  order : List String

/-- `upsert_run` (`view.rs:306-312`). -/
def upsertRunOf (sess : Session) (run : AgentRun) : Session :=
  match sess.runs.findIdx? (fun r => r.runId = run.runId) with
  | some pos => { sess with runs := sess.runs.set pos run }
  | none => { sess with runs := sess.runs ++ [run] }

/-- `recompute_rollups` (`view.rs:318-326`): with no run the old state stays. -/
def recomputeRollupsOf (sess : Session) : Session :=
  { sess with
    rollupState := (rollupState sess.runs).getD sess.rollupState
    rollupUrgency := normalizeRollupUrgency sess.runs }

namespace InboxModel

/-- `new` (`view.rs:204-206`). -/
def new : InboxModel := ⟨∅, []⟩

/-- The upsert of a session under its id, the body of two arms of `apply`. -/
def putSession (m : InboxModel) (session : Session) : InboxModel where
  sessions := m.sessions.insert session.sessionId session
  order := if session.sessionId ∈ m.sessions then m.order else m.order ++ [session.sessionId]

/-- `apply` (`view.rs:229-278`). -/
def apply (m : InboxModel) (event : Event) : InboxModel :=
  match event with
  | .snapshot _ sessions => sessions.foldl putSession new
  | .sessionAdded _ session | .sessionUpdated _ session => m.putSession session
  | .sessionRemoved _ sessionId =>
    if sessionId ∈ m.sessions then
      { sessions := m.sessions.erase sessionId
        order := m.order.filter (fun id => id ≠ sessionId) }
    else m
  | .runAdded _ sessionId run | .runUpdated _ sessionId run =>
    { m with sessions := HashMap.modify m.sessions sessionId (fun sess =>
      recomputeRollupsOf (upsertRunOf sess run)) }
  | .runRemoved _ sessionId runId =>
    { m with sessions := HashMap.modify m.sessions sessionId (fun sess =>
      recomputeRollupsOf { sess with runs := sess.runs.filter (fun r => r.runId ≠ runId) }) }

/-- `apply_all` (`view.rs:281-286`). -/
def applyAll (m : InboxModel) (events : List Event) : InboxModel := events.foldl apply m

end InboxModel

/-- `rolled_up_run` (`view.rs:330-335`). -/
def rolledUpRun (sess : Session) : Option AgentRun :=
  (sess.runs.find? (fun r => r.state = sess.rollupState)).or sess.runs.head?

/-- `rolled_up_agent_icon` (`view.rs:339-343`). -/
def rolledUpAgentIcon (sess : Session) : AgentIcon :=
  ((rolledUpRun sess).map (fun r => AgentIcon.fromKind r.agentKind)).getD .none

/-- `rolled_up_last_message` (`view.rs:346-348`). -/
def rolledUpLastMessage (sess : Session) : Option String :=
  (rolledUpRun sess).bind (fun r => r.lastMessage)

/-- One round of the loop of `waiting_confidence_and_since`. -/
def worstConfidence (conf : Option Confidence) (confidence : Confidence) : Confidence :=
  match conf, confidence with
  | some .inferred, _ => .inferred
  | _, .inferred => .inferred
  | _, _ => .high

/-- The earlier of two wait stamps as texts, of which either may be missing. -/
def earliestSince (since : Option String) (waitingSince : Option String) : Option String :=
  match waitingSince with
  | none => since
  | some w =>
    match since with
    | some prev => if prev ≤ w then some prev else some w
    | none => some w

/-- `waiting_confidence_and_since` (`view.rs:356-373`). -/
def waitingConfidenceAndSince (sess : Session) : Option Confidence × Option String :=
  (sess.runs.filter (fun r => r.state = .waiting)).foldl
    (fun (conf, since) r =>
      (some (worstConfidence conf r.confidence), earliestSince since r.waitingSince))
    (none, none)

/-- `session_to_tab` (`view.rs:376-393`). -/
def sessionToTab (sess : Session) : SessionTab where
  sessionId := sess.sessionId
  glyph := sess.location.glyph
  agentIcon := rolledUpAgentIcon sess
  title := sess.title
  state := TabState.fromState sess.rollupState
  urgency := sess.rollupUrgency
  confidence := (waitingConfidenceAndSince sess).1
  waitingSince := (waitingConfidenceAndSince sess).2
  muted := sess.muted
  soloed := sess.soloed
  unread := sess.unread
  runCount := sess.runs.length
  lastMessage := rolledUpLastMessage sess

/-- `InboxModel::view` (`view.rs:293-301`). -/
def InboxModel.view (m : InboxModel) : InboxView where
  tabs := (OrderedMap.values m.sessions m.order).map sessionToTab

end VsFleet
