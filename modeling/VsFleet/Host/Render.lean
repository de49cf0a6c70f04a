import VsFleet.HostCore.Notify
import VsFleet.HostCore.Sort

/-!
# The inbox as the rail gets it

What the host sends to its webview (`fleet-host/src/render.rs`): the tabs of the view in their
order, each with whether it pings, and how many wait.
-/

namespace VsFleet

/-- `TabState::glyph` (`view.rs:62-71`). -/
def TabState.glyph : TabState → String
  | .working => "▶"
  | .waiting => "⏸"
  | .idle => "·"
  | .done => "✓"
  | .error => "✕"
  | .dead => "☠"

/-- `AgentIcon::label` (`view.rs:105-112`). -/
def AgentIcon.label : AgentIcon → String
  | .claude => "claude"
  | .codex => "codex"
  | .other => "agent"
  | .none => ""

/-- `RenderedTab` (`render.rs:28-56`). -/
structure RenderedTab where
  sessionId : String
  location : LocationGlyph
  agent : String
  title : String
  state : String
  stateGlyph : String
  attention : Bool
  pinging : Bool
  pingSuppressed : Bool
  urgency : Option Urgency
  confidence : Option Confidence
  waitingSince : Option String
  muted : Bool
  soloed : Bool
  unread : Bool
  runCount : Nat
  lastMessage : Option String
  deriving DecidableEq, Repr

/-- `RenderedInbox` (`render.rs:16-24`). -/
structure RenderedInbox where
  tabs : List RenderedTab
  waitingCount : Nat
  waitingTotal : Nat
  connected : Bool
  deriving DecidableEq, Repr

/-- `state_label` (`render.rs:58-67`). -/
def stateLabel : TabState → String
  | .working => "working"
  | .waiting => "waiting"
  | .idle => "idle"
  | .done => "done"
  | .error => "error"
  | .dead => "dead"

/-- `render_tab` (`render.rs:69-92`). -/
def renderTab (t : SessionTab) (tabs : List SessionTab) : RenderedTab :=
  let attention := t.state.isAttention
  { sessionId := t.sessionId
    location := t.glyph
    agent := t.agentIcon.label
    title := t.title
    state := stateLabel t.state
    stateGlyph := t.state.glyph
    attention
    pinging := shouldNotify t tabs
    pingSuppressed := attention && pingSuppressed t tabs
    urgency := t.urgency
    confidence := t.confidence
    waitingSince := t.waitingSince
    muted := t.muted
    soloed := t.soloed
    unread := t.unread
    runCount := t.runCount
    lastMessage := t.lastMessage }

/-- `render_at` (`render.rs:101-113`). -/
def renderAt (parseEpochSecs : String → Option Int) (view : InboxView) (connected : Bool)
    (now : Option String) : RenderedInbox :=
  let tabs := sortTabs parseEpochSecs view.tabs now
  { tabs := tabs.map (fun tab => renderTab tab tabs)
    waitingCount := (tabs.filter (fun t => shouldNotify t tabs)).length
    waitingTotal := (tabs.filter (fun t => t.state.isAttention)).length
    connected }

end VsFleet
