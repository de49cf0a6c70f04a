import VsFleet.Host.HubClient
import VsFleet.Host.Rail
import VsFleet.Host.Render

/-!
# The Hub link and the window of the host

What the host does around the fold of the Hub's events (`fleet-host/src/hub_client.rs`): it pushes
every rendered inbox to the webview and the native window, marks the inbox disconnected when the
link drops, and sends the commands of the rail on the socket. The window is set by differences: the
title and the badge only where they are not those of the inbox shown before. The lock of the shared
inbox is never poisoned here, and the window is there.
-/

namespace VsFleet

/-- `fleet_window_title` (`hub_client.rs:469-478`). -/
def fleetWindowTitle (rendered : RenderedInbox) : String :=
  match rendered.waitingCount, rendered.connected with
  | 0, true => "Fleet"
  | 0, false => "Fleet (Disconnected)"
  | 1, true => "Fleet (1 waiting)"
  | 1, false => "Fleet (1 waiting, disconnected)"
  | n, true => "Fleet (" ++ toString n ++ " waiting)"
  | n, false => "Fleet (" ++ toString n ++ " waiting, disconnected)"

/-- `waiting_badge_count` (`hub_client.rs:480-486`); the cast to `i64` wraps. -/
def waitingBadgeCount (waitingCount : Nat) : Option Int :=
  if waitingCount = 0 then none else some ((waitingCount : Int).bmod 0x10000000000000000)

/-- `waiting_badge_label` (`hub_client.rs:489-491`), on macOS. -/
def waitingBadgeLabel (waitingCount : Nat) : Option String :=
  if waitingCount > 0 then some (toString waitingCount) else none

/-- `has_notification_fire` (`hub_client.rs:392-396`). -/
def hasNotificationFire (outcomes : List NotificationOutcome) : Bool :=
  outcomes.any (fun outcome => match outcome with
    | .fire _ => true
    | _ => false)

/-- `should_emit_inbox_update` (`hub_client.rs:288-299`), with an inbox before. -/
def shouldEmitInboxUpdate (previous rendered : RenderedInbox)
    (notificationOutcomes : List NotificationOutcome) : Bool :=
  if previous ≠ rendered then true
  else notificationOutcomes.any (fun outcome => outcome ≠ .noop)

/-- `AttentionUpdate` (`hub_client.rs:351-355`). -/
inductive AttentionUpdate where
  | none
  | clear
  | request
  deriving DecidableEq, Repr

/-- `WindowIndicatorUpdate` (`hub_client.rs:342-348`). -/
structure WindowIndicatorUpdate where
  title : Option String
  badgeCount : Option (Option Int)
  badgeLabel : Option (Option String)
  attention : AttentionUpdate
  deriving DecidableEq, Repr

/-- `(previous != Some(value)).then_some(value)` of an inbox before. -/
def ifChanged {α : Type} [DecidableEq α] (previous value : α) : Option α :=
  if previous ≠ value then some value else none

/-- `window_indicator_update` (`hub_client.rs:357-390`). -/
def windowIndicatorUpdate (previous rendered : RenderedInbox)
    (notificationOutcomes : List NotificationOutcome) : WindowIndicatorUpdate :=
  let previousWaiting := previous.waitingCount
  let shouldAlert := hasNotificationFire notificationOutcomes ||
    rendered.waitingCount > previousWaiting
  { title := ifChanged (fleetWindowTitle previous) (fleetWindowTitle rendered)
    badgeCount := ifChanged (waitingBadgeCount previous.waitingCount)
      (waitingBadgeCount rendered.waitingCount)
    badgeLabel := ifChanged (waitingBadgeLabel previous.waitingCount)
      (waitingBadgeLabel rendered.waitingCount)
    attention :=
      if rendered.waitingCount = 0 ∧ previousWaiting > 0 then .clear
      else if rendered.waitingCount > 0 ∧ shouldAlert then .request
      else .none }

/-- The native window: its title, its badge, whether it asks for the user, and whether the user is
there. -/
structure NativeWindow where
  title : String
  badgeCount : Option Int
  badgeLabel : Option String
  attention : Bool
  focused : Bool
  deriving DecidableEq, Repr

/-- The window as `open_window` builds it (`mux.rs:236-238`). -/
def NativeWindow.opened : NativeWindow := ⟨"Fleet", none, none, false, true⟩

/-- `update_window_indicators` (`hub_client.rs:305-339`). -/
def NativeWindow.updateIndicators (window : NativeWindow) (previous rendered : RenderedInbox)
    (notificationOutcomes : List NotificationOutcome) : NativeWindow :=
  let update := windowIndicatorUpdate previous rendered notificationOutcomes
  { window with
    title := update.title.getD window.title
    badgeCount := update.badgeCount.getD window.badgeCount
    badgeLabel := update.badgeLabel.getD window.badgeLabel
    attention :=
      match update.attention with
      | .none => window.attention
      | .clear => false
      | .request => if window.focused then window.attention else true }

/-- What goes out on the socket: the subscription, and `command_frame_text` of a command. -/
inductive LinkFrame where
  | subscribe
  | command (command : Command)

/-- The link with what `run` (`hub_client.rs:55-80`) keeps, the shared inbox, the window, and what
was emitted to the webview, notified and sent so far. -/
structure FaceLink where
  link : HubLink
  opened : Bool
  shared : RenderedInbox
  window : NativeWindow
  emitted : List RenderedInbox
  delivered : List NotificationIntent
  queue : List Command
  wire : List LinkFrame

namespace FaceLink

/-- `RenderedInbox::default()` in a window just opened, before the link first connects. -/
def start : FaceLink where
  link := ⟨.new, false⟩
  opened := false
  shared := ⟨[], 0, 0, false⟩
  window := .opened
  emitted := []
  delivered := []
  queue := []
  wire := []

/-- The notifications that `deliver_notification_outcomes` sends (`hub_client.rs:423-436`). -/
def fired (outcomes : List NotificationOutcome) : List NotificationIntent :=
  outcomes.filterMap (fun outcome => match outcome with
    | .fire intent => some intent
    | _ => none)

/-- `push` (`hub_client.rs:248-286`). -/
def push (face : FaceLink) (rendered : RenderedInbox)
    (notificationOutcomes : List NotificationOutcome) : FaceLink :=
  if !shouldEmitInboxUpdate face.shared rendered notificationOutcomes then face
  else
    { face with
      delivered := face.delivered ++ fired notificationOutcomes
      window := face.window.updateIndicators face.shared rendered notificationOutcomes
      shared := rendered
      emitted := face.emitted ++ [rendered] }

/-- `mark_disconnected` (`hub_client.rs:497-503`). -/
def markDisconnected (face : FaceLink) : FaceLink :=
  if face.shared.connected then face.push { face.shared with connected := false } [] else face

/-- `ensure_connected` (`hub_client.rs:229-240`). -/
def ensureConnected (face : FaceLink) : Except String Unit :=
  if face.shared.connected then .ok () else .error "hub disconnected"

/-- The event branch of `connect_once` (`hub_client.rs:122-138`). -/
def onEvent (parseEpochSecs : String → Option Int) (face : FaceLink) (ev : Event) (now : String) :
    FaceLink :=
  let (link, outcomes) := face.link.onEvent ev
  { face with link }.push (renderAt parseEpochSecs link.model.view true (some now)) outcomes

/-- The end of `connect_once`, seen from `run`. -/
def drop (face : FaceLink) : FaceLink := { face with opened := false }.markDisconnected

end FaceLink

/-- What happens to the link: a connection that opens and subscribes or fails to, a frame of the
Hub, which may be no event, a turn of the loop that takes a command and sends it or fails to, the
end of the connection, a command of the rail, and the user coming to the window or leaving it. -/
inductive LinkEvent where
  | connect (succeeds : Bool)
  | frame (ev : Option Event) (now : String)
  | forward (succeeds : Bool)
  | dropped
  | act (sessionId : String) (action : RailAction)
  | focus (focused : Bool)

/-- One turn of `run` and `connect_once` (`hub_client.rs:55-143`), or a command of the rail
(`hub_client.rs:184-228`). -/
def FaceLink.step (parseEpochSecs : String → Option Int) (face : FaceLink) : LinkEvent → FaceLink
  | .connect succeeds =>
    if face.opened then face
    else if succeeds then { face with opened := true, wire := face.wire ++ [.subscribe] }
    else face.drop
  | .frame ev now =>
    if face.opened then
      match ev with
      | some ev => face.onEvent parseEpochSecs ev now
      | none => face
    else face
  | .forward succeeds =>
    if face.opened then
      match face.queue with
      | [] => face
      | command :: queue =>
        if succeeds then { face with queue, wire := face.wire ++ [.command command] }
        else { face with queue }.drop
    else face
  | .dropped => if face.opened then face.drop else face
  | .act sessionId action =>
    match face.ensureConnected with
    | .ok _ => { face with queue := face.queue ++ [action.command sessionId] }
    | .error _ => face
  | .focus focused => { face with window := { face.window with focused } }

end VsFleet
