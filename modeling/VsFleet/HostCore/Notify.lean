import VsFleet.HostCore.View

/-!
# What a face pings for

Whether a tab pings (`fleet-host-core/src/mute.rs`) and what the change from one view to the next
asks of the notification plugin (`fleet-host-core/src/notify.rs`). The mute rule of a face is its
own: a soloed session pings even when it is muted.
-/

namespace VsFleet

/-- `InboxView::tab` (`view.rs:184-186`). -/
def InboxView.tab (view : InboxView) (sessionId : String) : Option SessionTab :=
  view.tabs.find? (fun t => t.sessionId = sessionId)

/-- `ping_suppressed` (`mute.rs:72-89`). -/
def pingSuppressed (tab : SessionTab) (tabs : List SessionTab) : Bool :=
  if !tab.state.isAttention then true
  else
    let anySoloed := tabs.any (fun t => t.soloed)
    if anySoloed then !tab.soloed else tab.muted

/-- `should_notify` (`mute.rs:96-98`). -/
def shouldNotify (tab : SessionTab) (tabs : List SessionTab) : Bool :=
  tab.state.isAttention && !pingSuppressed tab tabs

/-- `NotificationSound` (`notify.rs:65-72`). -/
inductive NotificationSound where
  | approval
  | question
  deriving DecidableEq, Repr

/-- `NotificationIntent` (`notify.rs:99-110`). -/
structure NotificationIntent where
  sessionId : String
  title : String
  body : String
  sound : Option NotificationSound
  deriving DecidableEq, Repr

/-- `NotificationOutcome` (`notify.rs:121-133`). -/
inductive NotificationOutcome where
  | fire (intent : NotificationIntent)
  | autoResolve (sessionId : String)
  | noop
  deriving DecidableEq, Repr

/-- `urgency_to_sound` (`notify.rs:147-156`). -/
def urgencyToSound : Urgency → Option NotificationSound
  | .approval => some .approval
  | .question => some .question
  | .idleDone => none
  | .none => none

/-- `tab_urgency_to_sound` (`notify.rs:160-162`). -/
def tabUrgencyToSound (urgency : Option Urgency) : Option NotificationSound :=
  urgency.bind urgencyToSound

/-- `notification_text` (`notify.rs:169-179`). -/
def notificationText (tab : SessionTab) : String × String :=
  let urgencyLabel := match tab.urgency with
    | some .approval => "Approval needed"
    | some .question => "Question asked"
    | some .idleDone => "Task complete"
    | some .none | none => "Waiting"
  (urgencyLabel ++ " — " ++ tab.title, "Agent is waiting for your response.")

/-- `fire_for` (`notify.rs:333-341`). -/
def fireFor (tab : SessionTab) : NotificationOutcome :=
  let (title, body) := notificationText tab
  .fire ⟨tab.sessionId, title, body, tabUrgencyToSound tab.urgency⟩

/-- `session_transition` (`notify.rs:245-283`). -/
def sessionTransition (old new : Option SessionTab)
    (oldPending newPending newSuppressed : Bool) : NotificationOutcome :=
  let fireOrSuppress := fun tab => if newSuppressed then .noop else fireFor tab
  match new with
  | some newTab =>
    match old, oldPending, newPending with
    | _, false, true => fireOrSuppress newTab
    | some _, true, false => .autoResolve newTab.sessionId
    | some oldTab, true, true =>
      if oldTab.urgency ≠ newTab.urgency then fireOrSuppress newTab else .noop
    | _, _, _ => .noop
  | none =>
    match old with
    | some oldTab => if oldPending then .autoResolve oldTab.sessionId else .noop
    | none => .noop

/-- `view_transition` (`notify.rs:296-331`). -/
def viewTransition (old new : InboxView) : List NotificationOutcome :=
  let kept := new.tabs.map (fun newTab =>
    let oldTab := old.tabs.find? (fun tab => tab.sessionId = newTab.sessionId)
    let oldPending := (oldTab.map (fun tab => shouldNotify tab old.tabs)).getD false
    let newPending := shouldNotify newTab new.tabs
    sessionTransition oldTab (some newTab) oldPending newPending false)
  let gone := (old.tabs.filter (fun oldTab =>
    !new.tabs.any (fun tab => tab.sessionId = oldTab.sessionId))).map (fun oldTab =>
      sessionTransition (some oldTab) none (shouldNotify oldTab old.tabs) false false)
  (kept ++ gone).filter (fun outcome => outcome ≠ .noop)

end VsFleet
