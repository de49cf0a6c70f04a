import VsFleet.HostCore.Notify

/-!
# The Hub client of the host

The event branch of the loop of `connect_once` (`fleet-host/src/hub_client.rs`): each event is
folded into the model, and what to ping for is derived from the view before it and the view after
it. The first snapshot of a host pings for nothing.
-/

namespace VsFleet

/-- `matches!(ev, Event::Snapshot { .. })`. -/
def Event.isSnapshot : Event → Bool
  | .snapshot _ _ => true
  | _ => false

/-- `event_derives_notifications` (`hub_client.rs:145-147`). -/
def eventDerivesNotifications (ev : Event) (seenSnapshot : Bool) : Bool :=
  !ev.isSnapshot || seenSnapshot

/-- What `run` keeps over its connections. -/
structure HubLink where
  model : InboxModel
  seenSnapshot : Bool

namespace HubLink

/-- The body of the event branch (`hub_client.rs:122-138`), with the outcomes it pushes. -/
def onEvent (link : HubLink) (ev : Event) : HubLink × List NotificationOutcome :=
  let previousView := link.model.view
  let derivesNotifications := eventDerivesNotifications ev link.seenSnapshot
  let model := link.model.apply ev
  let seenSnapshot := if ev.isSnapshot then true else link.seenSnapshot
  (⟨model, seenSnapshot⟩,
    if derivesNotifications then viewTransition previousView model.view else [])

/-- Events one by one, with all outcomes in order. -/
def onEvents : List Event → HubLink → HubLink × List NotificationOutcome
  | [], link => (link, [])
  | ev :: evs, link =>
    let (link, outcomes) := link.onEvent ev
    let (link, more) := onEvents evs link
    (link, outcomes ++ more)

end HubLink

end VsFleet
