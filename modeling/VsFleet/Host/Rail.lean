import VsFleet.Host.Render

/-!
# The rail

The inbox the webview shows (`fleet-host/ui/main.js`). What the user does to a session is shown at
once, before the Hub is heard from, by rules of its own on the rendered tabs.
-/

namespace VsFleet

/-- `shouldNotifyTab` (`main.js:195-197`). -/
def shouldNotifyTab (tab : RenderedTab) (anySoloed : Bool) : Bool :=
  tab.attention && !tab.muted && (!anySoloed || tab.soloed)

/-- `notifyMapForTabs` (`main.js:199-202`), read by key: the last entry of a key is its value. -/
def notifyMapForTabs (tabs : List RenderedTab) : String → Option Bool :=
  let anySoloed := tabs.any (fun tab => tab.soloed)
  fun id => (tabs.reverse.find? (fun tab => tab.sessionId = id)).map
    (fun tab => shouldNotifyTab tab anySoloed)

/-- `reconcileUnread` (`main.js:204-208`). -/
def reconcileUnread (tab : RenderedTab) (oldNotify newNotify : Bool) : Bool :=
  if !oldNotify && newNotify && !tab.unread then true
  else if oldNotify && !newNotify && tab.unread then false
  else tab.unread

/-- One tab of `deriveInboxTabs`. -/
def deriveTab (anySoloed : Bool) (oldNotify : Option (String → Option Bool)) (tab : RenderedTab) :
    RenderedTab :=
  let nextNotify := shouldNotifyTab tab anySoloed
  let previousNotify := match oldNotify with
    | some old => (old tab.sessionId).getD false
    | none => nextNotify
  { tab with
    unread := reconcileUnread tab previousNotify nextNotify
    pingSuppressed := tab.attention && !nextNotify
    pinging := nextNotify }

/-- `deriveInboxTabs` (`main.js:210-227`), over the rest of an inbox. -/
def deriveInboxTabs (inbox : RenderedInbox) (tabs : List RenderedTab)
    (oldNotify : Option (String → Option Bool)) : RenderedInbox :=
  let anySoloed := tabs.any (fun tab => tab.soloed)
  let nextTabs := tabs.map (deriveTab anySoloed oldNotify)
  { inbox with
    tabs := nextTabs
    waitingCount := (nextTabs.filter (fun tab => tab.pinging)).length
    waitingTotal := (nextTabs.filter (fun tab => tab.attention)).length }

/-- The inbox that is shown, with the number of inboxes there have been. -/
structure Rail where
  inbox : RenderedInbox
  inboxRevision : Nat
  deriving DecidableEq, Repr

namespace Rail

/-- `setInbox` (`main.js:190-193`). -/
def setInbox (rail : Rail) (next : RenderedInbox) : Rail := ⟨next, rail.inboxRevision + 1⟩

/-- `replaceInboxTabs` (`main.js:229-231`). -/
def replaceInboxTabs (rail : Rail) (tabs : List RenderedTab)
    (oldNotify : Option (String → Option Bool)) : Rail :=
  rail.setInbox (deriveInboxTabs rail.inbox tabs oldNotify)

/-- `removeInboxSession` (`main.js:184-188`). -/
def removeInboxSession (rail : Rail) (id : String) : Rail :=
  let oldNotify := notifyMapForTabs rail.inbox.tabs
  let tabs := rail.inbox.tabs.filter (fun tab => tab.sessionId ≠ id)
  rail.replaceInboxTabs tabs (some oldNotify)

/-- `updateInboxTabs` (`main.js:233-236`). -/
def updateInboxTabs (rail : Rail) (mapper : RenderedTab → RenderedTab) : Rail :=
  rail.replaceInboxTabs (rail.inbox.tabs.map mapper) (some (notifyMapForTabs rail.inbox.tabs))

/-- `applyLocalMute` (`main.js:238-242`). -/
def applyLocalMute (rail : Rail) (id : String) (muted : Bool) : Rail :=
  rail.updateInboxTabs (fun tab =>
    if tab.sessionId = id then { tab with muted, soloed := false } else tab)

/-- `applyLocalSolo` (`main.js:244-255`). -/
def applyLocalSolo (rail : Rail) (id : String) (soloed : Bool) : Rail :=
  rail.updateInboxTabs (fun tab =>
    if soloed then
      if tab.sessionId = id then { tab with soloed := true, muted := false }
      else { tab with soloed := false }
    else if tab.sessionId = id then { tab with soloed := false, muted := false }
    else tab)

/-- `applyLocalFocus` (`main.js:257-261`). -/
def applyLocalFocus (rail : Rail) (id : String) : Rail :=
  rail.updateInboxTabs (fun tab => if tab.sessionId = id then { tab with unread := false } else tab)

end Rail

/-! ## The commands of the host -/

/-- `mute_toggle_command` (`hub_client.rs:154-160`). -/
def muteToggleCommand (sessionId : String) (muted : Bool) : Command :=
  if muted then .mute schemaVersion sessionId else .unmute schemaVersion sessionId

/-- `solo_toggle_command` (`hub_client.rs:165-171`). -/
def soloToggleCommand (sessionId : String) (soloed : Bool) : Command :=
  if soloed then .solo schemaVersion sessionId else .unmute schemaVersion sessionId

/-- `dismiss_session_command` (`hub_client.rs:176-178`). -/
def dismissSessionCommand (sessionId : String) : Command :=
  .dismiss schemaVersion (.session sessionId)

/-- What the user can do to a session of the rail. -/
inductive RailAction where
  | setMuted (muted : Bool)
  | setSoloed (soloed : Bool)
  | focus
  | dismiss
  deriving DecidableEq, Repr

namespace RailAction

/-- The command the host sends for it (`hub_client.rs:184-228`). -/
def command (sessionId : String) : RailAction → Command
  | setMuted muted => muteToggleCommand sessionId muted
  | setSoloed soloed => soloToggleCommand sessionId soloed
  | focus => .focus schemaVersion (.session sessionId)
  | dismiss => dismissSessionCommand sessionId

/-- What the rail shows for it (`main.js:1296-1357`). -/
def localMutate (rail : Rail) (id : String) : RailAction → Rail
  | setMuted muted => rail.applyLocalMute id muted
  | setSoloed soloed => rail.applyLocalSolo id soloed
  | focus => rail.applyLocalFocus id
  | dismiss => rail.removeInboxSession id

end RailAction

end VsFleet
