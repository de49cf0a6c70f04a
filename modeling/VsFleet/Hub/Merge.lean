import VsFleet.Misc.OrderedMap
import VsFleet.Protocol.Wire

/-!
# The canonical merge engine

The Hub's authoritative state and the operations that mutate it (`fleet-hub/src/merge.rs`). The
session map is a hash map beside the vector of ids in insertion order, as in the source; each
operation returns the new engine with the events that describe what it changed. A write through
`get_mut` is `HashMap.modify`; the set of changed ids is a list read only through membership.
-/

namespace VsFleet

/-- `MergeEngine` (`merge.rs:37-41`). -/
structure MergeEngine where
  sessions : HashMap String Session
  order : List String

/-- `recompute_rollups` (`merge.rs:92-96`): no run resets to the idle sentinel. -/
def Session.recomputeRollups (session : Session) : Session :=
  { session with
    rollupState := (VsFleet.rollupState session.runs).getD .idle
    rollupUrgency := normalizeRollupUrgency session.runs }

/-- `should_notify_session` (`merge.rs:114-116`). -/
def Session.shouldNotifySession (session : Session) (anySoloed : Bool) : Bool :=
  session.rollupState = .waiting && !session.muted && (!anySoloed || session.soloed)

/-- `update_unread_for_notify_transition` (`merge.rs:118-132`): the session with its flag moved,
and whether it moved. -/
def Session.updateUnreadForNotifyTransition (session : Session) (oldNotify newNotify : Bool) :
    Session × Bool :=
  if !oldNotify && newNotify && !session.unread then ({ session with unread := true }, true)
  else if oldNotify && !newNotify && session.unread then ({ session with unread := false }, true)
  else (session, false)

namespace MergeEngine

/-- `new` (`merge.rs:45-47`). -/
def new : MergeEngine := ⟨∅, []⟩

/-- `session` (`merge.rs:60-62`). -/
def session (e : MergeEngine) (sessionId : String) : Option Session := e.sessions.lookup sessionId

/-- `session_id_of_run` (`merge.rs:67-72`): the first owner in the iteration order of the map,
which the standard library leaves open. -/
def sessionIdOfRun (iter : IterOrder Session) (e : MergeEngine) (runId : String) :
    Option String :=
  ((iter.perm (OrderedMap.unordered e.sessions)).find?
    (fun session => session.runs.any (fun run => run.runId = runId))).map (fun s => s.sessionId)

/-- `snapshot` (`merge.rs:76-81`). -/
def snapshot (e : MergeEngine) : List Session := OrderedMap.values e.sessions e.order

/-- `any_soloed` (`merge.rs:110-112`). -/
def anySoloed (e : MergeEngine) : Bool :=
  (OrderedMap.unordered e.sessions).any (fun session => session.soloed)

/-- `notify_map` (`merge.rs:134-140`), read only by key. -/
def notifyMap (e : MergeEngine) : String → Option Bool := fun id =>
  (e.sessions.lookup id).map (fun session => session.shouldNotifySession e.anySoloed)

/-- `reconcile_one_unread` (`merge.rs:161-167`). -/
def reconcileOneUnread (e : MergeEngine) (id : String) (old anySoloed : Bool) :
    MergeEngine × Bool :=
  match e.sessions.lookup id with
  | none => (e, false)
  | some session =>
    ({ e with sessions := HashMap.modify e.sessions id (fun s =>
        (s.updateUnreadForNotifyTransition old (s.shouldNotifySession anySoloed)).1) },
      (session.updateUnreadForNotifyTransition old (session.shouldNotifySession anySoloed)).2)

/-- The loop of `reconcile_unread_from` over the ids, collecting the changed ones. -/
def reconcileUnreadLoop (oldNotify : String → Option Bool) (anySoloed : Bool) :
    List String → MergeEngine → MergeEngine × List String
  | [], e => (e, [])
  | id :: ids, e =>
    let (e, moved) := e.reconcileOneUnread id ((oldNotify id).getD false) anySoloed
    let (e, changed) := reconcileUnreadLoop oldNotify anySoloed ids e
    (e, if moved then id :: changed else changed)

/-- `reconcile_unread_from` (`merge.rs:142-152`). -/
def reconcileUnreadFrom (e : MergeEngine) (oldNotify : String → Option Bool) :
    MergeEngine × List String :=
  reconcileUnreadLoop oldNotify e.anySoloed e.order e

/-- `updated_events_for` (`merge.rs:169-176`). -/
def updatedEventsFor (e : MergeEngine) (changedIds : List String) : List Event :=
  ((e.order.filter (fun id => id ∈ changedIds)).filterMap (fun id => e.sessions.lookup id)).map
    Event.ofSessionUpdated

/-- `upsert_session` (`merge.rs:183-202`). -/
def upsertSession (e : MergeEngine) (session : Session) : MergeEngine × Event :=
  let anySoloedBefore := e.anySoloed
  let oldNotify := ((e.sessions.lookup session.sessionId).map
    (fun existing => existing.shouldNotifySession anySoloedBefore)).getD false
  let session := session.recomputeRollups
  let newNotify := session.shouldNotifySession anySoloedBefore
  let session := (session.updateUnreadForNotifyTransition oldNotify newNotify).1
  let id := session.sessionId
  if id ∈ e.sessions then
    ({ e with sessions := e.sessions.insert id session }, .ofSessionUpdated session)
  else
    ({ sessions := e.sessions.insert id session, order := e.order ++ [id] },
      .ofSessionAdded session)

/-- `remove_session_events` (`merge.rs:207-220`). -/
def removeSessionEvents (e : MergeEngine) (sessionId : String) : MergeEngine × List Event :=
  if sessionId ∉ e.sessions then (e, [])
  else
    let oldNotify := e.notifyMap
    let e := { sessions := e.sessions.erase sessionId
               order := e.order.filter (fun id => id ≠ sessionId) : MergeEngine }
    let (e, changedIds) := e.reconcileUnreadFrom oldNotify
    (e, .ofSessionRemoved sessionId :: e.updatedEventsFor changedIds)

/-- `remove_session` (`merge.rs:225-227`): the state of `removeSessionEvents` with its first
event only. -/
def removeSession (e : MergeEngine) (sessionId : String) : MergeEngine × Option Event :=
  let (e, events) := e.removeSessionEvents sessionId
  (e, events.head?)

/-- The run list of `upsert_run`: the first run of the id is replaced in place, a new one is
appended; and whether there was one. -/
def upsertRunIn (runs : List AgentRun) (run : AgentRun) : List AgentRun × Bool :=
  match runs with
  | [] => ([run], false)
  | r :: rest =>
    if r.runId = run.runId then (run :: rest, true)
    else
      let (rest, existed) := upsertRunIn rest run
      (r :: rest, existed)

/-- `upsert_run` (`merge.rs:235-254`). -/
def upsertRun (e : MergeEngine) (sessionId : String) (run : AgentRun) :
    MergeEngine × List Event :=
  let anySoloed := e.anySoloed
  match e.sessions.lookup sessionId with
  | none => (e, [])
  | some session =>
    let oldNotify := session.shouldNotifySession anySoloed
    let (runs, existed) := upsertRunIn session.runs run
    let runEvent := if existed then Event.ofRunUpdated sessionId run
      else Event.ofRunAdded sessionId run
    let session := { session with runs := runs }.recomputeRollups
    let newNotify := session.shouldNotifySession anySoloed
    let session := (session.updateUnreadForNotifyTransition oldNotify newNotify).1
    ({ e with sessions := e.sessions.insert sessionId session },
      [runEvent, .ofSessionUpdated session])

/-- `remove_run` (`merge.rs:260-279`). The early return is after `retain` on a list it left as it
was. -/
def removeRun (e : MergeEngine) (sessionId runId : String) : MergeEngine × List Event :=
  let anySoloed := e.anySoloed
  match e.sessions.lookup sessionId with
  | none => (e, [])
  | some session =>
    let oldNotify := session.shouldNotifySession anySoloed
    let before := session.runs.length
    let runs := session.runs.filter (fun r => r.runId ≠ runId)
    if runs.length = before then (e, [])
    else
      let session := { session with runs := runs }.recomputeRollups
      let newNotify := session.shouldNotifySession anySoloed
      let session := (session.updateUnreadForNotifyTransition oldNotify newNotify).1
      ({ e with sessions := e.sessions.insert sessionId session },
        [.ofRunRemoved sessionId runId, .ofSessionUpdated session])

/-- `apply_mute` (`merge.rs:309-328`). -/
def applyMute (e : MergeEngine) (sessionId : String) : MergeEngine × List Event :=
  let oldNotify := e.notifyMap
  match e.sessions.lookup sessionId with
  | none => (e, [])
  | some sess =>
    if sess.muted && !sess.soloed then (e, [])
    else
      let e := { e with sessions := HashMap.modify e.sessions sessionId (fun s =>
        { s with muted := true, soloed := false }) }
      let (e, changedIds) := e.reconcileUnreadFrom oldNotify
      (e, e.updatedEventsFor (sessionId :: changedIds))

/-- `apply_unmute` (`merge.rs:333-351`). -/
def applyUnmute (e : MergeEngine) (sessionId : String) : MergeEngine × List Event :=
  let oldNotify := e.notifyMap
  match e.sessions.lookup sessionId with
  | none => (e, [])
  | some sess =>
    if !sess.muted && !sess.soloed then (e, [])
    else
      let e := { e with sessions := HashMap.modify e.sessions sessionId (fun s =>
        { s with muted := false, soloed := false }) }
      let (e, changedIds) := e.reconcileUnreadFrom oldNotify
      (e, e.updatedEventsFor (sessionId :: changedIds))

/-- `clear_solo_flag` (`merge.rs:394-402`). -/
def clearSoloFlag (e : MergeEngine) (id : String) : MergeEngine × Bool :=
  match e.sessions.lookup id with
  | some s =>
    if s.soloed then
      ({ e with sessions := HashMap.modify e.sessions id (fun s => { s with soloed := false }) },
        true)
    else (e, false)
  | none => (e, false)

/-- `set_solo_flag` (`merge.rs:411-420`). -/
def setSoloFlag (e : MergeEngine) (sessionId : String) : MergeEngine × Bool :=
  match e.sessions.lookup sessionId with
  | some s =>
    if !s.soloed || s.muted then
      ({ e with sessions := HashMap.modify e.sessions sessionId (fun s =>
        { s with soloed := true, muted := false }) }, true)
    else (e, false)
  | none => (e, false)

/-- The first pass of `apply_solo`: clear the flag of every other session. -/
def clearOtherSolos (sessionId : String) : List String → MergeEngine → MergeEngine × List String
  | [], e => (e, [])
  | id :: ids, e =>
    let (e, moved) := if id ≠ sessionId then e.clearSoloFlag id else (e, false)
    let (e, changed) := clearOtherSolos sessionId ids e
    (e, if moved then id :: changed else changed)

/-- `apply_solo` (`merge.rs:364-386`). -/
def applySolo (e : MergeEngine) (sessionId : String) : MergeEngine × List Event :=
  if sessionId ∉ e.sessions then (e, [])
  else
    let oldNotify := e.notifyMap
    let (e, cleared) := clearOtherSolos sessionId e.order e
    let (e, moved) := e.setSoloFlag sessionId
    let changedIds := if moved then cleared ++ [sessionId] else cleared
    let (e, rearmed) := e.reconcileUnreadFrom oldNotify
    (e, e.updatedEventsFor (changedIds ++ rearmed))

/-- `apply_focus` (`merge.rs:425-432`). -/
def applyFocus (e : MergeEngine) (sessionId : String) : MergeEngine × Option Event :=
  match e.sessions.lookup sessionId with
  | none => (e, none)
  | some sess =>
    if !sess.unread then (e, none)
    else
      let sess := { sess with unread := false }
      ({ e with sessions := e.sessions.insert sessionId sess }, some (.ofSessionUpdated sess))

/-- The public mutations of the engine, each with the arguments of its method. -/
inductive Mutation where
  | upsertSession (session : Session)
  | removeSessionEvents (sessionId : String)
  | removeSession (sessionId : String)
  | upsertRun (sessionId : String) (run : AgentRun)
  | removeRun (sessionId runId : String)
  | applyMute (sessionId : String)
  | applyUnmute (sessionId : String)
  | applySolo (sessionId : String)
  | applyFocus (sessionId : String)

/-- One mutation, with the events it returned. -/
def mutate (e : MergeEngine) : Mutation → MergeEngine × List Event
  | .upsertSession session => ((e.upsertSession session).1, [(e.upsertSession session).2])
  | .removeSessionEvents sessionId => e.removeSessionEvents sessionId
  | .removeSession sessionId =>
    ((e.removeSession sessionId).1, (e.removeSession sessionId).2.toList)
  | .upsertRun sessionId run => e.upsertRun sessionId run
  | .removeRun sessionId runId => e.removeRun sessionId runId
  | .applyMute sessionId => e.applyMute sessionId
  | .applyUnmute sessionId => e.applyUnmute sessionId
  | .applySolo sessionId => e.applySolo sessionId
  | .applyFocus sessionId => ((e.applyFocus sessionId).1, (e.applyFocus sessionId).2.toList)

/-- A run of mutations, with all events in order. -/
def mutateAll : List Mutation → MergeEngine → MergeEngine × List Event
  | [], e => (e, [])
  | m :: ms, e =>
    ((mutateAll ms (e.mutate m).1).1, (e.mutate m).2 ++ (mutateAll ms (e.mutate m).1).2)

/-- `restore` (`merge.rs:442-449`): the given sessions verbatim, in their order. -/
def restore (sessions : List Session) : MergeEngine :=
  sessions.foldl (fun e session =>
    { sessions := e.sessions.insert session.sessionId session
      order := e.order ++ [session.sessionId] }) new

end MergeEngine

end VsFleet
