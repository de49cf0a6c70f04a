import VsFleet.HostCore.Notify
import VsFleet.HostCore.Proofs.FaceFold

/-!
# What a change of view pings for

All that a transition looks at, of a session in a view, is whether it should notify and with which
urgency: its ping. A view change fires for the sessions whose ping changes to one, and resolves
those whose ping goes away. Over a run of events, nothing is fired or resolved that the whole run
does not call for, as long as each event leaves each ping alone or brings it to its last value.
-/

namespace VsFleet

/-! ## The ping of a session in a view -/

namespace InboxView

variable (view : InboxView)

/-- The view has the session, and its tab notifies. -/
def notifies (sessionId : String) : Bool :=
  ((view.tab sessionId).map (fun tab => shouldNotify tab view.tabs)).getD false

/-- The urgency the view has for a session. -/
def urgencyOf (sessionId : String) : Option Urgency :=
  (view.tab sessionId).bind (fun tab => tab.urgency)

/-- The urgency a session notifies with, where it does. -/
def ping (sessionId : String) : Option (Option Urgency) :=
  if view.notifies sessionId then some (view.urgencyOf sessionId) else none

/-- No two tabs are of one session. -/
def Distinct : Prop := (view.tabs.map (fun tab => tab.sessionId)).Nodup

variable {view}

theorem ping_eq_none_iff {id : String} : view.ping id = none ↔ view.notifies id = false := by
  unfold ping
  split
  · rename_i h
    simp [h]
  · rename_i h
    simpa using h

theorem ping_of_tab {id : String} {tab : SessionTab} (found : view.tab id = some tab) :
    view.ping id = if shouldNotify tab view.tabs then some tab.urgency else none := by
  rw [ping, notifies, urgencyOf, found]
  rfl

theorem ping_of_absent {id : String} (absent : view.tab id = none) : view.ping id = none := by
  rw [ping_eq_none_iff, notifies, absent]
  rfl

theorem tab_of_mem (distinct : view.Distinct) {tab : SessionTab} (h : tab ∈ view.tabs) :
    view.tab tab.sessionId = some tab := by
  have held : KeyedList.get? (fun t : SessionTab => t.sessionId) view.tabs tab.sessionId =
      some tab := KeyedList.get?_eq_some_of_mem distinct h rfl
  exact held

theorem mem_of_tab {id : String} {tab : SessionTab} (found : view.tab id = some tab) :
    tab ∈ view.tabs ∧ tab.sessionId = id := by
  refine ⟨List.mem_of_find?_eq_some found, ?_⟩
  simpa using List.find?_some found

end InboxView

/-- What a change of view may push: a firing where the session notifies after it and did not, or
not with this urgency, before it; a resolution where it notified before and does not after. -/
def Warranted (before after : InboxView) : NotificationOutcome → Prop
  | .fire intent => after.notifies intent.sessionId = true ∧
      (before.notifies intent.sessionId = false ∨
        before.urgencyOf intent.sessionId ≠ after.urgencyOf intent.sessionId)
  | .autoResolve sessionId => before.notifies sessionId = true ∧ after.notifies sessionId = false
  | .noop => True

section

variable {before after : InboxView} {id : String}

/-- A firing is warranted by a ping that is new or other than before. -/
theorem warranted_fire {intent : NotificationIntent} : Warranted before after (.fire intent) ↔
    after.ping intent.sessionId ≠ none ∧
      before.ping intent.sessionId ≠ after.ping intent.sessionId := by
  unfold Warranted InboxView.ping
  cases now : after.notifies intent.sessionId <;>
    cases was : before.notifies intent.sessionId <;> simp [now, was]

theorem warranted_autoResolve : Warranted before after (.autoResolve id) ↔
    before.ping id ≠ none ∧ after.ping id = none := by
  unfold Warranted InboxView.ping
  cases now : after.notifies id <;> cases was : before.notifies id <;> simp [now, was]

end

/-! ## One change of view -/

theorem fireFor_eq (tab : SessionTab) :
    ∃ intent : NotificationIntent, intent.sessionId = tab.sessionId ∧
      fireFor tab = .fire intent := ⟨_, rfl, rfl⟩

section

variable {old new : InboxView}

/-- The outcome for a tab of the new view is told by its ping before and after. -/
theorem sessionTransition_kept (old : InboxView) (distinct : new.Distinct) {newTab : SessionTab}
    (mem : newTab ∈ new.tabs) :
    sessionTransition (old.tab newTab.sessionId) (some newTab)
        (((old.tab newTab.sessionId).map (fun tab => shouldNotify tab old.tabs)).getD false)
        (shouldNotify newTab new.tabs) false =
      if new.ping newTab.sessionId = old.ping newTab.sessionId then .noop
      else if new.ping newTab.sessionId = none then .autoResolve newTab.sessionId
      else fireFor newTab := by
  rw [InboxView.ping_of_tab (InboxView.tab_of_mem distinct mem)]
  cases found : old.tab newTab.sessionId with
  | none =>
    rw [InboxView.ping_of_absent found]
    cases shouldNotify newTab new.tabs with
    | false => rfl
    | true => rfl
  | some oldTab =>
    rw [InboxView.ping_of_tab found]
    simp only [Option.map_some, Option.getD_some]
    cases shouldNotify newTab new.tabs with
    | false => cases shouldNotify oldTab old.tabs <;> rfl
    | true =>
      cases shouldNotify oldTab old.tabs with
      | false => rfl
      | true =>
        simp only [sessionTransition, if_true, Option.some.injEq, Bool.false_eq_true, if_false,
          reduceCtorEq]
        by_cases same : newTab.urgency = oldTab.urgency
        · rw [if_pos same, if_neg (not_not.mpr same.symm)]
        · rw [if_neg same, if_pos (fun h => same h.symm)]

/-- One change of view pushes nothing it does not call for. -/
theorem viewTransition_warranted (distinct' : old.Distinct) (distinct : new.Distinct)
    {outcome : NotificationOutcome} (h : outcome ∈ viewTransition old new) :
    Warranted old new outcome := by
  rw [viewTransition, List.mem_filter, List.mem_append, decide_eq_true_iff] at h
  obtain ⟨h | h, acts⟩ := h
  · obtain ⟨newTab, mem, rfl⟩ := List.mem_map.mp h
    have kept := sessionTransition_kept old distinct mem
    rw [InboxView.tab] at kept
    rw [kept] at acts ⊢
    split
    · trivial
    · rename_i other
      split
      · rename_i ends
        rw [ends, eq_comm] at other
        exact warranted_autoResolve.mpr ⟨other, ends⟩
      · rename_i pings
        obtain ⟨intent, own, fires⟩ := fireFor_eq newTab
        rw [fires, warranted_fire, own]
        exact ⟨pings, fun same => other same.symm⟩
  · obtain ⟨oldTab, mem, rfl⟩ := List.mem_map.mp h
    rw [List.mem_filter, Bool.not_eq_true', List.any_eq_false] at mem
    cases pending : shouldNotify oldTab old.tabs with
    | false =>
      rw [pending] at acts
      exact absurd rfl acts
    | true =>
      have absent : new.tab oldTab.sessionId = none := by
        rw [InboxView.tab, List.find?_eq_none]
        exact mem.2
      refine warranted_autoResolve.mpr ⟨?_, InboxView.ping_of_absent absent⟩
      rw [InboxView.ping_of_tab (InboxView.tab_of_mem distinct' mem.1), pending]
      exact Option.some_ne_none _

/-- A ping that is new or other than before fires. -/
theorem viewTransition_fires (distinct : new.Distinct) {id : String} (pings : new.ping id ≠ none)
    (other : old.ping id ≠ new.ping id) :
    ∃ intent : NotificationIntent, intent.sessionId = id ∧
      .fire intent ∈ viewTransition old new := by
  cases found : new.tab id with
  | none => exact absurd (InboxView.ping_of_absent found) pings
  | some newTab =>
    obtain ⟨mem, rfl⟩ := InboxView.mem_of_tab found
    obtain ⟨intent, own, fires⟩ := fireFor_eq newTab
    have kept := sessionTransition_kept old distinct mem
    rw [if_neg (fun same => other same.symm), if_neg pings, fires, InboxView.tab] at kept
    refine ⟨intent, own, ?_⟩
    rw [viewTransition, List.mem_filter, List.mem_append]
    exact ⟨Or.inl (List.mem_map.mpr ⟨newTab, mem, kept⟩), rfl⟩

end

/-! ## A run of events -/

/-- The view of a list of sessions. -/
def viewOf (l : List Session) : InboxView := ⟨l.map sessionToTab⟩

theorem InboxModel.Holds.view {m : InboxModel} {l : List Session} (h : m.Holds l) :
    m.view = viewOf l := by
  rw [InboxModel.view, h.values]
  rfl

theorem viewOf_distinct {l : List Session} (distinct : (l.map (fun s => s.sessionId)).Nodup) :
    (viewOf l).Distinct := by
  rw [InboxView.Distinct, viewOf, List.map_map]
  exact distinct

/-- The ping of a session in a list of sessions. -/
def pingIn (l : List Session) (id : String) : Option (Option Urgency) := (viewOf l).ping id

/-- Each event leaves each ping alone or brings it to what it is in the end. -/
def Calm (final : List Session) : List Session → List Event → Prop
  | _, [] => True
  | l, ev :: evs =>
    (∀ id, pingIn (ev.fold l) id = pingIn l id ∨ pingIn (ev.fold l) id = pingIn final id) ∧
      Calm final (ev.fold l) evs

/-- The outcomes pushed while events are folded one by one. -/
def outcomesOf : List Session → List Event → List NotificationOutcome
  | _, [] => []
  | l, ev :: evs => viewTransition (viewOf l) (viewOf (ev.fold l)) ++ outcomesOf (ev.fold l) evs

section

variable {start l final : List Session}

theorem Event.fold_distinct (ev : Event) (distinct : (l.map (fun s => s.sessionId)).Nodup) :
    ((ev.fold l).map (fun s => s.sessionId)).Nodup := by
  have put := InboxModel.Holds.putSessions l InboxModel.Holds.new
  rw [KeyedList.foldl_upsert l [] distinct, List.nil_append] at put
  exact (put.apply ev).distinct

/-- What a step calls for is called for by the whole run, where the step starts from first pings
and moves them to last ones only. -/
theorem Warranted.widen {l' : List Session} {outcome : NotificationOutcome}
    (h : Warranted (viewOf l) (viewOf l') outcome)
    (early : ∀ id, pingIn l id = pingIn start id ∨ pingIn l id = pingIn final id)
    (calm : ∀ id, pingIn l' id = pingIn l id ∨ pingIn l' id = pingIn final id) :
    Warranted (viewOf start) (viewOf final) outcome := by
  have moved : ∀ id, pingIn l id ≠ pingIn l' id →
      pingIn l id = pingIn start id ∧ pingIn l' id = pingIn final id := by
    intro id move
    have last : pingIn l' id = pingIn final id := (calm id).resolve_left (fun h => move h.symm)
    exact ⟨(early id).resolve_right (fun h => move (h.trans last.symm)), last⟩
  cases outcome with
  | noop => trivial
  | fire intent =>
    rw [warranted_fire] at h ⊢
    obtain ⟨first, last⟩ := moved intent.sessionId h.2
    unfold pingIn at first last
    rw [← first, ← last]
    exact h
  | autoResolve id =>
    rw [warranted_autoResolve] at h ⊢
    obtain ⟨first, last⟩ := moved id (fun same => h.1 (same.trans h.2))
    unfold pingIn at first last
    rw [← first, ← last]
    exact h

theorem Calm.warranted (evs : List Event) : ∀ {l : List Session},
    (l.map (fun s => s.sessionId)).Nodup → Calm final l evs →
    (∀ id, pingIn l id = pingIn start id ∨ pingIn l id = pingIn final id) →
    ∀ outcome ∈ outcomesOf l evs, Warranted (viewOf start) (viewOf final) outcome := by
  induction evs with
  | nil => exact fun _ _ _ => nofun
  | cons ev evs ih =>
    intro l distinct calm early outcome h
    have distinct' := ev.fold_distinct distinct
    rcases List.mem_append.mp h with h | h
    · exact (viewTransition_warranted (viewOf_distinct distinct) (viewOf_distinct distinct')
        h).widen early calm.1
    · refine ih distinct' calm.2 (fun id => ?_) outcome h
      rcases calm.1 id with same | last
      · rw [same]
        exact early id
      · exact Or.inr last

/-- A step that raises a ping the run does not end with fires without warrant. -/
theorem unwarranted_of_step (evs : List Event) (ev : Event) (later : List Event)
    (distinct : (l.map (fun s => s.sessionId)).Nodup) (id : String)
    (pings : pingIn (ev.fold (evs.foldl Event.fold l)) id ≠ none)
    (other : pingIn (evs.foldl Event.fold l) id ≠ pingIn (ev.fold (evs.foldl Event.fold l)) id)
    (ends : pingIn final id = none) :
    ¬ ∀ outcome ∈ outcomesOf l (evs ++ ev :: later),
      Warranted (viewOf start) (viewOf final) outcome := by
  intro warranted
  suffices ∃ intent : NotificationIntent, intent.sessionId = id ∧
      .fire intent ∈ outcomesOf l (evs ++ ev :: later) by
    obtain ⟨intent, rfl, fires⟩ := this
    exact (warranted_fire.mp (warranted _ fires)).1 ends
  clear warranted
  induction evs generalizing l with
  | nil =>
    obtain ⟨intent, own, fires⟩ :=
      viewTransition_fires (viewOf_distinct (ev.fold_distinct distinct)) pings other
    exact ⟨intent, own, List.mem_append_left _ fires⟩
  | cons first evs ih =>
    obtain ⟨intent, own, fires⟩ := ih (first.fold_distinct distinct) pings other
    exact ⟨intent, own, List.mem_append_right _ fires⟩

end

/-! ## What a ping looks at -/

/-- The part of a session that decides its ping and the pings of the others. -/
structure PingKey where
  sessionId : String
  waiting : Bool
  urgency : Option Urgency
  muted : Bool
  soloed : Bool

/-- What a ping depends on, of a session. -/
def Session.pingKey (s : Session) : PingKey :=
  ⟨s.sessionId, s.rollupState = .waiting, s.rollupUrgency, s.muted, s.soloed⟩

/-- Whether a session notifies where some session is soloed or none is. -/
def PingKey.notifies (key : PingKey) (anySoloed : Bool) : Bool :=
  key.waiting && if anySoloed then key.soloed else !key.muted

theorem shouldNotify_sessionToTab (l : List Session) (s : Session) :
    shouldNotify (sessionToTab s) (viewOf l).tabs =
      s.pingKey.notifies (l.any (fun s => s.soloed)) := by
  have any : (viewOf l).tabs.any (fun t => t.soloed) = l.any (fun s => s.soloed) := by
    rw [viewOf, List.any_map]
    rfl
  have waiting : (sessionToTab s).state.isAttention = decide (s.rollupState = .waiting) := by
    unfold sessionToTab TabState.isAttention
    cases s.rollupState <;> rfl
  unfold shouldNotify pingSuppressed
  simp only [any, waiting]
  unfold PingKey.notifies Session.pingKey
  cases decide (s.rollupState = .waiting) <;> cases l.any (fun s => s.soloed) <;>
    simp [sessionToTab]

theorem pingIn_eq (l : List Session) (id : String) : pingIn l id =
    (KeyedList.get? (fun s => s.sessionId) l id).bind (fun s =>
      if s.pingKey.notifies (l.any (fun s => s.soloed)) then some s.rollupUrgency else none) := by
  have tab : (viewOf l).tab id = (KeyedList.get? (fun s => s.sessionId) l id).map sessionToTab := by
    rw [InboxView.tab, viewOf, List.find?_map]
    rfl
  rw [pingIn]
  cases found : KeyedList.get? (fun s => s.sessionId) l id with
  | none => exact InboxView.ping_of_absent (by rw [tab, found]; rfl)
  | some s =>
    have shown : (viewOf l).tab id = some (sessionToTab s) := by rw [tab, found]; rfl
    rw [InboxView.ping_of_tab shown, shouldNotify_sessionToTab]
    rfl

/-- Lists that agree in what pings look at agree in all pings. -/
theorem pingIn_congr {l l' : List Session}
    (same : l.map Session.pingKey = l'.map Session.pingKey) (id : String) :
    pingIn l id = pingIn l' id := by
  have keyed : ∀ l : List Session, pingIn l id =
      ((l.map Session.pingKey).find? (fun k => k.sessionId = id)).bind (fun k =>
        if k.notifies ((l.map Session.pingKey).any (fun k => k.soloed)) then some k.urgency
        else none) := by
    intro l
    rw [pingIn_eq, List.find?_map, List.any_map, KeyedList.get?, Option.bind_map]
    rfl
  rw [keyed, keyed, same]

end VsFleet
