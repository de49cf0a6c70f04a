import VsFleet.HostCore.Proofs.PingRules
import VsFleet.Host.Rail

/-!
# The prediction of the rail

The rail shows what the user does before the Hub has answered, by the same rules in a third
language. What these rules look at is a few flags of each session; on them the rail and the Hub make
the same of every command.
-/

namespace VsFleet

/-! ## What the rules look at -/

/-- The flags of a session, or of its tab, that the rules of mute, solo and unread are about. -/
structure TabFlags where
  sessionId : String
  attention : Bool
  muted : Bool
  soloed : Bool
  unread : Bool

/-- The flags of a rendered tab. -/
def RenderedTab.flags (tab : RenderedTab) : TabFlags :=
  ⟨tab.sessionId, tab.attention, tab.muted, tab.soloed, tab.unread⟩

/-- The flags of a session at the Hub. -/
def Session.flags (s : Session) : TabFlags :=
  ⟨s.sessionId, s.rollupState = .waiting, s.muted, s.soloed, s.unread⟩

namespace TabFlags

/-- Whether a session notifies, where some session is soloed or none is. -/
def notifies (f : TabFlags) (anySoloed : Bool) : Bool :=
  f.attention && !f.muted && (!anySoloed || f.soloed)

/-- Some session is soloed. -/
def anySoloed (l : List TabFlags) : Bool := l.any (fun f => f.soloed)

/-- The unread flag follows a change of whether the session notifies. -/
def settle (f : TabFlags) (old new : Bool) : TabFlags :=
  { f with unread := if old = new then f.unread else new }

/-- The flags of the sessions `l` that `kept` keeps, changed by `change` and settled. -/
def act (kept : TabFlags → Bool) (change : TabFlags → TabFlags) (l : List TabFlags) :
    List TabFlags :=
  let changed := (l.filter kept).map change
  (l.filter kept).map (fun f =>
    (change f).settle (f.notifies (anySoloed l)) ((change f).notifies (anySoloed changed)))

end TabFlags

theorem anySoloed_perm {l l' : List TabFlags} (perm : l.Perm l') :
    TabFlags.anySoloed l = TabFlags.anySoloed l' := perm.any_eq

theorem act_perm {l l' : List TabFlags} (perm : l.Perm l') (kept : TabFlags → Bool)
    (change : TabFlags → TabFlags) :
    (TabFlags.act kept change l).Perm (TabFlags.act kept change l') := by
  unfold TabFlags.act
  dsimp only
  rw [anySoloed_perm perm, anySoloed_perm ((perm.filter kept).map change)]
  exact (perm.filter kept).map _

/-- Settling the unread flags soloes nothing. -/
theorem anySoloed_act (kept : TabFlags → Bool) (change : TabFlags → TabFlags) (l : List TabFlags) :
    TabFlags.anySoloed (TabFlags.act kept change l) =
      TabFlags.anySoloed ((l.filter kept).map change) := by
  have solos : ∀ l : List TabFlags,
      TabFlags.anySoloed l = (l.map (fun f => f.soloed)).any id := by
    intro l
    rw [List.any_map]
    rfl
  rw [solos, solos, TabFlags.act, List.map_map, List.map_map]
  rfl

/-- The inbox shows sessions with the given flags: each tab says whether it pings by the rule, and
the counts are those of the tabs. -/
structure RenderedInbox.Shows (inbox : RenderedInbox) (l : List TabFlags) : Prop where
  flags : (inbox.tabs.map RenderedTab.flags).Perm l
  pinging : ∀ tab ∈ inbox.tabs, tab.pinging = tab.flags.notifies (TabFlags.anySoloed l)
  suppressed : ∀ tab ∈ inbox.tabs, tab.pingSuppressed = (tab.attention && !tab.pinging)
  count : inbox.waitingCount = (inbox.tabs.filter (fun tab => tab.pinging)).length
  total : inbox.waitingTotal = (inbox.tabs.filter (fun tab => tab.attention)).length

/-- What the prediction of a tab is about. -/
def RenderedTab.shown (tab : RenderedTab) : TabFlags × Bool × Bool :=
  (tab.flags, tab.pinging, tab.pingSuppressed)

/-- Two inboxes that show the same sessions agree. -/
theorem RenderedInbox.Shows.agree {inbox inbox' : RenderedInbox} {l l' : List TabFlags}
    (h : inbox.Shows l) (h' : inbox'.Shows l') (same : l.Perm l') :
    (inbox.tabs.map RenderedTab.shown).Perm (inbox'.tabs.map RenderedTab.shown) ∧
      inbox.waitingCount = inbox'.waitingCount ∧ inbox.waitingTotal = inbox'.waitingTotal := by
  -- what is shown of a tab follows from its flags
  have rule : ∀ {inbox : RenderedInbox} {l : List TabFlags}, inbox.Shows l →
      inbox.tabs.map RenderedTab.shown = (inbox.tabs.map RenderedTab.flags).map (fun f =>
        (f, f.notifies (TabFlags.anySoloed l),
          f.attention && !f.notifies (TabFlags.anySoloed l))) := by
    intro inbox l h
    rw [List.map_map]
    refine List.map_congr_left (fun tab mem => ?_)
    rw [RenderedTab.shown, h.suppressed tab mem, h.pinging tab mem]
    rfl
  have shown : (inbox.tabs.map RenderedTab.shown).Perm (inbox'.tabs.map RenderedTab.shown) := by
    rw [rule h, rule h', anySoloed_perm same]
    exact ((h.flags.trans same).trans h'.flags.symm).map _
  refine ⟨shown, ?_, ?_⟩
  · have counted : ∀ tabs : List RenderedTab, (tabs.filter (fun tab => tab.pinging)).length =
        ((tabs.map RenderedTab.shown).filter (fun s => s.2.1)).length := by
      intro tabs
      rw [List.filter_map, List.length_map]
      rfl
    rw [h.count, h'.count, counted, counted, (shown.filter _).length_eq]
  · have counted : ∀ tabs : List RenderedTab, (tabs.filter (fun tab => tab.attention)).length =
        ((tabs.map RenderedTab.shown).filter (fun s => s.1.attention)).length := by
      intro tabs
      rw [List.filter_map, List.length_map]
      rfl
    rw [h.total, h'.total, counted, counted, (shown.filter _).length_eq]

/-! ## The rail -/

theorem shouldNotifyTab_eq (tab : RenderedTab) (anySoloed : Bool) :
    shouldNotifyTab tab anySoloed = tab.flags.notifies anySoloed := rfl

theorem reconcileUnread_eq (tab : RenderedTab) (old new : Bool) :
    reconcileUnread tab old new = if old = new then tab.unread else new := by
  unfold reconcileUnread
  cases old <;> cases new <;> cases tab.unread <;> rfl

theorem tabs_anySoloed (tabs : List RenderedTab) :
    tabs.any (fun tab => tab.soloed) = TabFlags.anySoloed (tabs.map RenderedTab.flags) := by
  rw [TabFlags.anySoloed, List.any_map]
  rfl

theorem notifyMapForTabs_of_mem {tabs : List RenderedTab}
    (distinct : (tabs.map (fun tab => tab.sessionId)).Nodup) {tab : RenderedTab}
    (mem : tab ∈ tabs) :
    notifyMapForTabs tabs tab.sessionId =
      some (tab.flags.notifies (TabFlags.anySoloed (tabs.map RenderedTab.flags))) := by
  have distinct' : (tabs.reverse.map (fun tab => tab.sessionId)).Nodup := by
    rw [List.map_reverse, List.nodup_reverse]
    exact distinct
  have found : KeyedList.get? (fun t : RenderedTab => t.sessionId) tabs.reverse tab.sessionId =
      some tab := KeyedList.get?_eq_some_of_mem distinct' (List.mem_reverse.mpr mem) rfl
  rw [KeyedList.get?] at found
  unfold notifyMapForTabs
  rw [found, Option.map_some, shouldNotifyTab_eq, tabs_anySoloed]

/-- Tabs dropped and changed, and derived from what they notified before, show the same done to the
flags. -/
theorem RenderedInbox.Shows.derive {inbox : RenderedInbox} {l : List TabFlags} (h : inbox.Shows l)
    (distinct : (l.map (fun f => f.sessionId)).Nodup) (keep : RenderedTab → Bool)
    (mapper : RenderedTab → RenderedTab) (kept : TabFlags → Bool) (change : TabFlags → TabFlags)
    (keeps : ∀ tab, keep tab = kept tab.flags)
    (maps : ∀ tab, (mapper tab).flags = change tab.flags)
    (ids : ∀ f, (change f).sessionId = f.sessionId) :
    (deriveInboxTabs inbox ((inbox.tabs.filter keep).map mapper)
      (some (notifyMapForTabs inbox.tabs))).Shows (TabFlags.act kept change l) := by
  have apart : (inbox.tabs.map (fun tab => tab.sessionId)).Nodup := by
    have same : inbox.tabs.map (fun tab => tab.sessionId) =
        (inbox.tabs.map RenderedTab.flags).map (fun f => f.sessionId) := by
      rw [List.map_map]
      rfl
    rw [same]
    exact (h.flags.map _).nodup_iff.mpr distinct
  have filtered : ((inbox.tabs.filter keep).map mapper).map RenderedTab.flags =
      ((inbox.tabs.map RenderedTab.flags).filter kept).map change := by
    rw [List.filter_map, List.map_map, List.map_map,
      List.filter_congr (fun tab _ => keeps tab)]
    exact List.map_congr_left (fun tab _ => maps tab)
  have any := tabs_anySoloed ((inbox.tabs.filter keep).map mapper)
  rw [filtered] at any
  -- what becomes of one tab
  have derived : ∀ tab ∈ inbox.tabs, ∀ anySoloed : Bool,
      (deriveTab anySoloed (some (notifyMapForTabs inbox.tabs)) (mapper tab)).flags =
        (change tab.flags).settle
          (tab.flags.notifies (TabFlags.anySoloed (inbox.tabs.map RenderedTab.flags)))
          ((change tab.flags).notifies anySoloed) := by
    intro tab mem anySoloed
    have own : (mapper tab).sessionId = tab.sessionId :=
      (congrArg TabFlags.sessionId (maps tab)).trans (ids tab.flags)
    have previous : (notifyMapForTabs inbox.tabs (mapper tab).sessionId).getD false =
        tab.flags.notifies (TabFlags.anySoloed (inbox.tabs.map RenderedTab.flags)) := by
      rw [own, notifyMapForTabs_of_mem apart mem, Option.getD_some]
    unfold deriveTab
    dsimp only
    rw [previous, reconcileUnread_eq, ← maps tab]
    rfl
  have flags : (deriveInboxTabs inbox ((inbox.tabs.filter keep).map mapper)
      (some (notifyMapForTabs inbox.tabs))).tabs.map RenderedTab.flags =
        TabFlags.act kept change (inbox.tabs.map RenderedTab.flags) := by
    unfold deriveInboxTabs TabFlags.act
    dsimp only
    rw [any]
    generalize TabFlags.anySoloed (((inbox.tabs.map RenderedTab.flags).filter kept).map change) =
      anySoloed
    rw [List.map_map, List.map_map, List.filter_map, List.map_map,
      List.filter_congr (fun tab _ => keeps tab)]
    exact List.map_congr_left (fun tab mem => derived tab (List.mem_filter.mp mem).1 anySoloed)
  refine ⟨flags ▸ act_perm h.flags kept change, ?_, ?_, rfl, rfl⟩
  · intro tab' mem'
    rw [← anySoloed_perm (act_perm h.flags kept change), anySoloed_act, ← any]
    obtain ⟨tab, -, rfl⟩ := List.mem_map.mp mem'
    rfl
  · intro tab' mem'
    obtain ⟨tab, -, rfl⟩ := List.mem_map.mp mem'
    rfl

/-! ## The Hub -/

theorem sessions_anySoloed (l : List Session) :
    l.any (fun s => s.soloed) = TabFlags.anySoloed (l.map Session.flags) := by
  rw [TabFlags.anySoloed, List.any_map]
  rfl

theorem isAttention_sessionToTab (s : Session) :
    (sessionToTab s).state.isAttention = decide (s.rollupState = .waiting) := by
  unfold sessionToTab TabState.isAttention
  cases s.rollupState <;> rfl

/-- The rule of the host core is that of the rail on sessions that are not both muted and
soloed. -/
theorem shouldNotify_eq {l : List Session} (apart : ∀ s ∈ l, s.muted = true → s.soloed = false)
    {s : Session} (hs : s ∈ l) : shouldNotify (sessionToTab s) (viewOf l).tabs =
      s.flags.notifies (TabFlags.anySoloed (l.map Session.flags)) := by
  have unmixed := apart s hs
  rw [shouldNotify_sessionToTab, sessions_anySoloed]
  generalize TabFlags.anySoloed (l.map Session.flags) = any
  unfold PingKey.notifies TabFlags.notifies Session.pingKey Session.flags
  cases any with
  | false => simp
  | true =>
    cases muted : s.muted with
    | false => simp
    | true => simp [unmixed muted]

/-- The inbox rendered from the sessions shows them, where none is both muted and soloed. -/
theorem renderAt_shows {l : List Session} (apart : ∀ s ∈ l, s.muted = true → s.soloed = false)
    (parseEpochSecs : String → Option Int) (connected : Bool) (now : Option String) :
    (renderAt parseEpochSecs (viewOf l) connected now).Shows (l.map Session.flags) := by
  have sorted : (sortTabs parseEpochSecs (viewOf l).tabs now).Perm (l.map sessionToTab) :=
    List.mergeSort_perm _ _
  have notifies : ∀ t, shouldNotify t (sortTabs parseEpochSecs (viewOf l).tabs now) =
      shouldNotify t (viewOf l).tabs := by
    intro t
    have any : (sortTabs parseEpochSecs (viewOf l).tabs now).any (fun t => t.soloed) =
        (viewOf l).tabs.any (fun t => t.soloed) := sorted.any_eq
    rw [shouldNotify, shouldNotify, pingSuppressed, pingSuppressed, any]
  refine ⟨?_, ?_, ?_, ?_, ?_⟩
  · have flags : (renderAt parseEpochSecs (viewOf l) connected now).tabs.map RenderedTab.flags =
        (sortTabs parseEpochSecs (viewOf l).tabs now).map (fun t =>
          ⟨t.sessionId, t.state.isAttention, t.muted, t.soloed, t.unread⟩) := List.map_map
    rw [flags]
    refine (sorted.map _).trans (List.Perm.of_eq ?_)
    rw [List.map_map]
    refine List.map_congr_left (fun s _ => ?_)
    rw [Session.flags, ← isAttention_sessionToTab]
    rfl
  · intro tab mem
    obtain ⟨t, there, rfl⟩ := List.mem_map.mp mem
    obtain ⟨s, hs, rfl⟩ := List.mem_map.mp (sorted.mem_iff.mp there)
    have pings := (notifies (sessionToTab s)).trans (shouldNotify_eq apart hs)
    refine pings.trans ?_
    rw [Session.flags, ← isAttention_sessionToTab]
    rfl
  · intro tab mem
    obtain ⟨t, -, rfl⟩ := List.mem_map.mp mem
    dsimp only [renderTab]
    rw [shouldNotify]
    cases t.state.isAttention <;> simp
  · dsimp only [renderAt]
    rw [List.filter_map, List.length_map]
    rfl
  · dsimp only [renderAt]
    rw [List.filter_map, List.length_map]
    rfl

/-! ## An action -/

/-- Whether an action keeps a session: a dismissal does not keep its own. -/
def RailAction.keeps (id : String) : RailAction → TabFlags → Bool
  | .dismiss, f => f.sessionId ≠ id
  | _, _ => true

/-- What an action makes of the flags of a session it keeps. -/
def RailAction.change (id : String) : RailAction → TabFlags → TabFlags
  | .setMuted muted, f => if f.sessionId = id then { f with muted, soloed := false } else f
  | .setSoloed true, f =>
    if f.sessionId = id then { f with soloed := true, muted := false }
    else { f with soloed := false }
  | .setSoloed false, f =>
    if f.sessionId = id then { f with soloed := false, muted := false } else f
  | .focus, f => if f.sessionId = id then { f with unread := false } else f
  | .dismiss, f => f

theorem RailAction.change_sessionId (action : RailAction) (id : String) (f : TabFlags) :
    (action.change id f).sessionId = f.sessionId := by
  by_cases own : f.sessionId = id
  all_goals
    rcases action with muted | ⟨soloed | soloed⟩ | _ | _ <;> simp [change, own]

/-- An action leaves no session both muted and soloed where there was none. -/
theorem RailAction.change_apart (action : RailAction) (id : String) {f : TabFlags}
    (apart : f.muted = true → f.soloed = false) :
    (action.change id f).muted = true → (action.change id f).soloed = false := by
  by_cases own : f.sessionId = id
  all_goals
    rcases action with muted | ⟨soloed | soloed⟩ | _ | _ <;> simp [change, own] <;> exact apart

/-- An update of the tabs shows the same update of the flags. -/
theorem RenderedInbox.Shows.updateInboxTabs {rail : Rail} {l : List TabFlags}
    (h : rail.inbox.Shows l) (distinct : (l.map (fun f => f.sessionId)).Nodup)
    (mapper : RenderedTab → RenderedTab) (change : TabFlags → TabFlags)
    (maps : ∀ tab, (mapper tab).flags = change tab.flags)
    (ids : ∀ f, (change f).sessionId = f.sessionId) :
    (rail.updateInboxTabs mapper).inbox.Shows (TabFlags.act (fun _ => true) change l) := by
  have derived := h.derive distinct (fun _ => true) mapper (fun _ => true) change (fun _ => rfl)
    maps ids
  rwa [List.filter_true] at derived

/-- What the rail makes of the sessions it shows. -/
theorem RenderedInbox.Shows.localMutate {rail : Rail} {l : List TabFlags} (h : rail.inbox.Shows l)
    (distinct : (l.map (fun f => f.sessionId)).Nodup) (action : RailAction) (id : String) :
    (action.localMutate rail id).inbox.Shows
      (TabFlags.act (action.keeps id) (action.change id) l) := by
  have ids := action.change_sessionId id
  cases action with
  | setMuted muted =>
    refine h.updateInboxTabs distinct _ _ (fun tab => ?_) ids
    by_cases own : tab.sessionId = id <;> simp [RailAction.change, RenderedTab.flags, own]
  | setSoloed soloed =>
    refine h.updateInboxTabs distinct _ _ (fun tab => ?_) ids
    cases soloed <;> by_cases own : tab.sessionId = id <;>
      simp [RailAction.change, RenderedTab.flags, own]
  | focus =>
    refine h.updateInboxTabs distinct _ _ (fun tab => ?_) ids
    by_cases own : tab.sessionId = id <;> simp [RailAction.change, RenderedTab.flags, own]
  | dismiss =>
    have derived := h.derive distinct (fun tab => tab.sessionId ≠ id) (fun tab => tab)
      (RailAction.keeps id .dismiss) (RailAction.change id .dismiss) (fun _ => rfl) (fun _ => rfl)
      ids
    rwa [List.map_id'] at derived

/-! ## The action on the Hub -/

theorem settled_flags (F G : Fleet) (g : Edit) (s : Session) : ((F.settled G g) s).flags =
    (g s).flags.settle (s.flags.notifies F.anySoloed) ((g s).flags.notifies G.anySoloed) := rfl

theorem Fleet.anySoloed_flags (F : Fleet) :
    F.anySoloed = TabFlags.anySoloed (F.sessions.map Session.flags) := sessions_anySoloed F.sessions

/-- An edit with the unread flags settled. -/
theorem Fleet.reflag_flags (F : Fleet) (g : Edit) {change : TabFlags → TabFlags}
    (edits : ∀ s, (g s).flags = change s.flags) : (F.reflag g).sessions.map Session.flags =
      TabFlags.act (fun _ => true) change (F.sessions.map Session.flags) := by
  have edited : (F.edit g).sessions.map Session.flags =
      (F.sessions.map Session.flags).map change := by
    rw [edit_sessions, List.map_map, List.map_map]
    exact List.map_congr_left (fun s _ => edits s)
  unfold TabFlags.act
  rw [List.filter_true, List.map_map, ← edited, ← Fleet.anySoloed_flags, ← Fleet.anySoloed_flags,
    reflag, edit_sessions, List.map_map]
  refine List.map_congr_left (fun s _ => ?_)
  rw [Function.comp_apply, settled_flags, edits]
  rfl

theorem Fleet.remove_flags (F : Fleet) (id : String) : (F.remove id).sessions.map Session.flags =
    TabFlags.act (RailAction.keeps id .dismiss) (RailAction.change id .dismiss)
      (F.sessions.map Session.flags) := by
  have dropped : ((F.sessions.map Session.flags).filter (RailAction.keeps id .dismiss)).map
      (RailAction.change id .dismiss) = (F.drop id).sessions.map Session.flags := by
    rw [List.filter_map]
    exact List.map_id' _
  unfold TabFlags.act
  dsimp only
  rw [dropped, ← Fleet.anySoloed_flags, ← Fleet.anySoloed_flags, remove, edit_sessions,
    List.filter_map, List.map_map, List.map_map]
  rfl

/-- A focus changes nobody's notifying, so there is nothing to settle. -/
theorem Fleet.reflag_read (F : Fleet) (id : String) :
    F.reflag (.only id .read) = F.edit (.only id .read) := by
  have still : ∀ s, (Edit.only id .read s).rollupState = s.rollupState ∧
      (Edit.only id .read s).muted = s.muted ∧ (Edit.only id .read s).soloed = s.soloed := by
    intro s
    by_cases own : s.sessionId = id <;> simp [Edit.only, Edit.read, Edit.setFlags, own]
  have any : (F.edit (.only id .read)).anySoloed = F.anySoloed :=
    anySoloed_congr rfl (fun s _ => (still s).2.2)
  apply Fleet.ext
  rw [reflag, edit_sessions, edit_sessions]
  refine List.map_congr_left (fun s _ => ?_)
  have same : (F.edit (.only id .read)).notifies (Edit.only id .read s) = F.notifies s := by
    rw [notifies, notifies, any, Session.shouldNotifySession, Session.shouldNotifySession,
      (still s).1, (still s).2.1, (still s).2.2]
  have settled : (F.settled (F.edit (.only id .read)) (.only id .read)) s =
      (Edit.only id .read s).settle (F.notifies s)
        ((F.edit (.only id .read)).notifies (Edit.only id .read s)) := rfl
  rw [settled, same, Session.settle_self]

/-- The command of an action makes a mutation that changes the flags as the action does. -/
theorem RailAction.mutationOf (store : StateStore) (iter : IterOrder Session) (F : Fleet)
    (action : RailAction) {id : String} (present : (F.get? id).isSome = true) :
    ∃ m, store.mutationOf iter (.command (action.command id)) = some m ∧
      (F.mutate m).sessions.map Session.flags =
        TabFlags.act (action.keeps id) (action.change id) (F.sessions.map Session.flags) := by
  have only : ∀ (g : Edit) (change : TabFlags → TabFlags),
      (∀ s, (g s).flags = change s.flags) → ∀ s : Session, (Edit.only id g s).flags =
        if s.flags.sessionId = id then change s.flags else s.flags := by
    intro g change edits s
    by_cases own : s.sessionId = id
    · have act : Edit.only id g s = g s := if_pos own
      rw [act, edits]
      exact (if_pos own).symm
    · have act : Edit.only id g s = s := if_neg own
      rw [act]
      exact (if_neg own).symm
  cases action with
  | setMuted muted =>
    cases muted with
    | true =>
      exact ⟨.applyMute id, rfl, F.reflag_flags _ (only .mute
        (fun f => { f with muted := true, soloed := false }) (fun _ => rfl))⟩
    | false =>
      exact ⟨.applyUnmute id, rfl, F.reflag_flags _ (only .unmute
        (fun f => { f with muted := false, soloed := false }) (fun _ => rfl))⟩
  | setSoloed soloed =>
    cases soloed with
    | true =>
      refine ⟨.applySolo id, rfl, ?_⟩
      rw [Fleet.mutate, Fleet.solo, if_pos present]
      refine F.reflag_flags _ (fun s => ?_)
      by_cases own : s.sessionId = id <;>
        simp [Edit.solo, Edit.setFlags, Session.flags, change, own]
    | false =>
      exact ⟨.applyUnmute id, rfl, F.reflag_flags _ (only .unmute
        (fun f => { f with soloed := false, muted := false }) (fun _ => rfl))⟩
  | focus =>
    refine ⟨.applyFocus id, rfl, ?_⟩
    rw [Fleet.mutate, ← Fleet.reflag_read]
    exact F.reflag_flags _ (only .read (fun f => { f with unread := false }) (fun _ => rfl))
  | dismiss => exact ⟨.removeSessionEvents id, rfl, F.remove_flags id⟩

/-! ## The prediction -/

/-- The rail predicts the Hub. On the rendering of a state of the Hub in which no session is both
muted and soloed an action on a listed session gives, at once, the tabs and the counts that
rendering the Hub gives once it has applied the command of the action: the flags of every tab and
whether it pings. -/
theorem rail_predicts (parseEpochSecs : String → Option Int) (store : StateStore)
    (reached : store.Reached parseEpochSecs)
    (apart : ∀ s ∈ store.snapshot, ¬ (s.muted = true ∧ s.soloed = true)) (rail : Rail)
    (connected : Bool) (now : Option String)
    (shows : rail.inbox = renderAt parseEpochSecs store.inbox connected now) (action : RailAction)
    (id : String) (listed : id ∈ rail.inbox.tabs.map (fun tab => tab.sessionId))
    (iter : IterOrder Session) (events : List Event)
    (applied : (store.applyCommand iter (action.command id)).1 = .ok events)
    (connected' : Bool) (now' : Option String) :
    let predicted := (action.localMutate rail id).inbox
    let rendered := renderAt parseEpochSecs (store.applyCommand iter (action.command id)).2.inbox
      connected' now'
    (predicted.tabs.map RenderedTab.shown).Perm (rendered.tabs.map RenderedTab.shown) ∧
      predicted.waitingCount = rendered.waitingCount ∧
      predicted.waitingTotal = rendered.waitingTotal := by
  intro predicted rendered
  obtain ⟨F, h⟩ := reached.refines
  have unmixed : ∀ s ∈ F.sessions, s.muted = true → s.soloed = false := by
    intro s hs muted
    have snapshot : store.snapshot = F.sessions := h.snapshot
    exact Bool.eq_false_iff.mpr (fun soloed => apart s (snapshot ▸ hs) ⟨muted, soloed⟩)
  have shown : rail.inbox.Shows (F.sessions.map Session.flags) := by
    rw [shows, StateStore.inbox_eq h]
    exact renderAt_shows unmixed parseEpochSecs connected now
  have ids : (F.sessions.map Session.flags).map (fun f => f.sessionId) =
      F.sessions.map (fun s => s.sessionId) := List.map_map
  have distinct : ((F.sessions.map Session.flags).map (fun f => f.sessionId)).Nodup := by
    rw [ids]
    exact F.distinct
  have present : (F.get? id).isSome = true := by
    have known : id ∈ F.sessions.map (fun s => s.sessionId) := by
      rw [← ids, ← (shown.flags.map (fun f => f.sessionId)).mem_iff, List.map_map]
      exact listed
    rw [Option.isSome_iff_ne_none, Ne, Fleet.get?_eq_none_iff]
    exact not_not_intro known
  obtain ⟨m, mutation, flags⟩ := action.mutationOf store iter F present
  have did := store.applyMessage_did iter (.command (action.command id))
  have succeeded : (store.applyMessage iter (.command (action.command id))).1 = .ok events :=
    applied
  rw [mutation, succeeded] at did
  have h' : Refines (store.applyCommand iter (action.command id)).2.engine (F.mutate m) := by
    have made := did.of_ok
    rw [StateStore.applyMessage] at made
    rw [made]
    exact h.mutate m
  have unmixed' : ∀ s ∈ (F.mutate m).sessions, s.muted = true → s.soloed = false := by
    intro s hs
    have act : s.flags ∈ TabFlags.act (action.keeps id) (action.change id)
        (F.sessions.map Session.flags) := flags ▸ List.mem_map_of_mem hs
    obtain ⟨f, before, same⟩ := List.mem_map.mp act
    obtain ⟨s', hs', rfl⟩ := List.mem_map.mp (List.mem_filter.mp before).1
    have changed := action.change_apart id (f := s'.flags) (unmixed s' hs')
    have muted := congrArg TabFlags.muted same
    have soloed := congrArg TabFlags.soloed same
    intro hm
    exact soloed.symm.trans (changed (muted.trans hm))
  have after := renderAt_shows unmixed' parseEpochSecs connected' now'
  rw [← StateStore.inbox_eq h', flags] at after
  exact (shown.localMutate distinct action id).agree after (List.Perm.refl _)

/-- A Hub with two sessions that wait, for a worked case. -/
def twoWaiting : StateStore :=
  .fromLog (.holding [.sessionUpsert (.plain "a" [.plain "r" "n" .waiting]),
    .sessionUpsert (.plain "b" [.plain "q" "n" .waiting])] [])

/-- The solo of one of them. -/
theorem rail_predicts_solo :
    let rail : Rail := ⟨renderAt (fun _ => none) twoWaiting.inbox true none, 0⟩
    let predicted := (RailAction.localMutate rail "a" (.setSoloed true)).inbox
    let rendered := renderAt (fun _ => none) (twoWaiting.applyCommand (.asStored Session)
      ((RailAction.setSoloed true).command "a")).2.inbox true none
    (predicted.tabs.map RenderedTab.shown).Perm (rendered.tabs.map RenderedTab.shown) ∧
      predicted.waitingCount = rendered.waitingCount ∧
      predicted.waitingTotal = rendered.waitingTotal := by
  intro rail
  have nonempty : twoWaiting.inbox.tabs ≠ [] := by decide
  have first : (twoWaiting.inbox.tabs.head nonempty).sessionId = "a" := rfl
  have listed : "a" ∈ rail.inbox.tabs.map (fun tab => tab.sessionId) := by
    rw [← first]
    exact List.mem_map_of_mem (List.mem_map_of_mem
      ((List.mergeSort_perm _ _).mem_iff.mpr (List.head_mem nonempty)))
  obtain ⟨events, applied⟩ : ∃ events, (twoWaiting.applyCommand (.asStored Session)
      ((RailAction.setSoloed true).command "a")).1 = .ok events := ⟨_, rfl⟩
  exact rail_predicts (fun _ => none) twoWaiting (.opened _) (by decide) rail true none rfl
    (.setSoloed true) "a" listed (.asStored Session) events applied true none

end VsFleet
