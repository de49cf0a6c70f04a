import Mathlib.Data.Finset.Erase
import Mathlib.Data.Finset.Insert
import VsFleet.HostCore.Proofs.Pings
import VsFleet.Misc.Runs

/-!
# The alerts that stand

Who keeps the set of alerts that stand by the outcomes of the changes from view to view, a firing
adding a session and a resolution taking it out, holds the sessions that should notify.
-/

namespace VsFleet

/-- The session an outcome is about. -/
def NotificationOutcome.about : NotificationOutcome → Option String
  | .fire intent => some intent.sessionId
  | .autoResolve sessionId => some sessionId
  | .noop => none

/-- The alerts that stand after an outcome. -/
def settleAlerts (outstanding : Finset String) : NotificationOutcome → Finset String
  | .fire intent => insert intent.sessionId outstanding
  | .autoResolve sessionId => outstanding.erase sessionId
  | .noop => outstanding

/-- The latest view and the alerts that stand, after one more view. -/
def trackView (state : InboxView × Finset String) (view : InboxView) :
    InboxView × Finset String :=
  (view, (viewTransition state.1 view).foldl settleAlerts state.2)

/-! ## One change of view -/

section

variable {old new : InboxView} {id : String}

/-- An outcome is about the session of the tab it was made for. -/
theorem sessionTransition_about (oldTab newTab : Option SessionTab)
    (oldPending newPending newSuppressed : Bool) {tab : SessionTab}
    (own : newTab.or oldTab = some tab) :
    sessionTransition oldTab newTab oldPending newPending newSuppressed = .noop ∨
      (sessionTransition oldTab newTab oldPending newPending newSuppressed).about =
        some tab.sessionId := by
  cases newTab with
  | some newTab =>
    obtain rfl := Option.some.inj own
    have fires : (if newSuppressed then .noop else fireFor newTab) = NotificationOutcome.noop ∨
        (if newSuppressed then .noop else fireFor newTab).about = some newTab.sessionId := by
      split
      · exact Or.inl rfl
      · exact Or.inr rfl
    unfold sessionTransition
    dsimp only
    split
    · exact fires
    · exact Or.inr rfl
    · split
      · exact fires
      · exact Or.inl rfl
    · exact Or.inl rfl
  | none =>
    cases oldTab with
    | none => cases own
    | some oldTab =>
      obtain rfl := Option.some.inj own
      unfold sessionTransition
      dsimp only
      split
      · exact Or.inr rfl
      · exact Or.inl rfl

/-- Outcomes that are each about their own tab are about different sessions where the tabs are. -/
theorem about_sublist (tabs : List SessionTab) {f : SessionTab → NotificationOutcome}
    (own : ∀ tab, f tab = .noop ∨ (f tab).about = some tab.sessionId) :
    (((tabs.map f).filter (fun outcome => outcome ≠ .noop)).map NotificationOutcome.about).Sublist
      (tabs.map (fun tab => some tab.sessionId)) := by
  induction tabs with
  | nil => exact .slnil
  | cons tab tabs ih =>
    rw [List.map_cons, List.map_cons, List.filter_cons]
    split
    · rename_i acts
      rcases own tab with noop | about
      · exact absurd noop (of_decide_eq_true acts)
      · rw [List.map_cons, about]
        exact ih.cons_cons _
    · exact ih.cons _

/-- No two outcomes of a change are about one session. -/
theorem viewTransition_nodup (distinct' : old.Distinct) (distinct : new.Distinct) :
    ((viewTransition old new).map NotificationOutcome.about).Nodup := by
  have ids : ∀ {tabs : List SessionTab}, (tabs.map (fun tab => tab.sessionId)).Nodup →
      (tabs.map (fun tab => some tab.sessionId)).Nodup := by
    intro tabs once
    have mapped := once.map (Option.some_injective String)
    rwa [List.map_map] at mapped
  unfold viewTransition
  dsimp only
  rw [List.filter_append, List.map_append]
  refine List.Nodup.sublist (List.Sublist.append
    (about_sublist new.tabs (fun tab => sessionTransition_about _ _ _ _ _ rfl))
    (about_sublist _ (fun tab => sessionTransition_about _ _ _ _ _ rfl))) ?_
  rw [List.nodup_append]
  refine ⟨ids distinct, ids (distinct'.sublist (List.filter_sublist.map _)), ?_⟩
  intro a ha b hb same
  obtain ⟨newTab, mem, rfl⟩ := List.mem_map.mp ha
  obtain ⟨oldTab, mem', rfl⟩ := List.mem_map.mp hb
  rw [List.mem_filter, Bool.not_eq_true', List.any_eq_false] at mem'
  exact mem'.2 newTab mem (decide_eq_true (Option.some.inj same))

/-- A ping that ends is resolved. -/
theorem viewTransition_resolves (distinct : new.Distinct) (pinged : old.ping id ≠ none)
    (ends : new.ping id = none) :
    .autoResolve id ∈ viewTransition old new := by
  rw [viewTransition, List.mem_filter, List.mem_append, decide_eq_true_iff]
  refine ⟨?_, NotificationOutcome.noConfusion⟩
  cases found : new.tab id with
  | some newTab =>
    obtain ⟨mem, rfl⟩ := InboxView.mem_of_tab found
    have kept := sessionTransition_kept old distinct mem
    rw [if_neg (fun same => pinged (same.symm.trans ends)), if_pos ends, InboxView.tab] at kept
    exact Or.inl (List.mem_map.mpr ⟨newTab, mem, kept⟩)
  | none =>
    cases was : old.tab id with
    | none => exact absurd (InboxView.ping_of_absent was) pinged
    | some oldTab =>
      obtain ⟨mem, rfl⟩ := InboxView.mem_of_tab was
      have pending : shouldNotify oldTab old.tabs = true := by
        by_contra calm
        exact pinged (by rw [InboxView.ping_of_tab was, if_neg calm])
      refine Or.inr (List.mem_map.mpr ⟨oldTab, List.mem_filter.mpr ⟨mem, ?_⟩, ?_⟩)
      · rw [InboxView.tab, List.find?_eq_none] at found
        rw [Bool.not_eq_true', List.any_eq_false]
        exact found
      · rw [pending]
        rfl

end

/-! ## The outcomes one after the other -/

theorem mem_settleAlerts {outstanding : Finset String} {outcome : NotificationOutcome}
    {id : String} : id ∈ settleAlerts outstanding outcome ↔
      (∃ intent : NotificationIntent, intent.sessionId = id ∧ outcome = .fire intent) ∨
        (id ∈ outstanding ∧ outcome ≠ .autoResolve id) := by
  cases outcome with
  | fire intent =>
    simp only [settleAlerts, Finset.mem_insert, ne_eq, reduceCtorEq, not_false_eq_true, and_true,
      NotificationOutcome.fire.injEq, exists_eq_right', eq_comm]
  | autoResolve sessionId =>
    simp only [settleAlerts, Finset.mem_erase, reduceCtorEq, and_false, exists_false, false_or,
      ne_eq, NotificationOutcome.autoResolve.injEq]
    rw [and_comm, eq_comm]
  | noop => simp [settleAlerts]

/-- After outcomes of which none resolves what another fires, an alert stands that was fired, or
stood and was not resolved. -/
theorem mem_foldl_settleAlerts {id : String} (outcomes : List NotificationOutcome)
    (clear : ∀ intent : NotificationIntent, intent.sessionId = id → .fire intent ∈ outcomes →
      .autoResolve id ∉ outcomes) : ∀ outstanding : Finset String,
    id ∈ outcomes.foldl settleAlerts outstanding ↔
      (∃ intent : NotificationIntent, intent.sessionId = id ∧ .fire intent ∈ outcomes) ∨
        (id ∈ outstanding ∧ .autoResolve id ∉ outcomes) := by
  induction outcomes with
  | nil => simp
  | cons outcome outcomes ih =>
    intro outstanding
    have later := ih (fun intent own fired resolved =>
      clear intent own (List.mem_cons_of_mem _ fired) (List.mem_cons_of_mem _ resolved))
    rw [List.foldl_cons, later, mem_settleAlerts]
    constructor
    · rintro (⟨intent, own, fired⟩ | ⟨⟨intent, own, rfl⟩ | ⟨stood, other⟩, kept⟩)
      · exact Or.inl ⟨intent, own, List.mem_cons_of_mem _ fired⟩
      · exact Or.inl ⟨intent, own, List.mem_cons_self⟩
      · refine Or.inr ⟨stood, fun resolved => ?_⟩
        rcases List.mem_cons.mp resolved with here | there
        · exact other here.symm
        · exact kept there
    · rintro (⟨intent, own, fired⟩ | ⟨stood, kept⟩)
      · rcases List.mem_cons.mp fired with here | there
        · exact Or.inr ⟨Or.inl ⟨intent, own, here.symm⟩, fun resolved =>
            clear intent own fired (List.mem_cons_of_mem _ resolved)⟩
        · exact Or.inl ⟨intent, own, there⟩
      · exact Or.inr ⟨Or.inr ⟨stood, fun here => kept (here ▸ List.mem_cons_self)⟩,
          fun there => kept (List.mem_cons_of_mem _ there)⟩

/-- One more view leaves exactly the alerts of the sessions that notify in it. -/
theorem mem_trackView {old new : InboxView} {outstanding : Finset String}
    (distinct' : old.Distinct) (distinct : new.Distinct)
    (before : ∀ id, id ∈ outstanding ↔ old.notifies id = true) (id : String) :
    id ∈ (trackView (old, outstanding) new).2 ↔ new.notifies id = true := by
  have warranted : ∀ {outcome : NotificationOutcome}, outcome ∈ viewTransition old new →
      Warranted old new outcome := viewTransition_warranted distinct' distinct
  have clear : ∀ intent : NotificationIntent, intent.sessionId = id →
      .fire intent ∈ viewTransition old new → .autoResolve id ∉ viewTransition old new := by
    rintro intent rfl fired resolved
    exact Bool.noConfusion ((warranted fired).1.symm.trans (warranted resolved).2)
  unfold trackView
  rw [mem_foldl_settleAlerts _ clear, before]
  constructor
  · rintro (⟨intent, rfl, fired⟩ | ⟨stood, kept⟩)
    · exact (warranted fired).1
    · by_contra ends
      rw [Bool.not_eq_true] at ends
      refine kept (viewTransition_resolves distinct ?_ (InboxView.ping_eq_none_iff.mpr ends))
      rw [ne_eq, InboxView.ping_eq_none_iff, stood]
      exact Bool.noConfusion
  · intro pings
    by_cases same : old.ping id = new.ping id
    · right
      have pings' : new.ping id ≠ none := by
        rw [ne_eq, InboxView.ping_eq_none_iff, pings]
        exact Bool.noConfusion
      refine ⟨?_, fun resolved => ?_⟩
      · by_contra calm
        rw [Bool.not_eq_true] at calm
        exact pings' (same ▸ InboxView.ping_eq_none_iff.mpr calm)
      · exact Bool.noConfusion (pings.symm.trans (warranted resolved).2)
    · left
      refine viewTransition_fires distinct ?_ same
      rw [ne_eq, InboxView.ping_eq_none_iff, pings]
      exact Bool.noConfusion

/-- An alert that is resolved stands at that point, whatever the outcomes before it did. -/
theorem resolved_stands {old new : InboxView} {outstanding : Finset String}
    (distinct' : old.Distinct) (distinct : new.Distinct)
    (before : ∀ id, id ∈ outstanding ↔ old.notifies id = true) {id : String}
    {first last : List NotificationOutcome}
    (parts : viewTransition old new = first ++ .autoResolve id :: last) :
    id ∈ first.foldl settleAlerts outstanding := by
  have resolved : .autoResolve id ∈ viewTransition old new := by
    rw [parts]
    exact List.mem_append_right _ List.mem_cons_self
  have once := viewTransition_nodup distinct' distinct
  rw [parts, List.map_append, List.nodup_append] at once
  have alone : ∀ outcome ∈ first, outcome.about ≠ some id := fun outcome mem =>
    once.2.2 _ (List.mem_map_of_mem mem) _ (List.mem_map_of_mem List.mem_cons_self)
  have kept : .autoResolve id ∉ first := fun mem => alone _ mem rfl
  rw [mem_foldl_settleAlerts first (fun _ _ _ => kept)]
  have stood := (viewTransition_warranted distinct' distinct resolved).1
  exact Or.inr ⟨(before id).mpr stood, kept⟩

/-! ## A run of views -/

/-- From no view and no alert on, through any views without double tabs, the alerts that stand after
each are those of the tabs that should notify in it, and no alert is resolved that does not
stand. -/
theorem alerts_in_step (views : List InboxView) (distinct : ∀ view ∈ views, view.Distinct) :
    let state := views.foldl trackView (⟨[]⟩, ∅)
    (∀ id, id ∈ state.2 ↔ ∃ tab ∈ state.1.tabs, tab.sessionId = id ∧
      shouldNotify tab state.1.tabs = true) ∧
    ∀ next : InboxView, next.Distinct → ∀ id first last,
      viewTransition state.1 next = first ++ .autoResolve id :: last →
        id ∈ first.foldl settleAlerts state.2 := by
  intro state
  have start : (InboxView.mk []).Distinct ∧
      ∀ id, id ∈ (∅ : Finset String) ↔ (InboxView.mk []).notifies id = true :=
    ⟨List.nodup_nil, fun id => iff_of_false (Finset.notMem_empty id) Bool.false_ne_true⟩
  have follows : state.1.Distinct ∧ ∀ id, id ∈ state.2 ↔ state.1.notifies id = true := by
    refine List.foldlRecOn views trackView (b := (⟨[]⟩, ∅))
      (motive := fun state => state.1.Distinct ∧ ∀ id, id ∈ state.2 ↔ state.1.notifies id = true)
      start ?_
    rintro ⟨old, outstanding⟩ ⟨distinct', before⟩ view mem
    exact ⟨distinct view mem, mem_trackView distinct' (distinct view mem) before⟩
  obtain ⟨unique, stands⟩ := follows
  refine ⟨fun id => ?_, fun next distinct' id first last parts =>
    resolved_stands unique distinct' stands parts⟩
  rw [stands, InboxView.notifies]
  constructor
  · intro pings
    cases found : state.1.tab id with
    | none =>
      rw [found] at pings
      cases pings
    | some tab =>
      rw [found] at pings
      exact ⟨tab, (InboxView.mem_of_tab found).1, (InboxView.mem_of_tab found).2, pings⟩
  · rintro ⟨tab, mem, rfl, pings⟩
    rw [InboxView.tab_of_mem unique mem]
    exact pings

/-- A session waits, goes and comes back soloed beside another that waits. -/
theorem alerts_in_step_returned :
    let a := Session.plain "a" [.plain "r" "n" .waiting]
    let b := Session.plain "b" [.plain "q" "m" .waiting]
    let views := [[a, b], [b], [b, { a with soloed := true }]].map
      (fun l => viewOf (l.map Session.recomputeRollups))
    ∀ id, id ∈ (views.foldl trackView (⟨[]⟩, ∅)).2 ↔ id = "a" := by
  intro a b views id
  have distinct : ∀ view ∈ views, (view.tabs.map (fun tab => tab.sessionId)).Nodup := by decide
  rw [(alerts_in_step views distinct).1 id]
  have only : ∀ tab ∈ (views.foldl trackView (⟨[]⟩, ∅)).1.tabs,
      shouldNotify tab (views.foldl trackView (⟨[]⟩, ∅)).1.tabs = true → tab.sessionId = "a" := by
    decide
  constructor
  · rintro ⟨tab, mem, rfl, pings⟩
    exact only tab mem pings
  · rintro rfl
    decide

end VsFleet
