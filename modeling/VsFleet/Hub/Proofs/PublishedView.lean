import VsFleet.Hub.Proofs.GcPass
import VsFleet.Misc.Runs

/-!
# The published view is in step with the store

While the store lock is free, the published snapshot is the one of the store, and so is what a
subscriber gets by folding the events sent to it into the snapshot it was given; over the commit
that holds the lock both are one fleet behind, by exactly the events it is about to send. A
garbage-collection pass that fails after a removal is the one commit that breaks this.
-/

namespace VsFleet

/-- The mutation of a message returns every event of its change. -/
theorem StateStore.mutationOf_returnsAll (store : StateStore) (iter : IterOrder Session)
    (msg : ClientMessage) {m : MergeEngine.Mutation} (h : store.mutationOf iter msg = some m) :
    m.ReturnsAll := by
  cases m with
  | removeSession id =>
    -- No message resolves to the helper that discards events.
    cases msg with
    | command command =>
      cases command with
      | focus version target =>
        obtain ⟨sid, -, eq⟩ := Option.map_eq_some_iff.mp h
        cases eq
      | dismiss version target =>
        cases target with
        | session sessionId => cases h
        | run runId =>
          obtain ⟨sid, -, eq⟩ := Option.map_eq_some_iff.mp h
          cases eq
      | _ => cases h
    | runUpsert sessionId run stamp =>
      cases stamp with
      | none => cases h
      | some s =>
        simp only [mutationOf, stampedMutation] at h
        split at h <;> cases h
    | _ => cases h
  | _ => trivial

/-- What a message commits tells all of what it did, or fails and did nothing. -/
theorem message_whole {store : StateStore} {F : Fleet} (h : Refines store.engine F)
    (iter : IterOrder Session) (msg : ClientMessage) :
    (∃ error store', store.applyMessage iter msg = (.error error, store') ∧
      Refines store'.engine F) ∨
    ∃ events store' F', store.applyMessage iter msg = (.ok events, store') ∧
      Told store' events F F' := by
  have did := store.applyMessage_did iter msg
  have returns := fun m => store.mutationOf_returnsAll iter msg (m := m)
  generalize store.mutationOf iter msg = m at did returns
  generalize store.applyMessage iter msg = outcome at did
  obtain ⟨result, after⟩ := outcome
  generalize hafter : after.engine = engine at did
  cases did with
  | idle => exact Or.inr ⟨[], after, F, rfl, by rw [hafter]; exact h, rfl⟩
  | applied m =>
    exact Or.inr ⟨_, after, F.mutate m, rfl, by rw [hafter]; exact h.mutate m,
      h.mutate_fold m (returns m rfl)⟩
  | failed m error e' same logged =>
    exact Or.inl ⟨error, after, rfl, by rw [hafter]; exact same F h⟩

/-- The list a face holds after the snapshot and the events of the subscriber. -/
def Subscriber.shown (sub : Subscriber) : List Session :=
  let face := (InboxModel.new.apply (.ofSnapshot sub.given)).applyAll sub.received
  OrderedMap.values face.sessions face.order

/-- The published snapshot and every subscriber are at the fleet. -/
structure HubState.At (hub : HubState) (F : Fleet) : Prop where
  published : hub.published = F.sessions
  subscribers : ∀ sub ∈ hub.subscribers, ∃ G : Fleet, sub.given = G.sessions ∧
    sub.received.foldl Event.fold G.sessions = F.sessions

/-- The invariant: with the lock free the view is at the fleet of the store, and over a pending
commit at the fleet its events lead from. -/
def HubState.Consistent (hub : HubState) : Prop :=
  ∃ F, Refines hub.store.engine F ∧
    match hub.pending with
    | none => hub.At F
    | some (events, snapshot) => snapshot = F.sessions ∧
      ∃ F₀, hub.At F₀ ∧ events.foldl Event.fold F₀.sessions = F.sessions

/-- Every garbage-collection pass the step commits is whole. -/
def HubState.CommitWhole (parseEpochSecs : String → Option Int) (hub : HubState) : HubStep → Prop
  | .commit (.gc now grace sessionTtl) =>
    hub.pending = none → hub.store.PassWhole parseEpochSecs now grace sessionTtl
  | _ => True

namespace HubState

theorem At.shown {hub : HubState} {F : Fleet} (h : hub.At F) {sub : Subscriber}
    (hsub : sub ∈ hub.subscribers) : sub.shown = F.sessions := by
  obtain ⟨G, given, received⟩ := h.subscribers sub hsub
  have holds := InboxModel.Holds.applyAll sub.received (InboxModel.new.holds_snapshot (F := G))
  rw [received, ← given] at holds
  exact holds.values

/-- Publishing the events of a commit takes the view from the fleet before it to the one after. -/
theorem At.publish {hub : HubState} {F₀ F : Fleet} (h : hub.At F₀) {events : List Event}
    (fold : events.foldl Event.fold F₀.sessions = F.sessions) :
    HubState.At { hub with
      pending := none
      published := F.sessions
      subscribers := hub.subscribers.map (fun s => { s with received := s.received ++ events }) }
      F := by
  refine ⟨rfl, ?_⟩
  intro sub hsub
  obtain ⟨old, hold, rfl⟩ := List.mem_map.mp hsub
  obtain ⟨G, given, received⟩ := h.subscribers old hold
  refine ⟨G, given, ?_⟩
  rw [List.foldl_append, received, fold]

theorem At.subscribe {hub : HubState} {F : Fleet} (h : hub.At F) :
    HubState.At { hub with subscribers := hub.subscribers ++ [⟨hub.published, []⟩] } F := by
  refine ⟨h.published, ?_⟩
  intro sub hsub
  rcases List.mem_append.mp hsub with old | new
  · exact h.subscribers sub old
  · obtain rfl := List.mem_singleton.mp new
    exact ⟨F, h.published, rfl⟩

theorem Consistent.step {parseEpochSecs : String → Option Int} {hub : HubState}
    (h : hub.Consistent) (step : HubStep) (whole : hub.CommitWhole parseEpochSecs step) :
    (hub.step parseEpochSecs step).Consistent := by
  obtain ⟨F, live, view⟩ := h
  cases hp : hub.pending with
  | some pending =>
    obtain ⟨events, snapshot⟩ := pending
    rw [hp] at view
    obtain ⟨taken, F₀, at₀, fold⟩ := view
    cases step with
    | commit closure =>
      refine ⟨F, ?_, ?_⟩
      · simpa only [HubState.step, hp] using live
      · simp only [HubState.step, hp]
        exact ⟨taken, F₀, at₀, fold⟩
    | publish =>
      simp only [HubState.step, hp, taken]
      exact ⟨F, live, at₀.publish fold⟩
    | subscribe =>
      refine ⟨F, live, ?_⟩
      simp only [HubState.step, hp]
      exact ⟨taken, F₀, ⟨at₀.subscribe.published, at₀.subscribe.subscribers⟩, fold⟩
  | none =>
    rw [hp] at view
    cases step with
    | commit closure =>
      have outcome :
          (∃ error store', closure.run parseEpochSecs hub.store = (.error error, store') ∧
            Refines store'.engine F) ∨ ∃ events store' F',
          closure.run parseEpochSecs hub.store = (.ok events, store') ∧
            Told store' events F F' := by
        cases closure with
        | message iter msg => exact message_whole live iter msg
        | gc now grace sessionTtl => exact gc_whole live (whole hp)
      rcases outcome with ⟨error, store', eq, live'⟩ | ⟨events, store', F', eq, told⟩
      · simp only [HubState.step, hp, eq]
        exact ⟨F, live', view.published, view.subscribers⟩
      · simp only [HubState.step, hp, eq]
        exact ⟨F', told.live, told.live.snapshot, F, ⟨view.published, view.subscribers⟩, told.fold⟩
    | publish =>
      simp only [HubState.step, hp]
      exact ⟨F, live, by simp only [hp]; exact view⟩
    | subscribe =>
      refine ⟨F, live, ?_⟩
      simp only [HubState.step, hp]
      exact ⟨view.subscribe.published, view.subscribe.subscribers⟩

theorem Consistent.fromLog (log : EventLog) : (fromStore (.fromLog log)).Consistent := by
  obtain ⟨F, live⟩ := log.restored_refines
  exact ⟨F, live, live.snapshot, by simp [fromStore]⟩

end HubState

/-- In every interleaving of commits, publications and subscriptions, over a Hub opened on any log
and with appends failing anywhere but inside a garbage-collection pass after its first append,
the published view is the one of the store whenever the store lock is free. -/
theorem published_view_in_step (parseEpochSecs : String → Option Int) (log : EventLog)
    (steps : List HubStep)
    (whole : Along (HubState.step parseEpochSecs) (HubState.CommitWhole parseEpochSecs)
      (.fromStore (.fromLog log)) steps) :
    let hub := steps.foldl (HubState.step parseEpochSecs) (.fromStore (.fromLog log))
    hub.pending = none → hub.published = hub.store.snapshot ∧
      ∀ sub ∈ hub.subscribers, sub.shown = hub.store.snapshot := by
  intro hub free
  have consistent : hub.Consistent :=
    Along.invariant (fun _ step h => h.step step) steps _ (.fromLog log) whole
  obtain ⟨F, live, view⟩ := consistent
  rw [free] at view
  rw [StateStore.snapshot, live.snapshot]
  exact ⟨view.published, fun sub hsub => view.shown hsub⟩

/-- The date reader on the stamps of a sweep an hour after midnight. -/
def hourStamps : String → Option Int
  | "2026-06-08T00:00:00Z" => some 1780876800
  | "2026-06-08T01:00:00Z" => some 1780880400
  | "2026-06-08T02:00:00Z" => some 1780884000
  | _ => none

/-- Two sessions that a pass two hours later sweeps with a time to live of one hour. -/
def sweepBoth : List HubStep :=
  [.commit (.message (.asStored _) (.sessionUpsert (.plain "a" []))), .publish,
    .commit (.message (.asStored _) (.sessionUpsert (.plain "b" []))), .publish, .subscribe,
    .commit (.gc "2026-06-08T02:00:00Z" 3600 3600)]

/-- The first append of the pass fails. -/
theorem published_view_in_step_failed_pass :
    let hub := sweepBoth.foldl (HubState.step hourStamps)
      (.fromStore (.fromLog (.holding [] [false, false, true])))
    hub.pending = none → hub.published = hub.store.snapshot ∧
      ∀ sub ∈ hub.subscribers, sub.shown = hub.store.snapshot :=
  published_view_in_step hourStamps (.holding [] [false, false, true]) sweepBoth
    ⟨trivial, trivial, trivial, trivial, trivial, fun _ => Or.inl rfl, trivial⟩

/-- The second append of the pass fails: the store has dropped the first session, which is still
published. -/
theorem gc_failing_midway_hides_removal :
    ¬ ∀ (parseEpochSecs : String → Option Int) (log : EventLog) (steps : List HubStep),
      let hub := steps.foldl (HubState.step parseEpochSecs) (.fromStore (.fromLog log))
      hub.pending = none → hub.published = hub.store.snapshot ∧
        ∀ sub ∈ hub.subscribers, sub.shown = hub.store.snapshot := by
  intro inStep
  have published := (inStep hourStamps (.holding [] [false, false, false, true]) sweepBoth rfl).1
  have ids := congrArg (List.map (fun s => s.sessionId)) published
  revert ids
  decide

end VsFleet
