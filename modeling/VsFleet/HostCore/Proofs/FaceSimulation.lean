import VsFleet.HostCore.Proofs.FaceFold

/-!
# A face follows the engine

The inbox model of a face is one reader of the event stream, so the events of a mutation make the
list it holds the list of the engine after the mutation.
-/

namespace VsFleet

open MergeEngine (Mutation)

namespace Refines

variable {e : MergeEngine} {F : Fleet}

theorem run_events_fold {id : String} {s : Session} (found : F.get? id = some s)
    {f : List AgentRun → List AgentRun} {g : Session → Session} {runEvent : Event}
    (first : runEvent.fold F.sessions = KeyedList.modify (fun s => s.sessionId) F.sessions id g)
    (hg : ∀ s, (g s).sessionId = s.sessionId) :
    [runEvent, Event.ofSessionUpdated (F.settled F (.setRuns f) s)].foldl Event.fold F.sessions =
      (F.revise id f).sessions := by
  rw [List.foldl_cons, first]
  exact settled_upsert found hg

theorem mutate_fold (h : Refines e F) (m : Mutation) (returns : m.ReturnsAll) :
    (e.mutate m).2.foldl Event.fold F.sessions = (F.mutate m).sessions :=
  h.mutate_reads m returns (readsAll_fold _ _)

theorem mutateAll_fold (ms : List Mutation) {e : MergeEngine} {F : Fleet} (h : Refines e F)
    (returns : ∀ m ∈ ms, m.ReturnsAll) :
    (MergeEngine.mutateAll ms e).2.foldl Event.fold F.sessions =
      (ms.foldl Fleet.mutate F).sessions :=
  mutateAll_reads ms h returns (readsAll_fold _ _)

end Refines

/-- The snapshot of an engine, read by any face, is the list of the fleet. -/
theorem InboxModel.holds_snapshot {F : Fleet} (face : InboxModel) :
    (face.apply (.ofSnapshot F.sessions)).Holds F.sessions := by
  have put := Holds.putSessions F.sessions Holds.new
  rw [KeyedList.foldl_upsert F.sessions [] F.distinct] at put
  exact put

/-- A face that reads the snapshot of the engine after `before` and then the events of `after`
holds what the engine holds after `after`, whatever it held before. -/
theorem face_follows_engine (before after : List Mutation) (returns : ∀ m ∈ after, m.ReturnsAll)
    (face : InboxModel) :
    let e := (MergeEngine.mutateAll before .new).1
    let e' := (MergeEngine.mutateAll after e).1
    let shown := (face.apply (.ofSnapshot e.snapshot)).applyAll (MergeEngine.mutateAll after e).2
    shown.order = e'.order ∧ ∀ id, shown.sessions.lookup id = e'.sessions.lookup id := by
  intro e e' shown
  have engine : Refines e _ := Refines.mutateAll before Refines.new
  have engine' : Refines e' _ := Refines.mutateAll after engine
  have holds :
      shown.Holds (after.foldl Fleet.mutate (before.foldl Fleet.mutate .empty)).sessions := by
    rw [← Refines.mutateAll_fold after engine returns]
    apply InboxModel.Holds.applyAll
    rw [engine.snapshot]
    exact face.holds_snapshot
  constructor
  · rw [holds.order, engine'.order]
  · intro id
    rw [holds.lookup, engine'.lookup]
    rfl

/-- Two waiting sessions of which the first is soloed, and the first removed. -/
theorem face_follows_engine_soloed_removal :
    let a := Session.plain "a" [.plain "r" "n" .waiting]
    let b := Session.plain "b" [.plain "q" "m" .waiting]
    let before := [Mutation.upsertSession a, .upsertSession b, .applySolo "a"]
    let e := (MergeEngine.mutateAll before .new).1
    let after := [Mutation.removeSessionEvents "a"]
    let e' := (MergeEngine.mutateAll after e).1
    let shown := (InboxModel.new.apply (.ofSnapshot e.snapshot)).applyAll
      (MergeEngine.mutateAll after e).2
    shown.order = e'.order ∧ ∀ id, shown.sessions.lookup id = e'.sessions.lookup id :=
  face_follows_engine _ [.removeSessionEvents "a"] (by simp [MergeEngine.Mutation.ReturnsAll]) _

/-- `remove_session` of the soloed one of two waiting sessions makes the other unread and returns
the removal only, so the face goes on showing it read. -/
theorem removeSession_hides_rearmed_sibling :
    ¬ ∀ (before after : List Mutation) (face : InboxModel),
      let e := (MergeEngine.mutateAll before .new).1
      let e' := (MergeEngine.mutateAll after e).1
      let shown := (face.apply (.ofSnapshot e.snapshot)).applyAll (MergeEngine.mutateAll after e).2
      shown.order = e'.order ∧ ∀ id, shown.sessions.lookup id = e'.sessions.lookup id := by
  intro follows
  have lookups := (follows
    [.upsertSession (Session.plain "a" [.plain "r" "n" .waiting]),
      .upsertSession (Session.plain "b" [.plain "q" "m" .waiting]), .applySolo "a"]
    [.removeSession "a"] .new).2 "b"
  have unread := congrArg (Option.map (fun s => s.unread)) lookups
  revert unread
  decide

end VsFleet
