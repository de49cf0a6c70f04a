import VsFleet.Host.Proofs.SoloPings

/-!
# Pings keep in step with the Hub

A message the Hub commits reaches a face as the events of one mutation. The pings these events push
are the ones the whole mutation calls for, except where the removal of a run or a solo passes
through a ping of its own.
-/

namespace VsFleet

open MergeEngine (Mutation)

/-- The mutation passes through a ping that is there neither before it nor after it. -/
def MergeEngine.Mutation.Glimpses (l : List Session) : Mutation → Prop
  | .removeRun sessionId runId => EmptiesPing l sessionId runId
  | .applySolo sessionId => SoloGap l sessionId
  | _ => False

namespace Refines

variable {e : MergeEngine} {F : Fleet}

theorem mutate_calm (h : Refines e F) (m : Mutation) (steady : ¬ m.Glimpses F.sessions) :
    Calm ((e.mutate m).2.foldl Event.fold F.sessions) F.sessions (e.mutate m).2 := by
  cases m with
  | upsertSession session => exact Calm.single _ _
  | removeSessionEvents id => exact h.removeSessionEvents_calm id
  | removeSession id =>
    simp only [MergeEngine.mutate, MergeEngine.removeSession]
    cases (e.removeSessionEvents id).2 with
    | nil => trivial
    | cons ev rest => exact Calm.single _ _
  | upsertRun id run => exact h.upsertRun_calm id run
  | removeRun id runId => exact h.removeRun_calm steady
  | applyMute id => exact h.applyMute_calm id
  | applyUnmute id => exact h.applyUnmute_calm id
  | applySolo id => exact h.applySolo_calm steady
  | applyFocus id =>
    simp only [MergeEngine.mutate]
    cases (e.applyFocus id).2 with
    | none => trivial
    | some ev => exact Calm.single _ _

/-- What a mutation pushes is what it calls for, exactly when it passes through no ping. -/
theorem mutate_warranted_iff (h : Refines e F) (m : Mutation) :
    (∀ outcome ∈ outcomesOf F.sessions (e.mutate m).2, Warranted (viewOf F.sessions)
      (viewOf ((e.mutate m).2.foldl Event.fold F.sessions)) outcome) ↔
    ¬ m.Glimpses F.sessions := by
  constructor
  · intro warranted glimpses
    cases m with
    | removeRun id runId => exact h.removeRun_unwarranted glimpses warranted
    | applySolo id => exact h.applySolo_unwarranted glimpses warranted
    | _ => exact glimpses
  · intro steady
    exact (h.mutate_calm m steady).warranted _ F.distinct (fun _ => Or.inl rfl)

end Refines

/-! ## The loop of the face -/

theorem Fleet.Announces.not_snapshot {F : Fleet} {g : Edit} {events : List Event}
    (h : F.Announces g events) : ∀ ev ∈ events, ev.isSnapshot = false := by
  obtain ⟨moved, rfl, -⟩ := h
  intro ev hev
  obtain ⟨s, -, rfl⟩ := List.mem_map.mp hev
  rfl

/-- No mutation returns a snapshot. -/
theorem Refines.mutate_not_snapshot {e : MergeEngine} {F : Fleet} (h : Refines e F) (m : Mutation) :
    ∀ ev ∈ (e.mutate m).2, ev.isSnapshot = false := by
  have removal : ∀ id, ∀ ev ∈ (e.removeSessionEvents id).2, ev.isSnapshot = false := by
    intro id
    have spec := (h.removeSessionEvents id).2
    split at spec
    · obtain ⟨rest, events, announces⟩ := spec
      rw [events]
      exact List.forall_mem_cons.mpr ⟨rfl, announces.not_snapshot⟩
    · rw [spec]
      exact List.forall_mem_nil _
  cases m with
  | upsertSession session =>
    intro ev hev
    rw [List.mem_singleton.mp hev, h.upsertSession_event]
    split <;> rfl
  | removeSessionEvents id => exact removal id
  | removeSession id =>
    intro ev hev
    exact removal id ev (List.mem_of_mem_head? (Option.mem_toList.mp hev))
  | upsertRun id run =>
    simp only [MergeEngine.mutate, h.upsertRun_events]
    cases F.get? id with
    | none => exact List.forall_mem_nil _
    | some s =>
      intro ev hev
      rcases List.mem_cons.mp hev with rfl | hev
      · split <;> rfl
      · rw [List.mem_singleton.mp hev]
        rfl
  | removeRun id runId =>
    simp only [MergeEngine.mutate, h.removeRun_events]
    cases F.get? id with
    | none => exact List.forall_mem_nil _
    | some s =>
      simp only
      split
      · exact List.forall_mem_nil _
      · intro ev hev
        rcases List.mem_cons.mp hev with rfl | hev
        · rfl
        · rw [List.mem_singleton.mp hev]
          rfl
  | applyMute id => exact (h.applyMute id).2.not_snapshot
  | applyUnmute id => exact (h.applyUnmute id).2.not_snapshot
  | applySolo id =>
    simp only [MergeEngine.mutate]
    by_cases present : (F.get? id).isSome
    · exact (h.applySolo id present).2.not_snapshot
    · rw [h.applySolo_absent (by simpa using present)]
      exact List.forall_mem_nil _
  | applyFocus id => exact (h.applyFocus id).2.not_snapshot

/-- Folding events that are no snapshots, a face pushes what the lists of sessions call for. -/
theorem HubLink.onEvents_eq (evs : List Event) : ∀ {link : HubLink} {l : List Session},
    link.model.Holds l → (∀ ev ∈ evs, ev.isSnapshot = false) →
    (link.onEvents evs).2 = outcomesOf l evs ∧
      (link.onEvents evs).1.model.Holds (evs.foldl Event.fold l) := by
  induction evs with
  | nil => exact fun holds _ => ⟨rfl, holds⟩
  | cons ev evs ih =>
    intro link l holds plain
    have holds' := holds.apply ev
    have derives : eventDerivesNotifications ev link.seenSnapshot = true := by
      rw [eventDerivesNotifications, plain ev (by simp)]
      rfl
    obtain ⟨outcomes, final⟩ := @ih (link.onEvent ev).1 _ holds'
      (fun ev' hev' => plain ev' (List.mem_cons_of_mem ev hev'))
    refine ⟨?_, final⟩
    have first : (link.onEvent ev).2 = viewTransition (viewOf l) (viewOf (ev.fold l)) := by
      simp only [HubLink.onEvent, derives, if_true, holds.view, holds'.view]
    rw [outcomesOf, ← first, ← outcomes]
    rfl

/-- The face holds what the engine holds. -/
structure InboxModel.Mirrors (face : InboxModel) (e : MergeEngine) : Prop where
  order : face.order = e.order
  sessions : ∀ id, face.sessions.lookup id = e.sessions.lookup id

theorem InboxModel.Mirrors.holds {face : InboxModel} {e : MergeEngine} {F : Fleet}
    (mirrors : face.Mirrors e) (h : Refines e F) : face.Holds F.sessions where
  indexed := by
    rw [mirrors.order]
    exact h.indexed.congr mirrors.sessions
  values := by
    rw [mirrors.order, OrderedMap.values_congr mirrors.sessions]
    exact h.snapshot

/-! ## The messages of the Hub -/

/-- What a commit publishes: nothing where it fails. -/
def published : Except PersistError (List Event) → List Event
  | .ok events => events
  | .error _ => []

namespace StateStore

/-- The mutation a message makes of the store, unless its append fails. -/
def committed (store : StateStore) (arrival : IterOrder Session × ClientMessage) :
    Option Mutation :=
  match (store.applyMessage arrival.1 arrival.2).1 with
  | .ok _ => store.mutationOf arrival.1 arrival.2
  | .error _ => none

theorem received_refines (arrivals : List (IterOrder Session × ClientMessage))
    (h : ∃ F, Refines store.engine F) : ∃ F, Refines (arrivals.foldl receive store).engine F :=
  List.foldlRecOn arrivals receive (motive := fun store => ∃ F, Refines store.engine F) h
    (fun store h arrival _ => (store.applyMessage_did arrival.1 arrival.2).wellFormed h)

/-- A message publishes the events of the mutation it commits, or nothing. -/
theorem published_eq (store : StateStore) (arrival : IterOrder Session × ClientMessage) :
    published (store.applyMessage arrival.1 arrival.2).1 =
      ((store.committed arrival).map (fun m => (store.engine.mutate m).2)).getD [] := by
  have did := store.applyMessage_did arrival.1 arrival.2
  unfold committed
  generalize store.mutationOf arrival.1 arrival.2 = m at did ⊢
  generalize store.applyMessage arrival.1 arrival.2 = outcome at did ⊢
  obtain ⟨result, after⟩ := outcome
  dsimp only at did ⊢
  generalize after.engine = engine at did
  cases did with
  | idle => rfl
  | applied m => rfl
  | failed m error e' same logged => rfl

/-- One committed message, against a face that mirrors the store. -/
theorem commit_warranted_iff {store : StateStore} {F : Fleet} (h : Refines store.engine F)
    (arrival : IterOrder Session × ClientMessage) {link : HubLink}
    (mirrors : link.model.Mirrors store.engine) :
    (∀ outcome ∈ (link.onEvents (published (store.applyMessage arrival.1 arrival.2).1)).2,
      Warranted link.model.view
        (link.onEvents (published (store.applyMessage arrival.1 arrival.2).1)).1.model.view
        outcome) ↔ ∀ m ∈ store.committed arrival, ¬ m.Glimpses store.snapshot := by
  have holds := mirrors.holds h
  rw [store.published_eq arrival]
  cases store.committed arrival with
  | none =>
    rw [Option.map_none, Option.getD_none, HubLink.onEvents]
    constructor
    · intro _ m hm
      cases hm
    · exact fun _ => List.forall_mem_nil _
  | some m =>
    obtain ⟨outcomes, final⟩ := HubLink.onEvents_eq (store.engine.mutate m).2 holds
      (h.mutate_not_snapshot m)
    rw [Option.map_some, Option.getD_some, outcomes, final.view, holds.view,
      h.mutate_warranted_iff m, StateStore.snapshot, h.snapshot]
    simp

end StateStore

/-- Against any Hub reached by messages, a face that mirrors it and folds the events of one more
message pushes only pings and resolutions that the change from the first view to the last calls for,
exactly when the message commits no mutation that passes through a ping of its own. -/
theorem mutation_pings_warranted (log : EventLog)
    (arrivals : List (IterOrder Session × ClientMessage))
    (arrival : IterOrder Session × ClientMessage) (link : HubLink) :
    let store := arrivals.foldl StateStore.receive (.fromLog log)
    let pushed := link.onEvents (published (store.applyMessage arrival.1 arrival.2).1)
    link.model.Mirrors store.engine →
    ((∀ outcome ∈ pushed.2, Warranted link.model.view pushed.1.model.view outcome) ↔
      ∀ m ∈ store.committed arrival, ¬ m.Glimpses store.snapshot) := by
  intro store pushed mirrors
  obtain ⟨F, h⟩ : ∃ F, Refines store.engine F :=
    StateStore.received_refines arrivals log.restored_refines
  exact StateStore.commit_warranted_iff h arrival mirrors

/-- A host that mirrors an engine. -/
def HubLink.mirror (e : MergeEngine) : HubLink := ⟨⟨e.sessions, e.order⟩, true⟩

/-- A waiting run. -/
def AgentRun.asking (runId : String) : AgentRun :=
  { AgentRun.plain runId runId .waiting with urgency := some .approval }

/-- A session with two waiting runs loses one of them. -/
theorem mutation_pings_warranted_runRemove :
    let arrivals := [(IterOrder.asStored Session,
      ClientMessage.sessionUpsert (.plain "a" [.asking "r", .asking "q"]))]
    let arrival := (IterOrder.asStored Session, ClientMessage.runRemove "a" "r")
    let store := arrivals.foldl StateStore.receive (.fromLog (.holding [] []))
    let link := HubLink.mirror store.engine
    let pushed := link.onEvents (published (store.applyMessage arrival.1 arrival.2).1)
    (∀ outcome ∈ pushed.2, Warranted link.model.view pushed.1.model.view outcome) ↔
      ∀ m ∈ store.committed arrival, ¬ m.Glimpses store.snapshot := by
  intro arrivals arrival store link pushed
  exact mutation_pings_warranted (.holding [] []) arrivals arrival link ⟨rfl, fun _ => rfl⟩

/-- The last run of a waiting session is removed: the face, which keeps the state of a session
without runs, fires once more before it resolves. -/
theorem runRemove_pings_idle_session :
    ¬ ∀ (log : EventLog) (arrivals : List (IterOrder Session × ClientMessage))
        (arrival : IterOrder Session × ClientMessage) (link : HubLink),
      let store := arrivals.foldl StateStore.receive (.fromLog log)
      let pushed := link.onEvents (published (store.applyMessage arrival.1 arrival.2).1)
      link.model.Mirrors store.engine →
      ∀ outcome ∈ pushed.2, Warranted link.model.view pushed.1.model.view outcome := by
  intro warranted
  have fired := warranted (.holding [] [])
    [(.asStored Session, .sessionUpsert (.plain "a" [.asking "r"]))]
    (.asStored Session, .runRemove "a" "r")
    (.mirror (StateStore.receive (.fromLog (.holding [] []))
      (.asStored Session, .sessionUpsert (.plain "a" [.asking "r"]))).engine)
    ⟨rfl, fun _ => rfl⟩
    (.fire ⟨"a", "Waiting — a", "Agent is waiting for your response.", none⟩) (by decide)
  exact absurd fired.1 (by decide)

end VsFleet
