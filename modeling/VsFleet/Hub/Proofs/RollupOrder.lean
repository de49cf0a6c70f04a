import VsFleet.Hub.Proofs.StoreSteps
import VsFleet.Misc.Arrivals

/-!
# The rollups and the order of the engine

In every state the engine gets into, restored snapshots and replayed logs included, its vector lists
the sessions in the order they came, and every session carries the rollups of its own runs.
-/

namespace VsFleet

/-! ## Rollups -/

/-- One of the elements, and none of them ranks higher. -/
structure Greatest {α : Type} (rank : α → Nat) (l : List α) (a : α) : Prop where
  mem : a ∈ l
  le : ∀ b ∈ l, rank b ≤ rank a

section Greatest

variable {α : Type} {rank : α → Nat} {l : List α} {a : α}

/-- One step of the search keeps the best so far. -/
theorem Greatest.step (h : Greatest rank l a) (b : α) :
    Greatest rank (l ++ [b]) (if rank a ≤ rank b then b else a) := by
  split
  · rename_i better
    refine ⟨by simp, fun c hc => ?_⟩
    rcases List.mem_append.mp hc with old | new
    · exact Nat.le_trans (h.le c old) better
    · rw [List.mem_singleton.mp new]
  · rename_i worse
    refine ⟨List.mem_append_left _ h.mem, fun c hc => ?_⟩
    rcases List.mem_append.mp hc with old | new
    · exact h.le c old
    · rw [List.mem_singleton.mp new]
      exact Nat.le_of_not_le worse

theorem Greatest.foldl (h : Greatest rank l a) (more : List α) : Greatest rank (l ++ more)
    (more.foldl (fun best b => if rank best ≤ rank b then b else best) a) := by
  induction more generalizing l a with
  | nil => simpa using h
  | cons b more ih => simpa using ih (h.step b)

theorem maxByKey_greatest (found : maxByKey rank l = some a) : Greatest rank l a := by
  cases l with
  | nil => cases found
  | cons b rest =>
    cases found
    have alone : Greatest rank [b] b := ⟨by simp, by simp⟩
    exact alone.foldl rest

/-- Where no two elements share a rank the greatest is what the search finds. -/
theorem maxByKey_eq_some_iff (injective : Function.Injective rank) :
    maxByKey rank l = some a ↔ Greatest rank l a := by
  constructor
  · exact maxByKey_greatest
  · intro h
    cases found : maxByKey rank l with
    | none =>
      rw [(maxByKey_eq_none_iff rank l).mp found] at h
      exact absurd h.mem List.not_mem_nil
    | some b =>
      have other := maxByKey_greatest found
      rw [injective (Nat.le_antisymm (h.le b other.mem) (other.le a h.mem))]

theorem Greatest.perm {l' : List α} (h : Greatest rank l a) (same : l.Perm l') :
    Greatest rank l' a :=
  ⟨same.mem_iff.mp h.mem, fun b hb => h.le b (same.mem_iff.mpr hb)⟩

/-- The order of the elements does not matter then. -/
theorem maxByKey_perm (injective : Function.Injective rank) {l' : List α} (same : l.Perm l') :
    maxByKey rank l = maxByKey rank l' := by
  apply Option.ext
  intro a
  rw [maxByKey_eq_some_iff injective, maxByKey_eq_some_iff injective]
  exact ⟨fun h => h.perm same, fun h => h.perm same.symm⟩

end Greatest

theorem stateRank_injective : Function.Injective stateRank := by
  intro a b same
  cases a <;> cases b <;> first | rfl | cases same

theorem urgencyRank_injective : Function.Injective urgencyRank := by
  intro a b same
  cases a <;> cases b <;> first | rfl | cases same

/-- The rollups of a session are the maxima over its runs, in any order of the runs. -/
structure Session.RollsUp (s : Session) : Prop where
  idle : s.runs = [] → s.rollupState = .idle
  state : s.runs ≠ [] → Greatest stateRank (s.runs.map (fun r => r.state)) s.rollupState
  calm : s.rollupUrgency = none ↔ ∀ r ∈ s.runs, r.urgency.getD .none = .none
  urgency : ∀ u, s.rollupUrgency = some u →
    u ≠ .none ∧ Greatest urgencyRank (s.runs.map (fun r => r.urgency.getD .none)) u
  reorder : ∀ runs, runs.Perm s.runs →
    { s with runs := runs }.recomputeRollups = { s with runs := runs }

/-- The normalized urgency is the greatest one that is not the named absence. -/
theorem normalizeRollupUrgency_eq_some_iff {runs : List AgentRun} {u : Urgency} :
    normalizeRollupUrgency runs = some u ↔
      u ≠ .none ∧ Greatest urgencyRank (runs.map (fun r => r.urgency.getD .none)) u := by
  rw [← maxByKey_eq_some_iff urgencyRank_injective, ← rollupUrgency]
  unfold normalizeRollupUrgency
  cases found : rollupUrgency runs with
  | none => simp
  | some v => cases v <;> cases u <;> simp

theorem normalizeRollupUrgency_eq_none_iff {runs : List AgentRun} :
    normalizeRollupUrgency runs = none ↔ ∀ r ∈ runs, r.urgency.getD .none = .none := by
  constructor
  · intro absent r hr
    cases found : rollupUrgency runs with
    | none =>
      rw [rollupUrgency, maxByKey_eq_none_iff, List.map_eq_nil_iff] at found
      rw [found] at hr
      exact absurd hr List.not_mem_nil
    | some v =>
      have greatest := maxByKey_greatest found
      have lowest : v = .none := by
        rw [normalizeRollupUrgency, found] at absent
        cases v <;> first | rfl | cases absent
      have least := greatest.le _ (List.mem_map_of_mem hr)
      rw [lowest] at least
      exact urgencyRank_injective (Nat.le_antisymm least (Nat.zero_le _))
  · intro calm
    cases found : normalizeRollupUrgency runs with
    | none => rfl
    | some u =>
      obtain ⟨named, greatest⟩ := normalizeRollupUrgency_eq_some_iff.mp found
      obtain ⟨r, hr, rfl⟩ := List.mem_map.mp greatest.mem
      exact absurd (calm r hr) named

theorem Session.RolledUp.rollsUp {s : Session} (h : s.RolledUp) : s.RollsUp where
  idle empty := by
    rw [h.state, empty]
    rfl
  state runs := by
    obtain ⟨state, found⟩ : ∃ state, VsFleet.rollupState s.runs = some state := by
      rw [← Option.isSome_iff_exists, Option.isSome_iff_ne_none, ne_eq, rollupState_eq_none_iff]
      exact runs
    rw [h.state, found]
    exact maxByKey_greatest found
  calm := by rw [h.urgency, normalizeRollupUrgency_eq_none_iff]
  urgency u := by
    rw [h.urgency]
    exact normalizeRollupUrgency_eq_some_iff.mp
  reorder runs same := by
    have state : VsFleet.rollupState runs = VsFleet.rollupState s.runs :=
      maxByKey_perm stateRank_injective (same.map _)
    have urgency : normalizeRollupUrgency runs = normalizeRollupUrgency s.runs := by
      unfold normalizeRollupUrgency VsFleet.rollupUrgency
      rw [maxByKey_perm urgencyRank_injective (same.map _)]
    unfold Session.recomputeRollups
    simp only [state, urgency, ← h.state, ← h.urgency]

/-! ## The order -/

namespace MergeEngine

/-- What a mutation does to the ids that are there: a session comes whole or goes. -/
def Mutation.passages : Mutation → List (Passage String)
  | .upsertSession session => [.enters session.sessionId]
  | .removeSessionEvents sessionId => [.leaves sessionId]
  | .removeSession sessionId => [.leaves sessionId]
  | .upsertRun .. => []
  | .removeRun .. => []
  | .applyMute _ => []
  | .applyUnmute _ => []
  | .applySolo _ => []
  | .applyFocus _ => []

/-- What a replay does to them, row by row. -/
def replayPassages (log : EventLog) : List (Passage String) :=
  log.rows.flatMap (fun row => ((log.parse row).map (fun ev => ev.mutation.passages)).getD [])

/-- What a restore does to them: all go, and those of the snapshot come in its order. -/
def restorePassages (sessions : List Session) : List (Passage String) :=
  .clears :: (sessions.map (fun s => s.sessionId)).map .enters

/-- The states of an engine with what their ids have been through: it is mutated, a log is replayed
into it, and it is restored from the snapshot of an engine, which is a passage of all ids or takes
back what came since. -/
inductive Reachable : MergeEngine → List (Passage String) → Prop where
  | new : Reachable .new []
  | mutate {e : MergeEngine} {history : List (Passage String)} (m : Mutation)
      (h : Reachable e history) : Reachable (e.mutate m).1 (history ++ m.passages)
  | replay {e : MergeEngine} {history : List (Passage String)} (log : EventLog)
      (h : Reachable e history) : Reachable (log.replayInto e).1 (history ++ replayPassages log)
  | restore {e taken : MergeEngine} {history before : List (Passage String)}
      (h : Reachable e history) (h' : Reachable taken before) :
      Reachable (.restore taken.snapshot) (history ++ restorePassages taken.snapshot)
  | rollback {taken : MergeEngine} {before : List (Passage String)} (h' : Reachable taken before) :
      Reachable (.restore taken.snapshot) before

end MergeEngine

namespace Fleet

variable (F : Fleet)

/-- The ids of the fleet in their order. -/
def ids : List String := F.sessions.map (fun s => s.sessionId)

theorem ids_edit (g : Edit) : (F.edit g).ids = F.ids := by
  simp [ids, List.map_map, Function.comp_def]

theorem ids_drop (id : String) : (F.drop id).ids = Passage.attend F.ids (.leaves id) := by
  simp [ids, KeyedList.erase, Passage.attend, List.filter_map, Function.comp_def]

theorem ids_put (s : Session) (h : s.RolledUp) :
    (F.put s h).ids = Passage.attend F.ids (.enters s.sessionId) := KeyedList.upsert_map_key

/-- A mutation changes the ids as its passages say. -/
theorem ids_mutate (m : MergeEngine.Mutation) :
    (F.mutate m).ids = m.passages.foldl Passage.attend F.ids := by
  cases m with
  | upsertSession session => exact F.ids_put _ (F.landed_rolledUp session)
  | removeSessionEvents id => exact (ids_edit ..).trans (F.ids_drop id)
  | removeSession id => exact (ids_edit ..).trans (F.ids_drop id)
  | upsertRun id run => exact F.ids_edit ..
  | removeRun id runId => exact F.ids_edit ..
  | applyMute id => exact F.ids_edit ..
  | applyUnmute id => exact F.ids_edit ..
  | applySolo id =>
    simp only [mutate, solo]
    split
    · exact F.ids_edit ..
    · rfl
  | applyFocus id => exact F.ids_edit ..

end Fleet

namespace MergeEngine

/-- The engine is a fleet whose ids stand in the order of their arrival. -/
def Ordered (e : MergeEngine) (history : List (Passage String)) : Prop :=
  ∃ F, Refines e F ∧ Passage.InArrivalOrder history F.ids

namespace Ordered

variable {e : MergeEngine} {history : List (Passage String)}

theorem mutate (h : Ordered e history) (m : Mutation) :
    Ordered (e.mutate m).1 (history ++ m.passages) := by
  obtain ⟨F, refines, order⟩ := h
  refine ⟨F.mutate m, refines.mutate m, ?_⟩
  rw [F.ids_mutate]
  exact order.foldl_attend m.passages

theorem replay (h : Ordered e history) (log : EventLog) :
    Ordered (log.replayInto e).1 (history ++ replayPassages log) := by
  unfold EventLog.replayInto replayPassages
  induction log.rows using List.reverseRecOn with
  | nil => simpa using h
  | append_singleton rows row ih =>
    rw [List.foldl_append, List.flatMap_append, ← List.append_assoc, List.foldl_cons,
      List.foldl_nil, List.flatMap_cons, List.flatMap_nil, List.append_nil]
    simp only
    cases log.parse row with
    | none => simpa using ih
    | some ev =>
      have next := ih.mutate ev.mutation
      rw [← applyToEngine_eq] at next
      simpa using next

theorem restore {taken : MergeEngine} {before : List (Passage String)} (h : Ordered e history)
    (h' : Ordered taken before) :
    Ordered (.restore taken.snapshot) (history ++ restorePassages taken.snapshot) := by
  obtain ⟨F, refines, order⟩ := h
  obtain ⟨G, snapshot, -⟩ := h'
  refine ⟨G, snapshot.snapshot ▸ Refines.restore G, ?_⟩
  have stand := order.foldl_attend (restorePassages taken.snapshot)
  rw [restorePassages, List.foldl_cons, Passage.attend, Passage.foldl_attend_enters _ [] (by
    rw [List.nil_append, snapshot.snapshot]
    exact G.distinct), List.nil_append, snapshot.snapshot] at stand
  rw [restorePassages, snapshot.snapshot]
  exact stand

theorem rollback {taken : MergeEngine} {before : List (Passage String)}
    (h' : Ordered taken before) : Ordered (.restore taken.snapshot) before := by
  obtain ⟨G, snapshot, order⟩ := h'
  exact ⟨G, snapshot.snapshot ▸ Refines.restore G, order⟩

end Ordered

theorem Reachable.ordered {e : MergeEngine} {history : List (Passage String)}
    (h : Reachable e history) : Ordered e history := by
  induction h with
  | new => exact ⟨.empty, Refines.new, Passage.InArrivalOrder.nil⟩
  | mutate m _ ih => exact ih.mutate m
  | replay log _ ih => exact ih.replay log
  | restore _ _ ih ih' => exact ih.restore ih'
  | rollback _ ih' => exact ih'.rollback

/-- In every state of an engine the vector lists the ids of the map, each once, in the order of
their first insertion since their last removal, and the rollups of every session are those of its
runs. -/
theorem rollups_in_order {e : MergeEngine} {history : List (Passage String)}
    (h : Reachable e history) :
    (∀ id, id ∈ e.order ↔ id ∈ e.sessions) ∧ Passage.InArrivalOrder history e.order ∧
      ∀ id s, e.session id = some s → s.sessionId = id ∧ s.RollsUp := by
  obtain ⟨F, refines, order⟩ := h.ordered
  refine ⟨refines.indexed.mem, ?_, fun id s found => ?_⟩
  · rw [refines.order]
    exact order
  · rw [refines.session] at found
    exact ⟨(Fleet.get?_eq_some_iff.mp found).2, (F.rolledUp_of_get? found).rollsUp⟩

/-- A session that has left and come back stands last, after a rollback as before it. -/
theorem rollups_in_order_returned :
    Passage.InArrivalOrder [.enters "a", .enters "b", .leaves "a", .enters "a"] ["b", "a"] := by
  have returned : Reachable _ [.enters "a", .enters "b", .leaves "a", .enters "a"] :=
    ((((Reachable.new.mutate (.upsertSession (.plain "a" []))).mutate
      (.upsertSession (.plain "b" [.plain "r" "n" .waiting]))).mutate
        (.removeSessionEvents "a")).mutate (.upsertSession (.plain "a" []))).rollback
  exact (rollups_in_order returned).2.1

end MergeEngine

end VsFleet
