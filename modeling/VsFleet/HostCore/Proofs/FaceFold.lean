import VsFleet.HostCore.View
import VsFleet.Hub.Proofs.Readers

/-!
# The face as one list of sessions

The inbox model, like the engine, is a hash map beside a vector; what it holds is one list, and
each event acts on that list alone. Over the list, a run of updates for edited sessions of a
fleet passes through the lists with a prefix of the sessions edited, and ends with all of them.
-/

namespace VsFleet

/-- What an event does to the list of sessions a face holds. -/
def Event.fold (l : List Session) : Event → List Session
  | .snapshot _ sessions => sessions.foldl (KeyedList.upsert (fun s => s.sessionId)) []
  | .sessionAdded _ session | .sessionUpdated _ session =>
    KeyedList.upsert (fun s => s.sessionId) l session
  | .sessionRemoved _ sessionId => KeyedList.erase (fun s => s.sessionId) l sessionId
  | .runAdded _ sessionId run | .runUpdated _ sessionId run =>
    KeyedList.modify (fun s => s.sessionId) l sessionId (fun sess =>
      recomputeRollupsOf (upsertRunOf sess run))
  | .runRemoved _ sessionId runId =>
    KeyedList.modify (fun s => s.sessionId) l sessionId (fun sess =>
      recomputeRollupsOf { sess with runs := sess.runs.filter (fun r => r.runId ≠ runId) })

/-- The face holds the list. -/
structure InboxModel.Holds (m : InboxModel) (l : List Session) : Prop where
  indexed : OrderedMap.Indexed (fun s : Session => s.sessionId) m.sessions m.order
  values : OrderedMap.values m.sessions m.order = l

@[simp] theorem recomputeRollupsOf_sessionId (sess : Session) :
    (recomputeRollupsOf sess).sessionId = sess.sessionId := rfl

@[simp] theorem upsertRunOf_sessionId (sess : Session) (run : AgentRun) :
    (upsertRunOf sess run).sessionId = sess.sessionId := by
  unfold upsertRunOf
  split <;> rfl

/-- The upsert of a run by a face is the one of the engine. -/
theorem upsertRunOf_eq (sess : Session) (run : AgentRun) :
    upsertRunOf sess run = { sess with runs := (MergeEngine.upsertRunIn sess.runs run).1 } := by
  have go : ∀ runs : List AgentRun,
      (runs.findIdx? (fun r => r.runId = run.runId)).elim (runs ++ [run])
        (fun pos => runs.set pos run) = (MergeEngine.upsertRunIn runs run).1 := by
    intro runs
    induction runs with
    | nil => rfl
    | cons r runs ih =>
      rw [List.findIdx?_cons]
      by_cases own : r.runId = run.runId
      · simp [MergeEngine.upsertRunIn, own]
      · simp only [own, decide_false, Bool.false_eq_true, if_false, MergeEngine.upsertRunIn]
        rw [← ih]
        cases runs.findIdx? (fun r => r.runId = run.runId) <;> rfl
  rw [← go]
  unfold upsertRunOf
  cases sess.runs.findIdx? (fun r => r.runId = run.runId) <;> rfl

namespace InboxModel.Holds

variable {m : InboxModel} {l : List Session}

theorem distinct (h : m.Holds l) : (l.map (fun s => s.sessionId)).Nodup := by
  rw [← h.values]
  exact h.indexed.values_nodup

theorem new : InboxModel.new.Holds [] := ⟨OrderedMap.Indexed.empty, rfl⟩

theorem lookup (h : m.Holds l) (id : String) :
    m.sessions.lookup id = KeyedList.get? (fun s => s.sessionId) l id := by
  rw [← h.values]
  exact (h.indexed.get?_values id).symm

theorem order (h : m.Holds l) : m.order = l.map (fun s => s.sessionId) := by
  rw [← h.values, h.indexed.values_map_key]

theorem putSession (h : m.Holds l) (session : Session) :
    (m.putSession session).Holds (KeyedList.upsert (fun s => s.sessionId) l session) := by
  rw [← h.values]
  by_cases hmem : session.sessionId ∈ m.sessions
  · rw [InboxModel.putSession, if_pos hmem]
    exact ⟨h.indexed.insert_mem (v := session) hmem, h.indexed.values_insert_mem hmem⟩
  · rw [InboxModel.putSession, if_neg hmem]
    exact ⟨h.indexed.insert_new (v := session) hmem, h.indexed.values_insert_new hmem⟩

theorem modify (h : m.Holds l) (id : String) {f : Session → Session}
    (hf : ∀ s, (f s).sessionId = s.sessionId) :
    InboxModel.Holds { m with sessions := HashMap.modify m.sessions id f }
      (KeyedList.modify (fun s => s.sessionId) l id f) := by
  have lookups : ∀ k, (HashMap.modify m.sessions id f).lookup k =
      (m.sessions.lookup k).map (fun s => if k = id then f s else s) := by
    intro k
    rw [HashMap.lookup_modify]
    split <;> simp
  have revised := h.indexed.revise (g := fun k s => if k = id then f s else s)
    (by intro k v; split <;> simp [hf]) lookups
  refine ⟨revised.1, revised.2.trans ?_⟩
  rw [h.values]
  rfl

theorem putSessions (sessions : List Session) : ∀ {m : InboxModel} {l : List Session}, m.Holds l →
    (sessions.foldl InboxModel.putSession m).Holds
      (sessions.foldl (KeyedList.upsert (fun s => s.sessionId)) l) := by
  induction sessions with
  | nil => exact fun h => h
  | cons s sessions ih => exact fun h => ih (h.putSession s)

/-- The face refines the list: every event does to the model what it does to the list. -/
theorem apply (h : m.Holds l) (event : Event) : (m.apply event).Holds (event.fold l) := by
  cases event with
  | snapshot version sessions => exact putSessions sessions new
  | sessionAdded version session => exact h.putSession session
  | sessionUpdated version session => exact h.putSession session
  | sessionRemoved version sessionId =>
    simp only [InboxModel.apply, Event.fold]
    split
    · refine ⟨h.indexed.erase sessionId, ?_⟩
      rw [← h.values]
      exact h.indexed.values_erase sessionId
    · rename_i absent
      have same : KeyedList.erase (fun s => s.sessionId) l sessionId = l := by
        rw [KeyedList.erase, List.filter_eq_self]
        intro s hs
        rw [h.indexed.mem_iff, h.values] at absent
        have other : s.sessionId ≠ sessionId := by
          rintro rfl
          exact absent (List.mem_map_of_mem hs)
        simpa using other
      rw [same]
      exact h
  | runAdded version sessionId run => exact h.modify sessionId (by simp)
  | runUpdated version sessionId run => exact h.modify sessionId (by simp)
  | runRemoved version sessionId runId => exact h.modify sessionId (by simp)

theorem applyAll (events : List Event) : ∀ {m : InboxModel} {l : List Session}, m.Holds l →
    (m.applyAll events).Holds (events.foldl Event.fold l) := by
  induction events with
  | nil => exact fun h => h
  | cons event events ih => exact fun h => ih (h.apply event)

end InboxModel.Holds

/-- What the list does at an event is what any reader may do. -/
theorem Event.reads_fold (l : List Session) (event : Event) : event.Reads l (event.fold l) := by
  cases event with
  | snapshot version sessions => rfl
  | sessionAdded version session => rfl
  | sessionUpdated version session => rfl
  | sessionRemoved version sessionId => rfl
  | runAdded version sessionId run => exact ⟨_, by simp, rfl⟩
  | runUpdated version sessionId run => exact ⟨_, by simp, rfl⟩
  | runRemoved version sessionId runId => exact ⟨_, by simp, rfl⟩

theorem readsAll_fold (events : List Event) (l : List Session) :
    ReadsAll events l (events.foldl Event.fold l) := by
  induction events generalizing l with
  | nil => rfl
  | cons event events ih => exact ⟨event.fold l, Event.reads_fold l event, ih _⟩

/-- Updates for some of the edited sessions, read one by one: after `n` sessions of the list the
face holds the first `n` edited and the others not yet. -/
theorem fold_updates {g : Session → Session} (hg : ∀ s, (g s).sessionId = s.sessionId)
    {moved : Session → Bool} (rest todo before : List Session)
    (distinct : ((before ++ (todo ++ rest)).map (fun s => s.sessionId)).Nodup)
    (still : ∀ s ∈ todo, moved s = false → g s = s) :
    ((todo.filter moved).map (fun s => Event.ofSessionUpdated (g s))).foldl Event.fold
      (before ++ (todo ++ rest)) = before ++ (todo.map g ++ rest) := by
  rw [← KeyedList.foldl_upsert_edited hg rest todo before distinct still, List.foldl_map,
    List.foldl_map]
  rfl

theorem Fleet.Announces.fold {F : Fleet} {g : Edit} {events : List Event}
    (h : F.Announces g events) : events.foldl Event.fold F.sessions = (F.edit g).sessions :=
  h.reads (readsAll_fold events F.sessions)

end VsFleet
