import VsFleet.Hub.Proofs.MergeRefines

/-!
# What every reader of the event stream ends up with

The Hub has several readers of its events, each with its own upsert of a run and its own rollups.
What they share is little: a whole session is put in its place or at the end, a removed one is
dropped, and an event about a run changes the session that owns it and no other, in whatever way.
This is enough for a reader to hold the sessions of the engine after each of its mutations, since
the engine sends the whole session after every run event. It fails for `remove_session` alone,
which keeps the removal and discards the updates of the other sessions.
-/

namespace VsFleet

open MergeEngine (Mutation)

/-- The mutation returns every event of the change it made. -/
def MergeEngine.Mutation.ReturnsAll : Mutation → Prop
  | .removeSession _ => False
  | _ => True

/-- The sessions of one id may change in any way that keeps their id. -/
def TouchesOnly (id : String) (l l' : List Session) : Prop :=
  ∃ g : Session → Session, (∀ s, (g s).sessionId = s.sessionId) ∧
    l' = KeyedList.modify (fun s => s.sessionId) l id g

/-- A reader that shows `l` may show `l'` after the event. -/
def Event.Reads (l l' : List Session) : Event → Prop
  | .snapshot _ sessions => l' = sessions.foldl (KeyedList.upsert (fun s => s.sessionId)) []
  | .sessionAdded _ session | .sessionUpdated _ session =>
    l' = KeyedList.upsert (fun s => s.sessionId) l session
  | .sessionRemoved _ sessionId => l' = KeyedList.erase (fun s => s.sessionId) l sessionId
  | .runAdded _ sessionId _ | .runUpdated _ sessionId _ | .runRemoved _ sessionId _ =>
    TouchesOnly sessionId l l'

/-- A reader that shows `l` may show `l'` after the events, in order. -/
def ReadsAll : List Event → List Session → List Session → Prop
  | [], l, l' => l' = l
  | event :: events, l, l' => ∃ mid, event.Reads l mid ∧ ReadsAll events mid l'

theorem ReadsAll.append {evs evs' : List Event} {l l' : List Session}
    (h : ReadsAll (evs ++ evs') l l') : ∃ mid, ReadsAll evs l mid ∧ ReadsAll evs' mid l' := by
  induction evs generalizing l with
  | nil => exact ⟨l, rfl, h⟩
  | cons ev evs ih =>
    obtain ⟨next, one, rest⟩ := h
    obtain ⟨mid, first, last⟩ := ih rest
    exact ⟨mid, ⟨next, one, first⟩, last⟩

/-- Updates alone leave a reader no choice. -/
theorem ReadsAll.updates {sessions l l' : List Session}
    (h : ReadsAll (sessions.map Event.ofSessionUpdated) l l') :
    l' = sessions.foldl (KeyedList.upsert (fun s => s.sessionId)) l := by
  induction sessions generalizing l with
  | nil => exact h
  | cons s sessions ih =>
    obtain ⟨mid, rfl, rest⟩ := h
    exact ih rest

theorem Fleet.Announces.reads {F : Fleet} {g : Edit} {events : List Event}
    (h : F.Announces g events) {l : List Session} (reads : ReadsAll events F.sessions l) :
    l = (F.edit g).sessions := by
  obtain ⟨moved, rfl, still⟩ := h
  have edited := KeyedList.foldl_upsert_edited g.sessionId [] F.sessions []
    (by simpa using F.distinct) still
  rw [← Function.comp_def, ← List.map_map] at reads
  rw [reads.updates, Fleet.edit_sessions]
  simpa using edited

namespace Refines

variable {e : MergeEngine} {F : Fleet}

/-- The whole session a run operation sends last undoes any change to the session before it. -/
theorem settled_upsert {id : String} {s : Session} (found : F.get? id = some s)
    {f : List AgentRun → List AgentRun} {g : Session → Session}
    (hg : ∀ s, (g s).sessionId = s.sessionId) :
    KeyedList.upsert (fun s => s.sessionId)
      (KeyedList.modify (fun s => s.sessionId) F.sessions id g) (F.settled F (.setRuns f) s) =
      (F.revise id f).sessions := by
  obtain ⟨hs, rfl⟩ := Fleet.get?_eq_some_iff.mp found
  rw [KeyedList.upsert_of_mem, Edit.sessionId_act, KeyedList.modify_modify hg]
  · apply KeyedList.modify_congr
    intro w hw own
    have same : some w = some s := by rw [← Fleet.get?_of_mem hw, own, found]
    rw [Option.some.inj same]
  · rw [KeyedList.modify_map_key hg, Edit.sessionId_act]
    exact List.mem_map_of_mem hs

/-- So what a reader makes of the run event does not matter. -/
theorem run_events_reads {id : String} {s : Session} (found : F.get? id = some s)
    {f : List AgentRun → List AgentRun} {runEvent : Event}
    (about : ∀ l l', runEvent.Reads l l' → TouchesOnly id l l') {l : List Session}
    (reads : ReadsAll [runEvent, Event.ofSessionUpdated (F.settled F (.setRuns f) s)]
      F.sessions l) :
    l = (F.revise id f).sessions := by
  obtain ⟨mid, first, last, second, rfl⟩ := reads
  obtain ⟨g, hg, rfl⟩ := about _ _ first
  rw [Event.ofSessionUpdated, Event.Reads, settled_upsert found hg] at second
  exact second

/-- A reader that shows the sessions of the engine shows them again after a mutation. -/
theorem mutate_reads (h : Refines e F) (m : Mutation) (returns : m.ReturnsAll) {l : List Session}
    (reads : ReadsAll (e.mutate m).2 F.sessions l) : l = (F.mutate m).sessions := by
  cases m with
  | upsertSession session =>
    simp only [MergeEngine.mutate, h.upsertSession_event] at reads
    obtain ⟨mid, one, rfl⟩ := reads
    split at one <;> exact one
  | removeSessionEvents id =>
    have spec := (h.removeSessionEvents id).2
    simp only [MergeEngine.mutate] at reads
    simp only [Fleet.mutate]
    split at spec
    · obtain ⟨rest, events, announces⟩ := spec
      rw [events] at reads
      obtain ⟨mid, rfl, later⟩ := reads
      exact announces.reads later
    · rename_i absent
      rw [spec] at reads
      rw [remove_absent (by simpa using absent)]
      exact reads
  | removeSession id => exact returns.elim
  | upsertRun id run =>
    simp only [MergeEngine.mutate, h.upsertRun_events] at reads
    simp only [Fleet.mutate]
    cases found : F.get? id with
    | none =>
      rw [found] at reads
      rw [revise_eq_self (by simp [found])]
      exact reads
    | some s =>
      rw [found] at reads
      refine run_events_reads found ?_ reads
      intro l l' first
      split at first <;> exact first
  | removeRun id runId =>
    simp only [MergeEngine.mutate, h.removeRun_events] at reads
    simp only [Fleet.mutate]
    cases found : F.get? id with
    | none =>
      rw [found] at reads
      rw [revise_eq_self (by simp [found])]
      exact reads
    | some s =>
      simp only [found] at reads
      split at reads
      · rename_i same
        rw [revise_of_length found same]
        exact reads
      · refine run_events_reads found ?_ reads
        exact fun _ _ first => first
  | applyMute id => exact (h.applyMute id).2.reads reads
  | applyUnmute id => exact (h.applyUnmute id).2.reads reads
  | applySolo id =>
    simp only [MergeEngine.mutate] at reads
    simp only [Fleet.mutate, Fleet.solo]
    split
    · rename_i present
      exact (h.applySolo id present).2.reads reads
    · rename_i absent
      rw [h.applySolo_absent (by simpa using absent)] at reads
      exact reads
  | applyFocus id => exact (h.applyFocus id).2.reads reads

/-- And after any run of mutations. -/
theorem mutateAll_reads (ms : List Mutation) : ∀ {e : MergeEngine} {F : Fleet}, Refines e F →
    (∀ m ∈ ms, m.ReturnsAll) → ∀ {l : List Session},
    ReadsAll (MergeEngine.mutateAll ms e).2 F.sessions l →
    l = (ms.foldl Fleet.mutate F).sessions := by
  induction ms with
  | nil => exact fun _ _ _ reads => reads
  | cons m ms ih =>
    intro e F h returns l reads
    obtain ⟨mid, one, rest⟩ := reads.append
    obtain rfl := h.mutate_reads m (returns m (by simp)) one
    exact ih (h.mutate m) (fun m' hm' => returns m' (by simp [hm'])) rest

end Refines

end VsFleet
