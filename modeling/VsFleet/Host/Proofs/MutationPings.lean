import VsFleet.Host.HubClient
import VsFleet.HostCore.Proofs.FaceSimulation
import VsFleet.HostCore.Proofs.Pings
import VsFleet.Hub.Proofs.Unread

/-!
# What a mutation of the Hub pings for

A mutation reaches a face as several events, so the face passes through views that are no state of
the Hub. Two mutations can ping in between: the removal of the last run of a waiting session, whose
rollup the face does not reset, and a solo that moves down the list, for a while with no session
soloed.
-/

namespace VsFleet

open MergeEngine (Mutation)

/-! ## Updates read one by one -/

/-- Updates for edited sessions are calm if each edit of the next session is. -/
theorem Calm.updates {g : Session → Session} (hg : ∀ s, (g s).sessionId = s.sessionId)
    {moved : Session → Bool} {final : List Session} (todo : List Session) :
    ∀ before : List Session, ((before ++ todo).map (fun s => s.sessionId)).Nodup →
    (∀ s ∈ todo, moved s = false → g s = s) →
    (∀ pre s post, todo = pre ++ s :: post → ∀ id,
      pingIn (before ++ pre.map g ++ g s :: post) id =
        pingIn (before ++ pre.map g ++ s :: post) id ∨
      pingIn (before ++ pre.map g ++ g s :: post) id = pingIn final id) →
    Calm final (before ++ todo)
      ((todo.filter moved).map (fun s => Event.ofSessionUpdated (g s))) := by
  induction todo with
  | nil => exact fun _ _ _ _ => trivial
  | cons s todo ih =>
    intro before distinct still steps
    have distinct' : (((before ++ [g s]) ++ todo).map (fun s => s.sessionId)).Nodup := by
      simpa [hg] using distinct
    have rest := ih (before ++ [g s]) distinct' (fun w hw => still w (List.mem_cons_of_mem s hw))
      (fun pre w post split => by
        have step := steps (s :: pre) w post (by rw [split]; rfl)
        simpa using step)
    rw [List.append_assoc, List.singleton_append] at rest
    cases hs : moved s with
    | false =>
      rw [List.filter_cons_of_neg (by simp [hs])]
      rw [still s (by simp) hs] at rest
      exact rest
    | true =>
      rw [List.filter_cons_of_pos hs, List.map_cons]
      have put : (Event.ofSessionUpdated (g s)).fold (before ++ s :: todo) =
          before ++ g s :: todo := KeyedList.upsert_middle (hg s) distinct
      have first := steps [] s todo rfl
      refine ⟨fun id => ?_, ?_⟩
      · rw [put]
        simpa using first id
      · rw [put]
        exact rest

section

variable {F : Fleet} {g : Edit} {events : List Event}

theorem Fleet.Announces.calm {final : List Session} (h : F.Announces g events)
    (steps : ∀ pre s post, F.sessions = pre ++ s :: post → ∀ id,
      pingIn (pre.map g ++ g s :: post) id = pingIn (pre.map g ++ s :: post) id ∨
      pingIn (pre.map g ++ g s :: post) id = pingIn final id) :
    Calm final F.sessions events := by
  obtain ⟨moved, rfl, still⟩ := h
  exact Calm.updates g.sessionId F.sessions [] F.distinct still steps

/-- Updates that pings do not look at. -/
theorem Fleet.Announces.calm_of_quiet {final : List Session} (h : F.Announces g events)
    (quiet : ∀ s ∈ F.sessions, (g s).pingKey = s.pingKey) : Calm final F.sessions events := by
  refine h.calm (fun pre s post split id => Or.inl (pingIn_congr ?_ id))
  rw [List.map_append, List.map_append, List.map_cons, List.map_cons,
    quiet s (by rw [split]; simp)]

/-- Updates of which pings look at one only. -/
theorem Fleet.Announces.calm_of_one (h : F.Announces g events) (target : String)
    (quiet : ∀ s ∈ F.sessions, s.sessionId ≠ target → (g s).pingKey = s.pingKey) :
    Calm (F.edit g).sessions F.sessions events := by
  refine h.calm (fun pre s post split id => ?_)
  by_cases own : s.sessionId = target
  · right
    apply pingIn_congr
    rw [Fleet.edit_sessions, split, List.map_append, List.map_append, List.map_append,
      List.map_cons, List.map_cons, List.map_cons, List.map_map (l := post)]
    congr 2
    apply List.map_congr_left
    intro w hw
    refine (quiet w (by rw [split]; simp [hw]) (fun same => ?_)).symm
    have distinct := F.distinct
    rw [split, List.map_append, List.map_cons, List.nodup_append, List.nodup_cons] at distinct
    exact distinct.2.1.1 (List.mem_map.mpr ⟨w, hw, same.trans own.symm⟩)
  · left
    apply pingIn_congr
    rw [List.map_append, List.map_append, List.map_cons, List.map_cons,
      quiet s (by rw [split]; simp) own]

end

@[simp] theorem Session.settle_pingKey (s : Session) (old new : Bool) :
    (s.settle old new).pingKey = s.pingKey := rfl

theorem Calm.single (l : List Session) (ev : Event) : Calm (ev.fold l) l [ev] :=
  ⟨fun _ => Or.inr rfl, trivial⟩

theorem Calm.pair {l : List Session} {first second : Event}
    (h : ∀ id, pingIn (first.fold l) id = pingIn l id ∨
      pingIn (first.fold l) id = pingIn (second.fold (first.fold l)) id) :
    Calm (second.fold (first.fold l)) l [first, second] :=
  ⟨h, fun _ => Or.inr rfl, trivial⟩

/-! ## The operations that are calm in every state -/

namespace Refines

variable {e : MergeEngine} {F : Fleet}

theorem removeSessionEvents_calm (h : Refines e F) (id : String) :
    Calm ((e.removeSessionEvents id).2.foldl Event.fold F.sessions) F.sessions
      (e.removeSessionEvents id).2 := by
  have spec := (h.removeSessionEvents id).2
  split at spec
  · obtain ⟨rest, events, announces⟩ := spec
    have quiet : ∀ s ∈ (F.drop id).sessions,
        ((F.settled (F.drop id) .keep) s).pingKey = s.pingKey := fun _ _ => rfl
    have final : ((F.drop id).edit (F.settled (F.drop id) .keep)).sessions.map Session.pingKey =
        (F.drop id).sessions.map Session.pingKey := by
      rw [Fleet.edit_sessions, List.map_map]
      exact List.map_congr_left quiet
    rw [events, List.foldl_cons]
    refine ⟨fun k => Or.inr (pingIn_congr ?_ k), announces.calm_of_quiet quiet⟩
    exact (final.symm.trans (congrArg (List.map Session.pingKey) announces.fold.symm))
  · rw [spec]
    trivial

theorem applyMute_calm (h : Refines e F) (id : String) :
    Calm ((e.applyMute id).2.foldl Event.fold F.sessions) F.sessions (e.applyMute id).2 := by
  rw [(h.applyMute id).2.fold]
  refine (h.applyMute id).2.calm_of_one id (fun s _ other => ?_)
  simp [Fleet.settled, Edit.only, other]

theorem applyUnmute_calm (h : Refines e F) (id : String) :
    Calm ((e.applyUnmute id).2.foldl Event.fold F.sessions) F.sessions (e.applyUnmute id).2 := by
  rw [(h.applyUnmute id).2.fold]
  refine (h.applyUnmute id).2.calm_of_one id (fun s _ other => ?_)
  simp [Fleet.settled, Edit.only, other]

section

variable {id : String} {s : Session} {f : List AgentRun → List AgentRun}

theorem revise_sessions (F : Fleet) (id : String) (f : List AgentRun → List AgentRun) :
    (F.revise id f).sessions = KeyedList.modify (fun s => s.sessionId) F.sessions id
      (F.settled F (.setRuns f)) := rfl

/-- A run operation is calm where its first event is: the second brings everything to its end. -/
theorem runEvents_calm (found : F.get? id = some s) {g : Session → Session} {runEvent : Event}
    (first : runEvent.fold F.sessions = KeyedList.modify (fun s => s.sessionId) F.sessions id g)
    (hg : ∀ s, (g s).sessionId = s.sessionId)
    (same : (g s).pingKey = (Edit.setRuns f s).pingKey) :
    Calm ([runEvent, Event.ofSessionUpdated (F.settled F (.setRuns f) s)].foldl Event.fold
      F.sessions) F.sessions
      [runEvent, Event.ofSessionUpdated (F.settled F (.setRuns f) s)] := by
  rw [List.foldl_cons, List.foldl_cons, List.foldl_nil]
  apply Calm.pair
  intro k
  right
  apply pingIn_congr
  have final : Event.fold (runEvent.fold F.sessions)
      (.ofSessionUpdated (F.settled F (.setRuns f) s)) = (F.revise id f).sessions :=
    run_events_fold found first hg
  rw [final, first, revise_sessions, KeyedList.modify, KeyedList.modify, List.map_map, List.map_map]
  apply List.map_congr_left
  intro w hw
  by_cases own : w.sessionId = id
  · obtain rfl : w = s := by
      rw [← own, Fleet.get?_of_mem hw] at found
      exact Option.some.inj found
    rw [Function.comp_apply, Function.comp_apply, if_pos own, if_pos own, same]
    rfl
  · rw [Function.comp_apply, Function.comp_apply, if_neg own, if_neg own]

theorem upsertRunIn_ne_nil (runs : List AgentRun) (run : AgentRun) :
    (MergeEngine.upsertRunIn runs run).1 ≠ [] := by
  cases runs with
  | nil => exact List.cons_ne_nil _ _
  | cons r runs =>
    unfold MergeEngine.upsertRunIn
    split <;> exact List.cons_ne_nil _ _

/-- With a run left, the rollups of a face are those of the engine. -/
theorem recomputeRollupsOf_pingKey {sess : Session} (left : sess.runs ≠ []) :
    (recomputeRollupsOf sess).pingKey = sess.recomputeRollups.pingKey := by
  have some : (rollupState sess.runs).isSome := by
    rw [Option.isSome_iff_ne_none]
    exact fun none => left ((rollupState_eq_none_iff _).mp none)
  obtain ⟨state, found⟩ := Option.isSome_iff_exists.mp some
  simp only [recomputeRollupsOf, Session.recomputeRollups, Session.pingKey, found,
    Option.getD_some]

theorem upsertRun_calm (h : Refines e F) (id : String) (run : AgentRun) :
    Calm ((e.upsertRun id run).2.foldl Event.fold F.sessions) F.sessions
      (e.upsertRun id run).2 := by
  rw [h.upsertRun_events]
  cases found : F.get? id with
  | none => trivial
  | some s =>
    refine runEvents_calm found (g := fun sess => recomputeRollupsOf (upsertRunOf sess run)) ?_
      (by simp) ?_
    · split <;> rfl
    · rw [upsertRunOf_eq]
      exact recomputeRollupsOf_pingKey (upsertRunIn_ne_nil s.runs run)

end

end Refines

/-! ## The removal of a run -/

/-- The removal takes the last run of a session that notifies with an urgency. -/
def EmptiesPing (l : List Session) (id runId : String) : Prop :=
  ∃ s ∈ l, s.sessionId = id ∧ shouldNotify (sessionToTab s) (viewOf l).tabs = true ∧
    s.rollupUrgency ≠ none ∧ ∀ r ∈ s.runs, r.runId = runId

section

variable {e : MergeEngine} {F : Fleet} {id runId : String} {s : Session}

theorem pingIn_of_get? (found : F.get? id = some s) : pingIn F.sessions id =
    if shouldNotify (sessionToTab s) (viewOf F.sessions).tabs then some s.rollupUrgency
    else none := by
  have held : KeyedList.get? (fun s => s.sessionId) F.sessions id = some s := found
  rw [pingIn_eq, held, shouldNotify_sessionToTab, Option.bind_some]

theorem filter_eq_nil (all : ∀ r ∈ s.runs, r.runId = runId) :
    s.runs.filter (fun r => r.runId ≠ runId) = [] := by
  rw [List.filter_eq_nil_iff]
  intro r hr
  simpa using all r hr

/-- A face that loses the last run of a session goes on showing its state, but no urgency. -/
theorem pingIn_emptied (found : F.get? id = some s) (all : ∀ r ∈ s.runs, r.runId = runId)
    (k : String) : pingIn ((Event.ofRunRemoved id runId).fold F.sessions) k =
      if k = id then
        if shouldNotify (sessionToTab s) (viewOf F.sessions).tabs then some none else none
      else pingIn F.sessions k := by
  have empty := filter_eq_nil all
  rw [pingIn_eq, shouldNotify_sessionToTab, Event.ofRunRemoved, Event.fold]
  have held : KeyedList.get? (fun s => s.sessionId) F.sessions id = some s := found
  have solos : (KeyedList.modify (fun s => s.sessionId) F.sessions id (fun sess =>
      recomputeRollupsOf { sess with runs := sess.runs.filter (fun r => r.runId ≠ runId) })).any
        (fun s => s.soloed) = F.sessions.any (fun s => s.soloed) := by
    rw [KeyedList.modify, List.any_map]
    congr 1
    funext w
    rw [Function.comp_apply]
    split <;> rfl
  rw [solos, KeyedList.get?_modify (by simp)]
  by_cases own : k = id
  · subst own
    rw [if_pos rfl, held, Option.map_some, Option.bind_some,
      if_pos (Fleet.get?_eq_some_iff.mp found).2, empty]
    rfl
  · rw [if_neg own, pingIn_eq]
    cases other : KeyedList.get? (fun s => s.sessionId) F.sessions k with
    | none => rfl
    | some w =>
      have named : w.sessionId = k := (Fleet.get?_eq_some_iff.mp other).2
      rw [Option.map_some, if_neg (named ▸ own)]

theorem Refines.removeRun_calm (h : Refines e F) (quiet : ¬ EmptiesPing F.sessions id runId) :
    Calm ((e.removeRun id runId).2.foldl Event.fold F.sessions) F.sessions
      (e.removeRun id runId).2 := by
  rw [h.removeRun_events]
  cases found : F.get? id with
  | none => trivial
  | some s =>
    simp only
    split
    · trivial
    · by_cases all : ∀ r ∈ s.runs, r.runId = runId
      · rw [List.foldl_cons, List.foldl_cons, List.foldl_nil]
        apply Calm.pair
        intro k
        left
        rw [pingIn_emptied found all]
        split
        · rename_i own
          subst own
          obtain ⟨mem, own⟩ := Fleet.get?_eq_some_iff.mp found
          rw [pingIn_of_get? found]
          split
          · rename_i notifies
            by_contra other
            exact quiet ⟨s, mem, own, notifies, fun silent => other (by rw [silent]), all⟩
          · rfl
        · rfl
      · refine Refines.runEvents_calm found (g := fun sess => recomputeRollupsOf
          { sess with runs := sess.runs.filter (fun r => r.runId ≠ runId) }) rfl (by simp)
          (Refines.recomputeRollupsOf_pingKey ?_)
        intro empty
        apply all
        intro r hr
        simpa using List.filter_eq_nil_iff.mp empty r hr

theorem shouldNotify_of_empty (rolled : s.RolledUp) (empty : s.runs = []) (tabs : List SessionTab) :
    shouldNotify (sessionToTab s) tabs = false := by
  have idle : s.rollupState = .idle := by rw [rolled.state, empty]; rfl
  simp [shouldNotify, sessionToTab, idle, TabState.isAttention, TabState.fromState]

/-- The removal fires for the session it leaves idle. -/
theorem Refines.removeRun_unwarranted (h : Refines e F)
    (empties : EmptiesPing F.sessions id runId) :
    ¬ ∀ outcome ∈ outcomesOf F.sessions (e.removeRun id runId).2, Warranted (viewOf F.sessions)
      (viewOf ((e.removeRun id runId).2.foldl Event.fold F.sessions)) outcome := by
  obtain ⟨s, mem, own, notifies, urgent, all⟩ := empties
  have found : F.get? id = some s := Fleet.get?_eq_some_iff.mpr ⟨mem, own⟩
  have empty := filter_eq_nil all
  have held : s.runs ≠ [] := by
    intro empty
    rw [shouldNotify_of_empty (Fleet.rolledUp_of_get? found) empty] at notifies
    cases notifies
  have shrinks : (s.runs.filter (fun r => r.runId ≠ runId)).length ≠ s.runs.length := by
    rw [empty]
    exact fun same => held (List.length_eq_zero_iff.mp same.symm)
  have final : ((e.removeRun id runId).2.foldl Event.fold F.sessions) =
      (F.revise id (fun runs => runs.filter (fun r => r.runId ≠ runId))).sessions :=
    h.mutate_fold (.removeRun id runId) trivial
  have after := Fleet.get?_revise found (fun runs => runs.filter (fun r => r.runId ≠ runId))
  have ends : pingIn ((e.removeRun id runId).2.foldl Event.fold F.sessions) id = none := by
    rw [final, pingIn_of_get? after,
      shouldNotify_of_empty (Fleet.rolledUp_of_get? after) empty]
    rfl
  rw [h.removeRun_events, found] at ends ⊢
  simp only [if_neg shrinks] at ends ⊢
  have now := pingIn_emptied found all id
  rw [if_pos rfl, notifies, if_pos rfl] at now
  refine unwarranted_of_step [] _ _ F.distinct id ?_ ?_ ends
  · rw [List.foldl_nil, now]
    exact Option.some_ne_none _
  · rw [List.foldl_nil, now, pingIn_of_get? found, notifies, if_pos rfl]
    exact fun same => urgent (Option.some.inj same)

end

end VsFleet
