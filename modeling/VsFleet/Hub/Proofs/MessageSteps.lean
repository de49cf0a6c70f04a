import VsFleet.Hub.Proofs.StoreSteps
import VsFleet.Hub.Server

/-!
# Each message is at most one mutation

A message resolves, in the store it meets, to one mutation of the engine or to none. Its commit
returns the events of that mutation, or returns an error and leaves the fleet as it was. From this
alone follows what holds of the engine in every state the Hub reaches.
-/

namespace VsFleet

open MergeEngine (Mutation)

/-- The outcome of a commit that stands for the given mutation. A focus does not fail: its append
may, but the store goes on. -/
inductive Did (e : MergeEngine) : Option Mutation → Except PersistError (List Event) → MergeEngine →
    Prop
  | idle : Did e none (.ok []) e
  | applied (m : Mutation) : Did e (some m) (.ok (e.mutate m).2) (e.mutate m).1
  | failed (m : Mutation) (error : PersistError) (e' : MergeEngine)
      (same : ∀ F, Refines e F → Refines e' F) (logged : ∀ id, m ≠ .applyFocus id) :
      Did e (some m) (.error error) e'

namespace StateStore

variable (store : StateStore)

theorem applySessionUpsert_did (session : Session) :
    Did store.engine (some (.upsertSession (store.preserveHubOwnedFields session)))
      (store.applySessionUpsert session).1 (store.applySessionUpsert session).2.engine := by
  rw [applySessionUpsert]
  cases fault : store.log.faults.headD false with
  | true =>
    rw [logAndApply_failed store _ fault]
    exact Did.failed _ _ _ (fun _ h => h) (by simp)
  | false =>
    rw [logAndApply_ok store _ fault]
    exact Did.applied _

theorem applySessionRemove_did (sessionId : String) :
    Did store.engine (some (.removeSessionEvents sessionId))
      (store.applySessionRemove sessionId).1 (store.applySessionRemove sessionId).2.engine := by
  rcases store.applySessionRemove_cases sessionId with ⟨absent, eq⟩ | ⟨-, -, eq⟩ | ⟨-, -, eq⟩
  · have still : store.engine.mutate (.removeSessionEvents sessionId) = (store.engine, []) := by
      rw [MergeEngine.session, AList.lookup_eq_none] at absent
      rw [MergeEngine.mutate, MergeEngine.removeSessionEvents, if_pos absent]
    have did := Did.applied (e := store.engine) (.removeSessionEvents sessionId)
    rw [still] at did
    rw [eq]
    exact did
  · rw [eq]
    exact Did.failed _ _ _ (fun _ h => h) (by simp)
  · rw [eq]
    simp only [dropSessionReclaim_engine]
    exact Did.applied (.removeSessionEvents sessionId)

theorem applyRunUpsert_did (sessionId : String) (run : AgentRun) :
    Did store.engine (some (.upsertRun sessionId run))
      (store.applyRunUpsert sessionId run).1 (store.applyRunUpsert sessionId run).2.engine := by
  rcases store.applyRunUpsert_cases sessionId run with ⟨absent, eq⟩ | ⟨-, -, eq⟩ | ⟨-, -, eq⟩
  · have still : store.engine.mutate (.upsertRun sessionId run) = (store.engine, []) := by
      rw [MergeEngine.session] at absent
      rw [MergeEngine.mutate, MergeEngine.upsertRun, absent]
    have did := Did.applied (e := store.engine) (.upsertRun sessionId run)
    rw [still] at did
    rw [eq]
    exact did
  · rw [eq]
    exact Did.failed _ _ _ (fun _ h => h) (by simp)
  · rw [eq]
    exact Did.applied (.upsertRun sessionId run)

/-- The mutation of a stamped delta: none for an unknown session and for a dropped delta. -/
def stampedMutation (sessionId : String) (run : AgentRun) (durableId : DurableId)
    (epoch seq : Nat) : Option Mutation :=
  if (store.engine.session sessionId).isNone ||
      (store.reclaim.classify durableId epoch seq).drops then none
  else some (.upsertRun sessionId run)

theorem applyRunUpsertSeq_did (sessionId : String) (run : AgentRun) (durableId : DurableId)
    (epoch seq : Nat) :
    Did store.engine (store.stampedMutation sessionId run durableId epoch seq)
      ((store.applyRunUpsertSeq sessionId run durableId epoch seq).1.map Prod.snd)
      (store.applyRunUpsertSeq sessionId run durableId epoch seq).2.engine := by
  unfold stampedMutation
  rcases store.applyRunUpsertSeq_cases sessionId run durableId epoch seq with
    ⟨absent, eq⟩ | ⟨live, drops, eq⟩ | ⟨live, drops, -, eq⟩ | ⟨live, drops, -, eq⟩
  · rw [eq, absent]
    exact Did.idle
  · rw [eq, drops, Bool.or_true]
    exact Did.idle
  · rw [eq, drops, Option.isNone_eq_false_iff.mpr live]
    exact Did.failed _ _ _ (fun _ h => h) (by simp)
  · rw [eq, drops, Option.isNone_eq_false_iff.mpr live]
    exact Did.applied (.upsertRun sessionId run)

theorem applyRunRemove_did (sessionId runId : String) :
    Did store.engine (some (.removeRun sessionId runId))
      (store.applyRunRemove sessionId runId).1 (store.applyRunRemove sessionId runId).2.engine := by
  rcases store.applyRunRemove_cases sessionId runId with
    ⟨absent, eq⟩ | ⟨run, -, -, eq⟩ | ⟨run, -, -, eq⟩
  · have still : store.engine.mutate (.removeRun sessionId runId) = (store.engine, []) := by
      rw [MergeEngine.mutate, MergeEngine.removeRun]
      rw [runOf, MergeEngine.session] at absent
      cases found : store.engine.sessions.lookup sessionId with
      | none => rfl
      | some s =>
        rw [found, Option.bind_some, List.find?_eq_none] at absent
        have kept : s.runs.filter (fun r => r.runId ≠ runId) = s.runs := by
          rw [List.filter_eq_self]
          intro r hr
          simpa using absent r hr
        simp only [kept, if_true]
    have did := Did.applied (e := store.engine) (.removeRun sessionId runId)
    rw [still] at did
    rw [eq]
    exact did
  · rw [eq]
    exact Did.failed _ _ _ (fun _ h => h) (by simp)
  · rw [eq]
    simp only [pruneDurable_engine]
    exact Did.applied (.removeRun sessionId runId)

/-- A failed flag change restores the snapshot it took, which is the fleet it started from. -/
theorem applyFlagChange_did {project : MergeEngine → MergeEngine × List Event} {m : Mutation}
    (projects : project store.engine = store.engine.mutate m)
    (flag : ∀ id, m ≠ .applyFocus id) :
    Did store.engine (some m) (store.applyFlagChange project).1
      (store.applyFlagChange project).2.engine := by
  simp only [applyFlagChange, projects]
  split
  · exact Did.applied m
  · refine Did.failed _ _ _ (fun F h => ?_) flag
    rw [h.snapshot]
    exact Refines.restore F

theorem applyFocus_did (sessionId : String) :
    Did store.engine (some (.applyFocus sessionId)) (.ok (store.applyFocus sessionId).1.toList)
      (store.applyFocus sessionId).2.engine := by
  have did := Did.applied (e := store.engine) (.applyFocus sessionId)
  rw [MergeEngine.mutate] at did
  unfold applyFocus
  rcases store.engine.applyFocus_cases sessionId with eq | ⟨s, found, eq⟩
  · rw [eq] at did ⊢
    exact did
  · rw [eq] at did ⊢
    have written : (persistSessionSnapshot { store with
        engine := { store.engine with
          sessions := store.engine.sessions.insert sessionId (Edit.read s) } } sessionId).engine =
        { store.engine with
          sessions := store.engine.sessions.insert sessionId (Edit.read s) } := by
      unfold persistSessionSnapshot
      split <;> rfl
    simp only [written]
    exact did

/-- The mutation a message resolves to. -/
def mutationOf (iter : IterOrder Session) : ClientMessage → Option Mutation
  | .subscribe => none
  | .command (.focus _ target) => (store.focusTarget iter target).map .applyFocus
  | .command (.mute _ sessionId) => some (.applyMute sessionId)
  | .command (.unmute _ sessionId) => some (.applyUnmute sessionId)
  | .command (.solo _ sessionId) => some (.applySolo sessionId)
  | .command (.dismiss _ (.session sessionId)) => some (.removeSessionEvents sessionId)
  | .command (.dismiss _ (.run runId)) =>
    (store.sessionIdOfRun iter runId).map (fun sessionId => .removeRun sessionId runId)
  | .command (.setTags _ _ _) => none
  | .sessionUpsert session => some (.upsertSession (store.preserveHubOwnedFields session))
  | .sessionRemove sessionId => some (.removeSessionEvents sessionId)
  | .runUpsert sessionId run none => some (.upsertRun sessionId run)
  | .runUpsert sessionId run (some s) =>
    store.stampedMutation sessionId run ⟨s.durableId⟩ s.epoch s.seq
  | .runRemove sessionId runId => some (.removeRun sessionId runId)

theorem applyMessage_did (iter : IterOrder Session) (msg : ClientMessage) :
    Did store.engine (store.mutationOf iter msg) (store.applyMessage iter msg).1
      (store.applyMessage iter msg).2.engine := by
  cases msg with
  | subscribe => exact Did.idle
  | command command =>
    cases command with
    | focus version target =>
      simp only [mutationOf, applyMessage, applyCommand]
      cases store.focusTarget iter target with
      | none => exact Did.idle
      | some sid => exact store.applyFocus_did sid
    | mute version sessionId => exact store.applyFlagChange_did rfl (fun _ => nofun)
    | unmute version sessionId => exact store.applyFlagChange_did rfl (fun _ => nofun)
    | solo version sessionId => exact store.applyFlagChange_did rfl (fun _ => nofun)
    | dismiss version target =>
      cases target with
      | session sessionId => exact store.applySessionRemove_did sessionId
      | run runId =>
        simp only [mutationOf, applyMessage, applyCommand, applyDismiss]
        cases store.sessionIdOfRun iter runId with
        | none => exact Did.idle
        | some sid => exact store.applyRunRemove_did sid runId
    | setTags version sessionId tags => exact Did.idle
  | sessionUpsert session => exact store.applySessionUpsert_did session
  | sessionRemove sessionId => exact store.applySessionRemove_did sessionId
  | runUpsert sessionId run stamp =>
    cases stamp with
    | none => exact store.applyRunUpsert_did sessionId run
    | some s =>
      have did := store.applyRunUpsertSeq_did sessionId run ⟨s.durableId⟩ s.epoch s.seq
      simp only [mutationOf, applyMessage]
      split
      · rename_i outcome
        rw [outcome] at did
        exact did
      · rename_i outcome
        rw [outcome] at did
        exact did
  | runRemove sessionId runId => exact store.applyRunRemove_did sessionId runId

variable {store} in
/-- Only the message of a session upsert puts a whole session. -/
theorem mutationOf_upsertSession {iter : IterOrder Session} {msg : ClientMessage}
    {session : Session} (m : store.mutationOf iter msg = some (.upsertSession session)) :
    ∃ sent, msg = .sessionUpsert sent ∧ session = store.preserveHubOwnedFields sent := by
  cases msg with
  | sessionUpsert sent =>
    rw [mutationOf, Option.some.injEq, Mutation.upsertSession.injEq] at m
    exact ⟨sent, rfl, m.symm⟩
  | command command =>
    cases command with
    | dismiss version target => cases target <;> simp [mutationOf] at m
    | _ => simp [mutationOf] at m
  | runUpsert sessionId run stamp =>
    cases stamp <;> simp [mutationOf, stampedMutation] at m
  | _ => simp [mutationOf] at m

/-- A pass ends with the reaping where that fails, and else goes on with the sweep. -/
theorem gc_cases (parseEpochSecs : String → Option Int) (store : StateStore) (now : String)
    (grace sessionTtl : Nat) :
    (∃ e, (store.reapDead parseEpochSecs now grace).1 = .error e ∧
      (store.gc parseEpochSecs now grace sessionTtl).2 =
        (store.reapDead parseEpochSecs now grace).2) ∨
    ∃ events, (store.reapDead parseEpochSecs now grace).1 = .ok events ∧
      (store.gc parseEpochSecs now grace sessionTtl).2 =
        ((store.reapDead parseEpochSecs now grace).2.sweepExpiredSessions parseEpochSecs now
          sessionTtl).2 := by
  unfold gc
  generalize store.reapDead parseEpochSecs now grace = outcome
  obtain ⟨result, after⟩ := outcome
  cases result with
  | error e => exact .inl ⟨e, rfl, rfl⟩
  | ok events =>
    refine .inr ⟨events, rfl, ?_⟩
    simp only
    split <;> rename_i rest <;> rw [rest]

/-- What holds after the reaping and is kept by a sweep, a pass leaves. -/
theorem gc_keeps {P : StateStore → Prop} {parseEpochSecs : String → Option Int}
    {store : StateStore} {now : String} {grace sessionTtl : Nat}
    (reaped : P (store.reapDead parseEpochSecs now grace).2)
    (sweep : ∀ after, P after → P (after.sweepExpiredSessions parseEpochSecs now sessionTtl).2) :
    P (store.gc parseEpochSecs now grace sessionTtl).2 := by
  rcases store.gc_cases parseEpochSecs now grace sessionTtl with ⟨e, -, ends⟩ | ⟨events, -, goes⟩
  · rw [ends]
    exact reaped
  · rw [goes]
    exact sweep _ reaped

end StateStore

/-- After a commit the engine is the same fleet, or the fleet with the mutation made. -/
theorem Did.refines {e e' : MergeEngine} {m : Option Mutation}
    {result : Except PersistError (List Event)} (did : Did e m result e') {F : Fleet}
    (h : Refines e F) : Refines e' F ∨ ∃ m', m = some m' ∧ Refines e' (F.mutate m') := by
  cases did with
  | idle => exact Or.inl h
  | applied m => exact Or.inr ⟨m, rfl, h.mutate m⟩
  | failed m error e' same logged => exact Or.inl (same F h)

/-- A commit that succeeds has made its mutation. -/
theorem Did.of_ok {e e' : MergeEngine} {m : Mutation} {events : List Event}
    (did : Did e (some m) (.ok events) e') : e' = (e.mutate m).1 := by
  cases did
  rfl

theorem Did.wellFormed {e e' : MergeEngine} {m : Option Mutation}
    {result : Except PersistError (List Event)} (did : Did e m result e')
    (h : ∃ F, Refines e F) : ∃ F, Refines e' F := by
  obtain ⟨F, h⟩ := h
  rcases did.refines h with h' | ⟨m', -, h'⟩
  · exact ⟨F, h'⟩
  · exact ⟨_, h'⟩

namespace StateStore

/-- The states of a store: opened on any log, then mutated in any order, appends failing or not. -/
inductive Reached (parseEpochSecs : String → Option Int) : StateStore → Prop
  | opened (log : EventLog) : Reached parseEpochSecs (.fromLog log)
  | step {store : StateStore} (op : StoreOp) : Reached parseEpochSecs store →
      Reached parseEpochSecs (store.perform parseEpochSecs op)

theorem Reached.refines {parseEpochSecs : String → Option Int} {store : StateStore}
    (h : store.Reached parseEpochSecs) : ∃ F, Refines store.engine F := by
  induction h with
  | opened log => exact log.restored_refines
  | @step store op _ ih =>
    cases op with
    | sessionUpsert session => exact (store.applySessionUpsert_did session).wellFormed ih
    | sessionRemove sessionId => exact (store.applySessionRemove_did sessionId).wellFormed ih
    | runUpsert sessionId run => exact (store.applyRunUpsert_did sessionId run).wellFormed ih
    | runUpsertSeq sessionId run durableId epoch seq =>
      exact (store.applyRunUpsertSeq_did sessionId run durableId epoch seq).wellFormed ih
    | runRemove sessionId runId => exact (store.applyRunRemove_did sessionId runId).wellFormed ih
    | mute sessionId =>
      exact (store.applyFlagChange_did (m := .applyMute sessionId) rfl
        (fun _ => nofun)).wellFormed ih
    | unmute sessionId =>
      exact (store.applyFlagChange_did (m := .applyUnmute sessionId) rfl
        (fun _ => nofun)).wellFormed ih
    | solo sessionId =>
      exact (store.applyFlagChange_did (m := .applySolo sessionId) rfl
        (fun _ => nofun)).wellFormed ih
    | focus sessionId => exact (store.applyFocus_did sessionId).wellFormed ih
    | reapDead now grace =>
      exact removeAll_invariant (P := fun store => ∃ F, Refines store.engine F)
        (fun store v h => (store.applyRunRemove_did v.1 v.2).wellFormed h) _ ih
    | sweepExpiredSessions now ttl =>
      exact removeAll_invariant (P := fun store => ∃ F, Refines store.engine F)
        (fun store v h => (store.applySessionRemove_did v).wellFormed h) _ ih

end StateStore

end VsFleet
