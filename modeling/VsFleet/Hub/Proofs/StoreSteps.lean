import VsFleet.Hub.Persist
import VsFleet.Hub.Proofs.MergeRefines
import VsFleet.Hub.Proofs.WireRoundTrip

/-!
# What one step of the store can do

An append fails or pushes a row, which a replay parses back to its event where the codec gives the
event back; a logged mutation leaves the engine alone or mutates it; the upkeep of the reclaim state
touches neither the log nor the engine.
-/

namespace VsFleet

/-- The mutation of the engine a row stands for. -/
def PersistEvent.mutation : PersistEvent → MergeEngine.Mutation
  | .sessionUpsert session => .upsertSession session
  | .sessionRemove sessionId => .removeSessionEvents sessionId
  | .runUpsert sessionId run => .upsertRun sessionId run
  | .runRemove sessionId runId => .removeRun sessionId runId

theorem applyToEngine_eq (engine : MergeEngine) (ev : PersistEvent) :
    applyToEngine engine ev = engine.mutate ev.mutation := by
  cases ev <;> rfl

namespace EventLog

variable (log : EventLog) (ev : PersistEvent)

/-- The log after an append that failed: its fault is used up. -/
def failed : EventLog := { log with faults := log.faults.tail }

/-- The log after one that succeeded, with a row more. -/
def push : EventLog :=
  { log with rows := log.rows ++ [some ev.serialize], faults := log.faults.tail }

/-- A replay parses the row of the event back to the event. -/
def ReadsBack : Prop := log.parse (some ev.serialize) = some ev

/-- A replay parses the rows of these updates back to the sessions they carry. -/
def UpdatesReadBack (events : List Event) : Prop :=
  ∀ s ∈ events.filterMap sessionOfUpdated, log.ReadsBack (.sessionUpsert s)

theorem append_failed (h : log.faults.headD false = true) :
    log.append ev = (.error .sqlite, log.failed) := by
  rw [append, if_pos h]
  rfl

theorem append_ok (h : log.faults.headD false = false) : log.append ev = (.ok (), log.push ev) := by
  rw [append, if_neg (by rw [h]; decide)]
  rfl

variable {log ev}

/-- What serde_json gives back is read back: the conditions are those of its round trip. -/
theorem readsBack_of_proper (h : ev.Proper log.float)
    (shallow : ev.serialize.depth < Json.recursionLimit) : log.ReadsBack ev := by
  rw [ReadsBack, parse, Option.bind_some, Serde.fromStr_eq shallow]
  exact PersistEvent.deserialize_serialize h

/-- The row of a removal holds strings alone. -/
theorem readsBack_sessionRemove (sessionId : String) :
    log.ReadsBack (.sessionRemove sessionId) := readsBack_of_proper trivial (show 1 < 128 by decide)

theorem readsBack_runRemove (sessionId runId : String) :
    log.ReadsBack (.runRemove sessionId runId) :=
  readsBack_of_proper trivial (show 1 < 128 by decide)

end EventLog

namespace EventLog

/-- The engine a replay of the log builds. -/
def restored (log : EventLog) : MergeEngine := (log.replayInto .new).1

theorem restored_push {log : EventLog} {ev : PersistEvent} (read : log.ReadsBack ev) :
    (log.push ev).restored = (log.restored.mutate ev.mutation).1 := by
  have parsed : (log.push ev).parse (some ev.serialize) = some ev := read
  rw [← applyToEngine_eq, restored, replayInto,
    show (log.push ev).rows = log.rows ++ [some ev.serialize] from rfl, List.foldl_append,
    List.foldl_cons, List.foldl_nil, parsed]
  rfl

theorem restored_refines (log : EventLog) : ∃ F, Refines log.restored F := by
  unfold restored replayInto
  refine List.foldlRecOn log.rows _
    (motive := fun acc : MergeEngine × Nat × Nat => ∃ F, Refines acc.1 F) ⟨.empty, Refines.new⟩ ?_
  rintro ⟨engine, applied, skipped⟩ ⟨F, h⟩ payload -
  simp only
  cases log.parse payload with
  | none => exact ⟨F, h⟩
  | some ev =>
    refine ⟨F.mutate ev.mutation, ?_⟩
    simp only [applyToEngine_eq]
    exact h.mutate ev.mutation

theorem head_healthy {log : EventLog} (healthy : true ∉ log.faults) :
    log.faults.headD false = false := by
  cases hf : log.faults with
  | nil => rfl
  | cons fault faults =>
    rw [hf, List.mem_cons, not_or] at healthy
    simpa using healthy.1

theorem push_healthy {log : EventLog} (healthy : true ∉ log.faults) (ev : PersistEvent) :
    true ∉ (log.push ev).faults := fun fault => healthy (List.mem_of_mem_tail fault)

end EventLog

namespace StateStore

variable (store : StateStore) (ev : PersistEvent)

theorem logAndApply_failed (h : store.log.faults.headD false = true) :
    store.logAndApply ev = (.error .sqlite, { store with log := store.log.failed }) := by
  rw [logAndApply, store.log.append_failed ev h]

theorem logAndApply_ok (h : store.log.faults.headD false = false) :
    store.logAndApply ev = (.ok (store.engine.mutate ev.mutation).2,
      { store with
        log := store.log.push ev
        engine := (store.engine.mutate ev.mutation).1 }) := by
  rw [logAndApply, store.log.append_ok ev h, ← applyToEngine_eq]

@[simp] theorem dropSessionReclaim_engine (sessionId : String) :
    (store.dropSessionReclaim sessionId).engine = store.engine := by
  unfold dropSessionReclaim
  split <;> rfl

@[simp] theorem dropSessionReclaim_log (sessionId : String) :
    (store.dropSessionReclaim sessionId).log = store.log := by
  unfold dropSessionReclaim
  split <;> rfl

@[simp] theorem pruneDurable_engine (sessionId : String) (durable : DurableId) :
    (store.pruneDurable sessionId durable).engine = store.engine := by
  unfold pruneDurable
  simp only
  split <;> rfl

@[simp] theorem pruneDurable_log (sessionId : String) (durable : DurableId) :
    (store.pruneDurable sessionId durable).log = store.log := by
  unfold pruneDurable
  simp only
  split <;> rfl

/-- The session is absent, or the append fails, or the session goes with its reclaim state. -/
theorem applySessionRemove_cases (sessionId : String) :
    (store.engine.session sessionId = none ∧
      store.applySessionRemove sessionId = (.ok [], store)) ∨
    ((store.engine.session sessionId).isSome ∧ store.log.faults.headD false = true ∧
      store.applySessionRemove sessionId =
        (.error .sqlite, { store with log := store.log.failed })) ∨
    ((store.engine.session sessionId).isSome ∧ store.log.faults.headD false = false ∧
      store.applySessionRemove sessionId = (.ok (store.engine.removeSessionEvents sessionId).2,
        dropSessionReclaim { store with
          log := store.log.push (.sessionRemove sessionId)
          engine := (store.engine.removeSessionEvents sessionId).1 } sessionId)) := by
  unfold applySessionRemove
  cases found : store.engine.session sessionId with
  | none => exact Or.inl ⟨rfl, rfl⟩
  | some s =>
    right
    cases fault : store.log.faults.headD false with
    | true =>
      left
      rw [logAndApply_failed store _ fault]
      exact ⟨rfl, rfl, rfl⟩
    | false =>
      right
      rw [logAndApply_ok store _ fault]
      exact ⟨rfl, rfl, rfl⟩

theorem applyRunUpsert_cases (sessionId : String) (run : AgentRun) :
    (store.engine.session sessionId = none ∧
      store.applyRunUpsert sessionId run = (.ok [], store)) ∨
    ((store.engine.session sessionId).isSome ∧ store.log.faults.headD false = true ∧
      store.applyRunUpsert sessionId run =
        (.error .sqlite, { store with log := store.log.failed })) ∨
    ((store.engine.session sessionId).isSome ∧ store.log.faults.headD false = false ∧
      store.applyRunUpsert sessionId run = (.ok (store.engine.upsertRun sessionId run).2,
        { store with
          log := store.log.push (.runUpsert sessionId run)
          engine := (store.engine.upsertRun sessionId run).1 })) := by
  unfold applyRunUpsert
  cases found : store.engine.session sessionId with
  | none => exact Or.inl ⟨rfl, rfl⟩
  | some s =>
    right
    cases fault : store.log.faults.headD false with
    | true =>
      left
      exact ⟨rfl, rfl, logAndApply_failed store _ fault⟩
    | false =>
      right
      exact ⟨rfl, rfl, logAndApply_ok store _ fault⟩

/-- The store once a stamped delta is admitted, before it is logged and projected. -/
def admitted (sessionId : String) (durableId : DurableId) (epoch seq : Nat) : StateStore :=
  { store with
    reclaim := (store.reclaim.admitDelta durableId epoch seq).2
    sessionDurables := store.sessionDurables.insert sessionId
      (setInsert ((store.sessionDurables.lookup sessionId).getD []) durableId) }

/-- The session is absent, or the gate drops the delta, or it is admitted and its append fails or
lands. -/
theorem applyRunUpsertSeq_cases (sessionId : String) (run : AgentRun) (durableId : DurableId)
    (epoch seq : Nat) :
    (store.engine.session sessionId = none ∧
      store.applyRunUpsertSeq sessionId run durableId epoch seq =
        (.ok (.duplicateDrop, []), store)) ∨
    ((store.engine.session sessionId).isSome ∧
      (store.reclaim.classify durableId epoch seq).drops = true ∧
      store.applyRunUpsertSeq sessionId run durableId epoch seq =
        (.ok (store.reclaim.classify durableId epoch seq, []), store)) ∨
    ((store.engine.session sessionId).isSome ∧
      (store.reclaim.classify durableId epoch seq).drops = false ∧
      store.log.faults.headD false = true ∧
      store.applyRunUpsertSeq sessionId run durableId epoch seq = (.error .sqlite,
        { store.admitted sessionId durableId epoch seq with log := store.log.failed })) ∨
    ((store.engine.session sessionId).isSome ∧
      (store.reclaim.classify durableId epoch seq).drops = false ∧
      store.log.faults.headD false = false ∧
      store.applyRunUpsertSeq sessionId run durableId epoch seq =
        (.ok (store.reclaim.classify durableId epoch seq,
          (store.engine.upsertRun sessionId run).2),
        { store.admitted sessionId durableId epoch seq with
          log := store.log.push (.runUpsert sessionId run)
          engine := (store.engine.upsertRun sessionId run).1 })) := by
  have eq : store.reclaim.admitDelta durableId epoch seq =
      (store.reclaim.classify durableId epoch seq,
        (store.reclaim.admitDelta durableId epoch seq).2) := rfl
  unfold applyRunUpsertSeq
  rw [eq]
  cases found : store.engine.session sessionId with
  | none => exact Or.inl ⟨rfl, rfl⟩
  | some s =>
    right
    simp only [Option.isNone_some, Bool.false_eq_true, if_false]
    cases drops : (store.reclaim.classify durableId epoch seq).drops with
    | true =>
      left
      have kept : (store.reclaim.admitDelta durableId epoch seq).2 = store.reclaim := by
        rw [ReclaimTable.admitDelta, if_neg]
        simpa [Decision.drops] using drops
      rw [kept]
      exact ⟨rfl, rfl, rfl⟩
    | false =>
      right
      rcases (store.admitted sessionId durableId epoch seq).applyRunUpsert_cases sessionId run with
        ⟨absent, -⟩ | ⟨-, fault, eq⟩ | ⟨-, fault, eq⟩
      · exact absurd (absent.symm.trans found) (by simp)
      · left
        rw [admitted] at eq
        simp only [Bool.false_eq_true, if_false, eq]
        exact ⟨rfl, trivial, fault, rfl⟩
      · right
        rw [admitted] at eq
        simp only [Bool.false_eq_true, if_false, eq]
        exact ⟨rfl, trivial, fault, rfl⟩

/-- The first run of an id in a session. -/
def runOf (sessionId runId : String) : Option AgentRun :=
  (store.engine.session sessionId).bind (fun s => s.runs.find? (fun r => r.runId = runId))

theorem applyRunRemove_cases (sessionId runId : String) :
    (store.runOf sessionId runId = none ∧
      store.applyRunRemove sessionId runId = (.ok [], store)) ∨
    (∃ run, store.runOf sessionId runId = some run ∧ store.log.faults.headD false = true ∧
      store.applyRunRemove sessionId runId =
        (.error .sqlite, { store with log := store.log.failed })) ∨
    (∃ run, store.runOf sessionId runId = some run ∧ store.log.faults.headD false = false ∧
      store.applyRunRemove sessionId runId = (.ok (store.engine.removeRun sessionId runId).2,
        pruneDurable { store with
          log := store.log.push (.runRemove sessionId runId)
          engine := (store.engine.removeRun sessionId runId).1 } sessionId ⟨run.nativeId⟩)) := by
  unfold applyRunRemove
  rw [← runOf]
  cases found : store.runOf sessionId runId with
  | none => exact Or.inl ⟨rfl, rfl⟩
  | some run =>
    right
    cases fault : store.log.faults.headD false with
    | true =>
      left
      rw [logAndApply_failed store _ fault]
      exact ⟨run, rfl, rfl, rfl⟩
    | false =>
      right
      rw [logAndApply_ok store _ fault]
      exact ⟨run, rfl, rfl, rfl⟩

/-! ## The removal of victims -/

/-- The loop ends with the first removal where that fails, and else goes on with the others. -/
theorem removeAll_cons {α : Type}
    (remove : StateStore → α → Except PersistError (List Event) × StateStore) (v : α)
    (victims : List α) (store : StateStore) :
    (∃ e, (remove store v).1 = .error e ∧
      (removeAll remove (v :: victims) store).2 = (remove store v).2) ∨
    ∃ events, (remove store v).1 = .ok events ∧ (removeAll remove (v :: victims) store).2 =
      (removeAll remove victims (remove store v).2).2 := by
  rw [removeAll]
  generalize remove store v = outcome
  obtain ⟨result, after⟩ := outcome
  cases result with
  | error e => exact .inl ⟨e, rfl, rfl⟩
  | ok events =>
    refine .inr ⟨events, rfl, ?_⟩
    simp only
    split <;> rename_i rest <;> rw [rest]

/-- What the removal of each victim keeps, the whole loop keeps. -/
theorem removeAll_keeps {α : Type} {P : StateStore → Prop}
    {remove : StateStore → α → Except PersistError (List Event) × StateStore}
    {victims : List α} (hremove : ∀ v ∈ victims, ∀ store, P store → P (remove store v).2) :
    ∀ {store : StateStore}, P store → P (removeAll remove victims store).2 := by
  induction victims with
  | nil => exact fun h => h
  | cons v victims ih =>
    intro store h
    have h' := hremove v (List.mem_cons_self ..) store h
    rcases removeAll_cons remove v victims store with ⟨e, -, ends⟩ | ⟨events, -, goes⟩
    · rw [ends]
      exact h'
    · rw [goes]
      exact ih (fun w hw => hremove w (List.mem_cons_of_mem v hw)) h'

/-- What every removal keeps, the loop keeps. -/
theorem removeAll_invariant {α : Type} {P : StateStore → Prop}
    {remove : StateStore → α → Except PersistError (List Event) × StateStore}
    (hremove : ∀ store v, P store → P (remove store v).2) (victims : List α)
    {store : StateStore} (h : P store) : P (removeAll remove victims store).2 :=
  removeAll_keeps (fun v _ store => hremove store v) h

end StateStore

/-- A focus changes nothing, or clears the flag of the session. -/
theorem MergeEngine.applyFocus_cases (e : MergeEngine) (id : String) :
    e.applyFocus id = (e, none) ∨ ∃ s, e.session id = some s ∧
      e.applyFocus id = ({ e with sessions := e.sessions.insert id (Edit.read s) },
        some (.ofSessionUpdated (Edit.read s))) := by
  unfold applyFocus
  rw [← session]
  cases e.session id with
  | none => exact Or.inl rfl
  | some s =>
    simp only
    split
    · exact Or.inl rfl
    · exact Or.inr ⟨s, rfl, rfl⟩

/-! ## What an upsert leaves in its session -/

/-- The runs the Hub holds for a session. -/
def StateStore.runsOf (store : StateStore) (sessionId : String) : List AgentRun :=
  ((store.engine.session sessionId).map (fun s => s.runs)).getD []

theorem MergeEngine.find?_upsertRunIn (runs : List AgentRun) (run : AgentRun) (runId : String) :
    (upsertRunIn runs run).1.find? (fun r => r.runId = runId) =
      if run.runId = runId then some run else runs.find? (fun r => r.runId = runId) := by
  induction runs with
  | nil => by_cases own : run.runId = runId <;> simp [upsertRunIn, own]
  | cons r runs ih =>
    by_cases own : run.runId = runId
    · rw [if_pos own] at ih ⊢
      by_cases hr : r.runId = run.runId
      · simp [upsertRunIn, hr, own]
      · have other : r.runId ≠ runId := fun h => hr (h.trans own.symm)
        simp [upsertRunIn, hr, other, ih]
    · rw [if_neg own] at ih ⊢
      by_cases hr : r.runId = run.runId
      · simp [upsertRunIn, hr, own]
      · simp [upsertRunIn, hr, List.find?_cons, ih]

theorem MergeEngine.upsertSession_session (e : MergeEngine) (session : Session) :
    ∃ s, (e.upsertSession session).1.session session.sessionId = some s ∧
      s.runs = session.runs := by
  simp only [upsertSession, Session.updateUnread_fst, Session.settle_sessionId,
    Session.recomputeRollups_sessionId]
  split
  · exact ⟨_, AList.lookup_insert _, rfl⟩
  · exact ⟨_, AList.lookup_insert _, rfl⟩

theorem MergeEngine.upsertRun_session (e : MergeEngine) {sessionId : String} {s : Session}
    (found : e.session sessionId = some s) (run : AgentRun) :
    ∃ s', (e.upsertRun sessionId run).1.session sessionId = some s' ∧
      s'.runs = (upsertRunIn s.runs run).1 := by
  rw [session] at found
  simp only [upsertRun, found, Session.updateUnread_fst]
  exact ⟨_, AList.lookup_insert _, rfl⟩

theorem StateStore.preserveHubOwnedFields_session (store : StateStore) (session : Session) :
    (store.preserveHubOwnedFields session).sessionId = session.sessionId ∧
      (store.preserveHubOwnedFields session).runs = session.runs := by
  unfold preserveHubOwnedFields
  split <;> exact ⟨rfl, rfl⟩

end VsFleet
