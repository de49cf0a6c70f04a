import VsFleet.Hub.Proofs.StoreSteps
import VsFleet.Misc.Runs

/-!
# Replay equals live

The store and a replay of its log hold the same fleet. Run operations, session upserts and
removals reach both through one mapping. A flag change reaches the replay as whole-session
upserts, and an upsert settles the unread flag once more, against the fleet as replayed so far;
this leaves the flag alone except for one unmute.
-/

namespace VsFleet

namespace Fleet

variable {F : Fleet}

/-- An upsert of a session already settled, in the place of `s`. -/
theorem landed_eq_self {w s : Session} (rolledUp : w.RolledUp) (found : F.get? w.sessionId = some s)
    (flag : F.notifies s = F.notifies w ∨ w.unread = F.notifies w) : F.landed w = w := by
  unfold Session.RolledUp at rolledUp
  rw [landed, rolledUp, found, Option.map_some, Option.getD_some]
  rcases flag with same | unread
  · rw [same, Session.settle_self]
  · have kept : (if F.notifies s = F.notifies w then w.unread else F.notifies w) = w.unread := by
      split
      · rfl
      · exact unread.symm
    rw [Session.settle, kept]

/-- Upserts of edited sessions of the fleet, one by one: the fleet on the way has a beginning of
the sessions edited. -/
theorem foldl_upsert {G : Edit} {moved : Session → Bool} (todo : List Session) :
    ∀ (before : List Session) (H : Fleet), H.sessions = before.map G ++ todo →
    (∀ s ∈ todo, moved s = false → G s = s) →
    (∀ (pre : List Session) (s : Session) (post : List Session) (K : Fleet),
      before ++ todo = pre ++ s :: post → K.sessions = pre.map G ++ s :: post →
      K.landed (G s) = G s) →
    (((todo.filter moved).map G).foldl Fleet.upsert H).sessions = (before ++ todo).map G := by
  induction todo with
  | nil =>
    intro before H hH _ _
    simpa using hH
  | cons s todo ih =>
    intro before H hH still lands
    have rest := fun K hK => ih (before ++ [s]) K hK
      (fun w hw => still w (List.mem_cons_of_mem s hw)) (by simpa using lands)
    simp only [List.append_assoc, List.singleton_append] at rest
    cases hs : moved s with
    | false =>
      rw [List.filter_cons_of_neg (by simp [hs])]
      apply rest
      rw [hH, List.map_append, List.map_singleton, still s (by simp) hs]
      simp
    | true =>
      rw [List.filter_cons_of_pos hs, List.map_cons, List.foldl_cons]
      apply rest
      have landed := lands before s todo H rfl hH
      have distinct := H.distinct
      rw [hH] at distinct
      rw [Fleet.upsert, Fleet.put_sessions, landed, hH,
        KeyedList.upsert_middle (G.sessionId s) distinct, List.map_append]
      simp

/-- The updates of a reflag leave the replay alone at `s` where the flag the second settling reads
off is the one it finds. -/
def Lands (F : Fleet) (g : Edit) : Prop :=
  ∀ (pre : List Session) (s : Session) (post : List Session) (K : Fleet),
    F.sessions = pre ++ s :: post →
    K.sessions = pre.map (F.settled (F.edit g) g) ++ s :: post →
    K.notifies s = K.notifies (g s) ∨
      (F.settled (F.edit g) g s).unread = K.notifies (g s)

theorem foldl_upsert_updates {g : Edit} {events : List Event} (lands : F.Lands g)
    (announces : F.Announces (F.settled (F.edit g) g) events) :
    (events.filterMap sessionOfUpdated).foldl Fleet.upsert F = F.reflag g := by
  obtain ⟨moved, rfl, still⟩ := announces
  have rows : ((F.sessions.filter moved).map (fun s =>
      Event.ofSessionUpdated (F.settled (F.edit g) g s))).filterMap sessionOfUpdated =
      (F.sessions.filter moved).map (F.settled (F.edit g) g) := by
    rw [List.filterMap_map]
    exact congrFun List.filterMap_eq_map' _
  rw [rows]
  apply Fleet.ext
  have replayed := foldl_upsert (G := F.settled (F.edit g) g) F.sessions [] F rfl still
  rw [List.nil_append] at replayed
  apply replayed
  intro pre s post K hF hK
  have found : K.get? (F.settled (F.edit g) g s).sessionId = some s := by
    rw [Edit.sessionId_act]
    exact get?_of_mem (by simp [hK])
  refine landed_eq_self ?_ found (lands pre s post K hF hK)
  exact (F.settled (F.edit g) g).rolledUp s (F.rolledUp s (by simp [hF]))

theorem anySoloed_append {l l' : List Session} (h : F.sessions = l ++ l') :
    F.anySoloed = (l.any (fun s => s.soloed) || l'.any (fun s => s.soloed)) := by
  rw [anySoloed, h, List.any_append]

/-- Before its own row, the edit of one session is not to be seen in a replay but for unread
flags. -/
theorem anySoloed_before {K : Fleet} {id : String} {g : Edit} {pre post : List Session}
    {s : Session} (hF : F.sessions = pre ++ s :: post) (own : s.sessionId = id)
    (hK : K.sessions = pre.map (F.settled (F.edit (.only id g)) (.only id g)) ++ s :: post) :
    K.anySoloed = F.anySoloed := by
  have distinct := F.distinct
  rw [hF, List.map_append, List.nodup_append] at distinct
  rw [anySoloed_append hK, anySoloed_append hF, List.any_map]
  congr 1
  have same : pre.map (fun p => (F.settled (F.edit (.only id g)) (.only id g) p).soloed) =
      pre.map (fun p => p.soloed) := by
    apply List.map_congr_left
    intro p hp
    have other : p.sessionId ≠ id := by
      intro hpid
      exact distinct.2.2 _ (List.mem_map_of_mem hp) _ (by simp) (hpid.trans own.symm)
    simp [settled, Edit.only, other]
  simpa [List.any_map, Function.comp_def] using congrArg (fun flags => flags.any (fun b => b)) same

theorem lands_mute (id : String) : F.Lands (.only id .mute) := by
  intro pre s post K hF hK
  by_cases own : s.sessionId = id
  · have any := anySoloed_before hF own hK
    have silent : ∀ H : Fleet, H.notifies (Edit.only id .mute s) = false := by
      intro H
      simp [notifies, Session.shouldNotifySession, Edit.only, own, Edit.mute, Edit.setFlags]
    have before : K.notifies s = F.notifies s := by rw [notifies, notifies, any]
    rw [silent, before]
    cases hn : F.notifies s with
    | false => exact Or.inl rfl
    | true =>
      right
      simp [settled, hn, silent]
  · left
    simp [Edit.only, own]

/-- The one unmute a replay gets wrong: of the only soloed session, notifying and unread. -/
def SoleUnreadSolo (F : Fleet) (id : String) : Prop :=
  ∃ s, F.get? id = some s ∧ s.rollupState = .waiting ∧ s.muted = false ∧ s.soloed = true ∧
    s.unread = true ∧ ∀ w ∈ F.sessions, w.soloed = true → w.sessionId = id

theorem lands_unmute {id : String} (safe : ¬ F.SoleUnreadSolo id) :
    F.Lands (.only id .unmute) := by
  intro pre s post K hF hK
  by_cases own : s.sessionId = id
  · have hs : s ∈ F.sessions := by simp [hF]
    have any := anySoloed_before hF own hK
    have before : K.notifies s = F.notifies s := by rw [notifies, notifies, any]
    have freed : ∀ H : Fleet, H.notifies (Edit.only id .unmute s) =
        (decide (s.rollupState = .waiting) && !H.anySoloed) := by
      intro H
      simp [notifies, Session.shouldNotifySession, Edit.only, own, Edit.unmute, Edit.setFlags]
    have unread : (F.settled (F.edit (.only id .unmute)) (.only id .unmute) s).unread =
        if F.notifies s = (decide (s.rollupState = .waiting) &&
          !(F.edit (.only id .unmute)).anySoloed) then s.unread
        else (decide (s.rollupState = .waiting) && !(F.edit (.only id .unmute)).anySoloed) := by
      rw [settled, ← freed]
      simp [Edit.only, own, Edit.unmute, Edit.setFlags]
    rw [before, freed, any, unread]
    cases solo : s.soloed with
    | false =>
      have kept : (F.edit (.only id .unmute)).anySoloed = F.anySoloed := by
        apply anySoloed_congr rfl
        intro w hw
        by_cases hwid : w.sessionId = id
        · have same : some w = some s := by
            rw [← get?_of_mem hw, hwid, ← own, get?_of_mem hs]
          rw [Option.some.inj same, solo]
          simp [Edit.only, own, Edit.unmute, Edit.setFlags]
        · simp [Edit.only, hwid]
      rw [kept]
      by_cases hn : F.notifies s = (decide (s.rollupState = .waiting) && !F.anySoloed)
      · exact Or.inl hn
      · right
        rw [if_neg hn]
    | true =>
      have soloed : F.anySoloed = true := anySoloed_eq_true_iff.mpr ⟨s, hs, solo⟩
      have notify : F.notifies s = (decide (s.rollupState = .waiting) && !s.muted) := by
        simp [notifies, Session.shouldNotifySession, solo]
      rw [notify, soloed]
      by_cases loud : s.rollupState = .waiting ∧ s.muted = false
      · right
        cases other : (F.edit (.only id .unmute)).anySoloed with
        | true => simp [loud.1, loud.2]
        | false =>
          have quiet : s.unread = false := by
            by_contra hu
            refine safe ⟨s, own ▸ get?_of_mem hs, loud.1, loud.2, solo, by simpa using hu, ?_⟩
            intro w hw hsolo
            by_contra hne
            have still : (F.edit (.only id .unmute)).anySoloed = true :=
              anySoloed_eq_true_iff.mpr ⟨Edit.only id .unmute w, List.mem_map_of_mem hw, by
                simp [Edit.only, hne, hsolo]⟩
            simp [still] at other
          simp [loud.1, loud.2, quiet]
      · left
        by_cases hw : s.rollupState = .waiting
        · have hm : s.muted = true := by simpa [hw] using loud
          simp [hm]
        · simp [hw]
  · left
    simp [Edit.only, own]

theorem lands_solo {id : String} (present : (F.get? id).isSome) : F.Lands (.solo id) := by
  intro pre s post K hF hK
  have hs : s ∈ F.sessions := by simp [hF]
  have after : (F.edit (.solo id)).anySoloed = true := by
    obtain ⟨t, found⟩ := Option.isSome_iff_exists.mp present
    obtain ⟨ht, own⟩ := get?_eq_some_iff.mp found
    exact anySoloed_eq_true_iff.mpr ⟨Edit.solo id t, List.mem_map_of_mem ht, by
      simp [Edit.solo, Edit.setFlags, own]⟩
  by_cases own : s.sessionId = id
  · have chosen : ∀ H : Fleet, H.notifies (Edit.solo id s) = decide (s.rollupState = .waiting) := by
      intro H
      simp [notifies, Session.shouldNotifySession, Edit.solo, own, Edit.setFlags]
    rw [chosen]
    by_cases same : K.notifies s = decide (s.rollupState = .waiting)
    · exact Or.inl same
    · right
      -- The session waits and did not notify in the replay, so it did not notify live either.
      have waiting : s.rollupState = .waiting := by
        by_contra hw
        exact same (by simp [notifies, Session.shouldNotifySession, hw])
      have silent : F.notifies s = false := by
        rw [Bool.eq_false_iff]
        intro hn
        apply same
        simp only [notifies, Session.shouldNotifySession, waiting, decide_true, Bool.true_and,
          Bool.and_eq_true, Bool.not_eq_true', Bool.or_eq_true] at hn ⊢
        refine ⟨hn.1, ?_⟩
        rcases hn.2 with none | solo
        · cases hsolo : s.soloed with
          | true => exact Or.inr rfl
          | false =>
            left
            rw [anySoloed_append hF] at none
            rw [anySoloed_append hK]
            simp only [Bool.or_eq_false_iff] at none ⊢
            refine ⟨?_, none.2⟩
            rw [List.any_map, List.any_eq_false]
            intro p hp
            have distinct := F.distinct
            rw [hF, List.map_append, List.nodup_append] at distinct
            have other : p.sessionId ≠ id := by
              intro hpid
              exact distinct.2.2 _ (List.mem_map_of_mem hp) _ (by simp) (hpid.trans own.symm)
            simp [settled, Edit.solo, Edit.setFlags, other]
        · exact Or.inr solo
      rw [settled]
      simp [silent, chosen, waiting]
  · have hushed : ∀ H : Fleet, H.notifies (Edit.solo id s) =
        (decide (s.rollupState = .waiting) && !s.muted && !H.anySoloed) := by
      intro H
      simp [notifies, Session.shouldNotifySession, Edit.solo, own, Edit.setFlags]
    cases solo : s.soloed with
    | false =>
      left
      rw [hushed]
      simp [notifies, Session.shouldNotifySession, solo]
    | true =>
      have replayed : K.anySoloed = true :=
        anySoloed_eq_true_iff.mpr ⟨s, by simp [hK], solo⟩
      have notify : ∀ H : Fleet, H.notifies s =
          (decide (s.rollupState = .waiting) && !s.muted) := by
        intro H
        simp [notifies, Session.shouldNotifySession, solo]
      rw [hushed, notify, replayed]
      cases hn : (decide (s.rollupState = .waiting) && !s.muted) with
      | false => exact Or.inl rfl
      | true =>
        right
        simp [settled, notify, hushed, after, hn]

end Fleet

/-! ## The log and the engine -/

/-- The step is no unmute of a session that is the only soloed one, unmuted, waiting and
unread. -/
def ReplaySafe (store : StateStore) : StoreOp → Prop
  | .unmute id => ¬ ∃ s, store.engine.session id = some s ∧ s.rollupState = .waiting ∧
      s.muted = false ∧ s.soloed = true ∧ s.unread = true ∧
      ∀ w ∈ store.snapshot, w.soloed = true → w.sessionId = id
  | _ => True

/-- Every row the step appends is parsed back to the event it was written for, as the rows of
removals always are. -/
def RowsReadBack (store : StateStore) : StoreOp → Prop
  | .sessionUpsert session =>
    store.log.ReadsBack (.sessionUpsert (store.preserveHubOwnedFields session))
  | .runUpsert id run =>
    (store.engine.session id).isSome → store.log.ReadsBack (.runUpsert id run)
  | .runUpsertSeq id run durableId epoch seq =>
    (store.engine.session id).isSome →
      (store.reclaim.classify durableId epoch seq).drops = false →
        store.log.ReadsBack (.runUpsert id run)
  | .mute id => store.log.UpdatesReadBack (store.engine.applyMute id).2
  | .unmute id => store.log.UpdatesReadBack (store.engine.applyUnmute id).2
  | .solo id => store.log.UpdatesReadBack (store.engine.applySolo id).2
  | .focus id => store.log.UpdatesReadBack (store.engine.applyFocus id).2.toList
  | .sessionRemove _ | .runRemove _ _ | .reapDead _ _ | .sweepExpiredSessions _ _ => True

/-- The live engine and the replay of the log are one fleet, and no append to come fails. -/
structure Synced (store : StateStore) (F : Fleet) : Prop where
  live : Refines store.engine F
  restored : Refines store.log.restored F
  healthy : true ∉ store.log.faults

namespace Synced

variable {store store' : StateStore} {F F' : Fleet}

theorem congr (h : Synced store F) (engine : store'.engine = store.engine)
    (log : store'.log = store.log) : Synced store' F :=
  ⟨engine ▸ h.live, log ▸ h.restored, log ▸ h.healthy⟩

theorem fromLog {log : EventLog} (healthy : true ∉ log.faults) :
    ∃ F, Synced (.fromLog log) F := by
  obtain ⟨F, h⟩ := log.restored_refines
  exact ⟨F, h, h, healthy⟩

theorem safe_unmute (h : Synced store F) {id : String} (safe : ReplaySafe store (.unmute id)) :
    ¬ F.SoleUnreadSolo id := by
  rw [ReplaySafe, h.live.session, StateStore.snapshot, h.live.snapshot] at safe
  exact safe

theorem push (h : Synced store F) {ev : PersistEvent} (read : store.log.ReadsBack ev) :
    Synced { store with
      log := store.log.push ev
      engine := (store.engine.mutate ev.mutation).1 } (F.mutate ev.mutation) := by
  refine ⟨h.live.mutate ev.mutation, ?_, EventLog.push_healthy h.healthy ev⟩
  rw [EventLog.restored_push read]
  exact h.restored.mutate ev.mutation

theorem applySessionUpsert (h : Synced store F) (session : Session)
    (read : store.log.ReadsBack (.sessionUpsert (store.preserveHubOwnedFields session))) :
    ∃ F', Synced (store.applySessionUpsert session).2 F' := by
  rw [StateStore.applySessionUpsert,
    StateStore.logAndApply_ok _ _ (EventLog.head_healthy h.healthy)]
  exact ⟨_, h.push read⟩

theorem applySessionRemove (h : Synced store F) (sessionId : String) :
    ∃ F', Synced (store.applySessionRemove sessionId).2 F' := by
  rcases store.applySessionRemove_cases sessionId with ⟨-, eq⟩ | ⟨-, fault, -⟩ | ⟨-, -, eq⟩
  · exact ⟨F, eq ▸ h⟩
  · rw [EventLog.head_healthy h.healthy] at fault
    cases fault
  · rw [eq]
    exact ⟨_, (h.push (EventLog.readsBack_sessionRemove sessionId)).congr (by simp; rfl) (by simp)⟩

theorem applyRunUpsert (h : Synced store F) (sessionId : String) (run : AgentRun)
    (read : RowsReadBack store (.runUpsert sessionId run)) :
    ∃ F', Synced (store.applyRunUpsert sessionId run).2 F' := by
  rcases store.applyRunUpsert_cases sessionId run with ⟨-, eq⟩ | ⟨-, fault, -⟩ | ⟨present, -, eq⟩
  · exact ⟨F, eq ▸ h⟩
  · rw [EventLog.head_healthy h.healthy] at fault
    cases fault
  · rw [eq]
    exact ⟨_, h.push (read present)⟩

theorem applyRunUpsertSeq (h : Synced store F) (sessionId : String) (run : AgentRun)
    (durableId : DurableId) (epoch seq : Nat)
    (read : RowsReadBack store (.runUpsertSeq sessionId run durableId epoch seq)) :
    ∃ F', Synced (store.applyRunUpsertSeq sessionId run durableId epoch seq).2 F' := by
  rcases store.applyRunUpsertSeq_cases sessionId run durableId epoch seq with
    ⟨-, eq⟩ | ⟨-, -, eq⟩ | ⟨-, -, fault, -⟩ | ⟨present, admitted, -, eq⟩
  · exact ⟨F, eq ▸ h⟩
  · exact ⟨F, eq ▸ h⟩
  · rw [EventLog.head_healthy h.healthy] at fault
    cases fault
  · rw [eq]
    exact ⟨_, (h.push (read present admitted)).congr rfl rfl⟩

theorem applyRunRemove (h : Synced store F) (sessionId runId : String) :
    ∃ F', Synced (store.applyRunRemove sessionId runId).2 F' := by
  rcases store.applyRunRemove_cases sessionId runId with
    ⟨-, eq⟩ | ⟨run, -, fault, -⟩ | ⟨run, -, -, eq⟩
  · exact ⟨F, eq ▸ h⟩
  · rw [EventLog.head_healthy h.healthy] at fault
    cases fault
  · rw [eq]
    have read : store.log.ReadsBack (.runRemove sessionId runId) :=
      EventLog.readsBack_runRemove sessionId runId
    exact ⟨_, (h.push read).congr (by simp; rfl) (by simp)⟩

theorem appendUpdated (sessions : List Session) : ∀ {log : EventLog} {H : Fleet},
    true ∉ log.faults → (∀ s ∈ sessions, log.ReadsBack (.sessionUpsert s)) →
      Refines log.restored H → ∃ log',
      StateStore.appendUpdated sessions log = (none, log') ∧ true ∉ log'.faults ∧
        Refines log'.restored (sessions.foldl Fleet.upsert H) := by
  induction sessions with
  | nil => exact fun {log _} healthy _ h => ⟨log, rfl, healthy, h⟩
  | cons session sessions ih =>
    intro log H healthy read h
    rw [List.forall_mem_cons] at read
    rw [StateStore.appendUpdated, log.append_ok _ (EventLog.head_healthy healthy)]
    refine ih (EventLog.push_healthy healthy _) read.2 ?_
    rw [EventLog.restored_push read.1]
    exact h.mutate (.upsertSession session)

/-- A flag change whose rows replay to the fleet it projected. -/
theorem applyFlagChange (h : Synced store F)
    {project : MergeEngine → MergeEngine × List Event}
    (read : store.log.UpdatesReadBack (project store.engine).2)
    (projected : Refines (project store.engine).1 F')
    (rows : ((project store.engine).2.filterMap sessionOfUpdated).foldl Fleet.upsert F = F') :
    Synced (store.applyFlagChange project).2 F' := by
  obtain ⟨log', outcome, healthy, restored⟩ :=
    appendUpdated ((project store.engine).2.filterMap sessionOfUpdated) h.healthy read h.restored
  simp only [StateStore.applyFlagChange, outcome]
  exact ⟨projected, rows ▸ restored, healthy⟩

/-- The row of a focus is the session with its flag cleared. -/
theorem applyFocus (h : Synced store F) (sessionId : String)
    (read : RowsReadBack store (.focus sessionId)) :
    ∃ F', Synced (store.applyFocus sessionId).2 F' := by
  unfold StateStore.applyFocus
  rcases store.engine.applyFocus_cases sessionId with eq | ⟨s, found, eq⟩
  · rw [eq]
    exact ⟨F, h⟩
  · have row : store.log.ReadsBack (.sessionUpsert (Edit.read s)) := by
      rw [RowsReadBack, eq] at read
      exact read (Edit.read s) (List.mem_singleton.mpr rfl)
    rw [h.live.session] at found
    have refined := (h.live.applyFocus sessionId).1
    rw [eq] at refined
    have now : MergeEngine.session
        { store.engine with sessions := store.engine.sessions.insert sessionId (Edit.read s) }
        sessionId = some (Edit.read s) := AList.lookup_insert _
    simp only [eq, StateStore.persistSessionSnapshot, now,
      EventLog.append_ok _ _ (EventLog.head_healthy h.healthy)]
    refine ⟨_, refined, ?_, EventLog.push_healthy h.healthy _⟩
    rw [EventLog.restored_push row, ← Fleet.put_eq_edit found]
    have landed : F.landed (Edit.read s) = Edit.read s := by
      have rolled := F.rolledUp s (Fleet.get?_eq_some_iff.mp found).1
      refine Fleet.landed_eq_self (Edit.read.rolledUp s rolled) (s := s) ?_ (Or.inl rfl)
      rw [Edit.sessionId_act, (Fleet.get?_eq_some_iff.mp found).2, found]
    have replayed := h.restored.mutate (.upsertSession (Edit.read s))
    rw [Fleet.mutate, Fleet.upsert] at replayed
    simp only [landed] at replayed
    exact replayed

theorem perform (parseEpochSecs : String → Option Int) (h : Synced store F) (op : StoreOp)
    (safe : ReplaySafe store op) (read : RowsReadBack store op) :
    ∃ F', Synced (store.perform parseEpochSecs op) F' := by
  cases op with
  | sessionUpsert session => exact h.applySessionUpsert session read
  | sessionRemove sessionId => exact h.applySessionRemove sessionId
  | runUpsert sessionId run => exact h.applyRunUpsert sessionId run read
  | runUpsertSeq sessionId run durableId epoch seq =>
    exact h.applyRunUpsertSeq sessionId run durableId epoch seq read
  | runRemove sessionId runId => exact h.applyRunRemove sessionId runId
  | mute sessionId =>
    have spec := h.live.applyMute sessionId
    exact ⟨_, h.applyFlagChange read spec.1
      (Fleet.foldl_upsert_updates (Fleet.lands_mute sessionId) spec.2)⟩
  | unmute sessionId =>
    have spec := h.live.applyUnmute sessionId
    exact ⟨_, h.applyFlagChange read spec.1
      (Fleet.foldl_upsert_updates (Fleet.lands_unmute (h.safe_unmute safe)) spec.2)⟩
  | solo sessionId =>
    by_cases present : (F.get? sessionId).isSome
    · have spec := h.live.applySolo sessionId present
      exact ⟨_, h.applyFlagChange read spec.1
        (Fleet.foldl_upsert_updates (Fleet.lands_solo present) spec.2)⟩
    · have absent : F.get? sessionId = none := by simpa using present
      have nothing := h.live.applySolo_absent absent
      exact ⟨F, h.applyFlagChange read (by rw [nothing]; exact h.live) (by rw [nothing]; rfl)⟩
  | focus sessionId => exact h.applyFocus sessionId read
  | reapDead now grace =>
    refine StateStore.removeAll_invariant (P := fun store => ∃ F, Synced store F) ?_ _ ⟨F, h⟩
    exact fun _ v ⟨_, h⟩ => h.applyRunRemove v.1 v.2
  | sweepExpiredSessions now ttl =>
    refine StateStore.removeAll_invariant (P := fun store => ∃ F, Synced store F) ?_ _ ⟨F, h⟩
    exact fun _ v ⟨_, h⟩ => h.applySessionRemove v

end Synced

/-- A replay of the log gives the live snapshot after every run of mutations, over a store opened
on any log, in which no append fails, every row that is appended is parsed back to its event and no
unmute is the one of `ReplaySafe`. -/
theorem replay_eq_live (parseEpochSecs : String → Option Int) (log : EventLog)
    (healthy : true ∉ log.faults) (ops : List StoreOp)
    (read : Along (StateStore.perform parseEpochSecs) RowsReadBack (.fromLog log) ops)
    (safe : Along (StateStore.perform parseEpochSecs) ReplaySafe (.fromLog log) ops) :
    let store := ops.foldl (StateStore.perform parseEpochSecs) (.fromLog log)
    (store.log.replayInto .new).1.snapshot = store.snapshot := by
  intro store
  have synced : ∃ F, Synced store F := by
    refine Along.invariant (P := fun store => ∃ F, Synced store F) ?_ ops _
      (Synced.fromLog healthy) (read.inter safe)
    rintro store op ⟨F, h⟩ hop
    exact h.perform parseEpochSecs op hop.2 hop.1
  obtain ⟨F, h⟩ := synced
  rw [StateStore.snapshot, h.live.snapshot]
  exact h.restored.snapshot

/-- Two waiting sessions, a solo, a focus and the unmute that ends the solo, over a log with a torn
row. -/
theorem replay_eq_live_solo_ended :
    let store := [StoreOp.sessionUpsert (.plain "a" [.plain "r" "n" .waiting]),
      .sessionUpsert (.plain "b" [.plain "q" "m" .waiting]), .solo "a", .focus "a",
      .unmute "a"].foldl (StateStore.perform (fun _ => none))
        (.fromLog { rows := [none], faults := [] })
    (store.log.replayInto .new).1.snapshot = store.snapshot := by
  refine replay_eq_live (fun _ => none) { rows := [none], faults := [] } (by decide) _
    ⟨rfl, rfl, ?_, ?_, ?_, trivial⟩ ⟨trivial, trivial, trivial, trivial, ?_, trivial⟩
  · exact List.forall_iff_forall_mem.mp ⟨rfl, rfl⟩
  · exact List.forall_iff_forall_mem.mp rfl
  · exact List.forall_iff_forall_mem.mp ⟨rfl, rfl⟩
  · rintro ⟨s, found, -, -, -, unread, -⟩
    have seen : (some s).map (fun s => s.unread) = some false := by
      rw [← found]
      rfl
    rw [Option.map_some, unread] at seen
    cases seen

/-- Unmuting the one soloed session while it is unread: live it stays unread, and its row, read
back while the session still stands there soloed, clears the flag. -/
theorem replay_forgets_unread_on_unsolo :
    ¬ ∀ (parseEpochSecs : String → Option Int) (log : EventLog), true ∉ log.faults →
      ∀ ops : List StoreOp,
        let store := ops.foldl (StateStore.perform parseEpochSecs) (.fromLog log)
        (store.log.replayInto .new).1.snapshot = store.snapshot := by
  intro equal
  have snapshots := equal (fun _ => none) (.holding [] []) (by decide)
    [.sessionUpsert (.plain "a" [.plain "r" "n" .waiting]), .solo "a", .unmute "a"]
  have flags := congrArg (List.map (fun s => s.unread)) snapshots
  revert flags
  decide

/-- A field nested so deep that the row of its run just fits is too deep for the row of its session:
a replay skips the row of a later mute. -/
example :
    let store := [StoreOp.sessionUpsert (.plain "a" []),
      .runUpsert "a" { AgentRun.plain "r" "n" .idle with
        extra := [("future_run_field", nestedArrays 124)] }, .mute "a"].foldl
      (StateStore.perform (fun _ => none)) (.fromLog (.holding [] []))
    store.snapshot.map (fun s => s.muted) = [true] ∧
      (store.log.replayInto .new).1.snapshot.map (fun s => s.muted) = [false] := by
  decide +kernel

end VsFleet
