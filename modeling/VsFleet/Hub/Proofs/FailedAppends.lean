import VsFleet.Hub.Proofs.Marks
import VsFleet.Hub.Proofs.Replay

/-!
# What a failed append leaves behind

The store appends a row before it projects it, so an append that fails leaves the engine alone. Two
operations do more than that one pair of steps: a stamped delta is admitted before it is appended,
and a flag change appends one row for each session it touched. What each of them has done by the
time an append fails stays done.
-/

namespace VsFleet

namespace StateStore

variable (store : StateStore)

/-! ## A stamped delta -/

/-- The store with other outcomes of the appends to come. -/
def mended (faults : List Bool) : StateStore := { store with log := { store.log with faults } }

/-- A call that fails leaves the engine, the marks and the index as they were, and the same delta is
applied when it comes again over a log that works. -/
def StampedAtomic (sessionId : String) (run : AgentRun) (durableId : DurableId)
    (epoch seq : Nat) : Prop :=
  ∀ error store', store.applyRunUpsertSeq sessionId run durableId epoch seq =
      (.error error, store') →
    store'.engine = store.engine ∧
    (∀ d, store'.reclaim.mark d = store.reclaim.mark d) ∧
    (∀ id, store'.durablesOf id = store.durablesOf id) ∧
    ∀ faults, faults.headD false = false → ∃ decision events,
      ((store'.mended faults).applyRunUpsertSeq sessionId run durableId epoch seq).1 =
        .ok (decision, events) ∧ decision.applies = true

variable (sessionId : String) (run : AgentRun) (durableId : DurableId) (epoch seq : Nat)

theorem mark_admitted
    (applies : (store.reclaim.classify durableId epoch seq).applies = true) :
    (store.admitted sessionId durableId epoch seq).reclaim.mark durableId = some ⟨epoch, seq⟩ := by
  rw [admitted, ReclaimTable.mark_admitDelta, if_pos ⟨rfl, applies⟩]

/-- The gate takes a delta it has admitted for a duplicate. -/
theorem classify_admitted
    (applies : (store.reclaim.classify durableId epoch seq).applies = true) :
    (store.admitted sessionId durableId epoch seq).reclaim.classify durableId epoch seq =
      .duplicateDrop := by
  have marked := store.mark_admitted sessionId durableId epoch seq applies
  rw [ReclaimTable.mark] at marked
  simp [ReclaimTable.classify, marked]

/-- A delta the gate drops leaves the store as it was. -/
theorem applyRunUpsertSeq_dropped (live : (store.engine.session sessionId).isSome)
    (drops : (store.reclaim.classify durableId epoch seq).drops = true) :
    store.applyRunUpsertSeq sessionId run durableId epoch seq =
      (.ok (store.reclaim.classify durableId epoch seq, []), store) := by
  rcases store.applyRunUpsertSeq_cases sessionId run durableId epoch seq with
    ⟨absent, -⟩ | ⟨-, -, eq⟩ | ⟨-, admits, -⟩ | ⟨-, admits, -⟩
  · rw [absent] at live
    cases live
  · exact eq
  · rw [drops] at admits
    cases admits
  · rw [drops] at admits
    cases admits

/-- A failed call has admitted its delta, and drops it when it comes again. -/
theorem applyRunUpsertSeq_failed (live : (store.engine.session sessionId).isSome)
    (admits : (store.reclaim.classify durableId epoch seq).drops = false)
    (fault : store.log.faults.headD false = true) :
    ∃ store', store.applyRunUpsertSeq sessionId run durableId epoch seq =
        (.error .sqlite, store') ∧ store'.engine = store.engine ∧
      store'.reclaim.mark durableId = some ⟨epoch, seq⟩ ∧
      ∀ faults, ((store'.mended faults).applyRunUpsertSeq sessionId run durableId epoch seq).1 =
        .ok (.duplicateDrop, []) := by
  have applies : (store.reclaim.classify durableId epoch seq).applies = true := by
    simpa [Decision.drops] using admits
  rcases store.applyRunUpsertSeq_cases sessionId run durableId epoch seq with
    ⟨absent, -⟩ | ⟨-, drops, -⟩ | ⟨-, -, -, eq⟩ | ⟨-, -, works, -⟩
  · rw [absent] at live
    cases live
  · rw [admits] at drops
    cases drops
  · refine ⟨_, eq, rfl, store.mark_admitted sessionId durableId epoch seq applies, fun faults => ?_⟩
    have again := store.classify_admitted sessionId durableId epoch seq applies
    have dropped := (({ store.admitted sessionId durableId epoch seq with
      log := store.log.failed } : StateStore).mended faults).applyRunUpsertSeq_dropped
        sessionId run durableId epoch seq live (by rw [mended, again]; rfl)
    rw [dropped]
    exact congrArg (fun decision => Except.ok (decision, [])) again
  · rw [fault] at works
    cases works

/-- A failed delta leaves no trace exactly where none fails: its session is unknown, the gate drops
it, or its append succeeds. -/
theorem stampedAtomic_iff :
    store.StampedAtomic sessionId run durableId epoch seq ↔
      (store.engine.session sessionId).isNone ∨
      (store.reclaim.classify durableId epoch seq).drops = true ∨
      store.log.faults.headD false = false := by
  constructor
  · intro atomic
    by_contra fails
    rw [not_or, not_or, Bool.not_eq_true, Bool.not_eq_true, Bool.not_eq_false,
      Option.isNone_eq_false_iff] at fails
    obtain ⟨live, admits, fault⟩ := fails
    obtain ⟨store', failed, -, -, dropped⟩ :=
      store.applyRunUpsertSeq_failed sessionId run durableId epoch seq live admits fault
    obtain ⟨decision, events, again, applies⟩ := (atomic _ store' failed).2.2.2 [] rfl
    rw [dropped] at again
    cases again
    cases applies
  · intro fine error store' failed
    rcases store.applyRunUpsertSeq_cases sessionId run durableId epoch seq with
      ⟨-, eq⟩ | ⟨-, -, eq⟩ | ⟨live, admits, fault, -⟩ | ⟨-, -, -, eq⟩
    · rw [eq] at failed
      cases failed
    · rw [eq] at failed
      cases failed
    · rw [admits, fault, Option.isNone_iff_eq_none] at fine
      rcases fine with absent | impossible | impossible
      · rw [absent] at live
        cases live
      · cases impossible
      · cases impossible
    · rw [eq] at failed
      cases failed

/-- The first delta of a run fails to be appended, and is a duplicate ever after. -/
theorem failed_delta_dropped : ¬ ∀ (store : StateStore) (sessionId : String) (run : AgentRun)
    (durableId : DurableId) (epoch seq : Nat),
    store.StampedAtomic sessionId run durableId epoch seq := by
  intro atomic
  obtain ⟨store', failed, -, marked, -⟩ := applyRunUpsertSeq_failed
    (.fromLog (.holding [.sessionUpsert (.plain "s" [])] [true])) "s" (.plain "r" "n" .waiting)
    ⟨"n"⟩ 0 1 rfl rfl rfl
  have unmarked := (atomic _ _ _ _ _ _ _ _ failed).2.1 ⟨"n"⟩
  rw [marked] at unmarked
  cases unmarked

end StateStore

/-! ## What a flag change appends -/

theorem Session.updateUnread_moved {s : Session} {old new : Bool}
    (moved : (s.updateUnreadForNotifyTransition old new).2 = true) :
    (s.settle old new).unread ≠ s.unread := by
  obtain ⟨_, _, _, _, _, _, _, _, _, _, _, unread, _, _, _, _⟩ := s
  cases old <;> cases new <;> cases unread <;>
    simp [updateUnreadForNotifyTransition] at moved ⊢

/-- An edit of flags is undone by no settling of the unread flag. -/
theorem Session.settle_ne {s w : Session} {old new : Bool} (unread : w.unread = s.unread)
    (moved : w ≠ s) : w.settle old new ≠ s := by
  intro same
  apply moved
  have kept : { w.settle old new with unread := w.unread } = w := rfl
  rw [← kept, same, unread]

/-- The events are updates for sessions that the edit changed. -/
def Fleet.Changes (F : Fleet) (g : Edit) (events : List Event) : Prop :=
  ∃ moved : Session → Bool,
    events = (F.sessions.filter moved).map (fun s => Event.ofSessionUpdated (g s)) ∧
    ∀ s ∈ F.sessions, moved s = true → g s ≠ s

theorem Fleet.changes_nil {F : Fleet} {g : Edit} : F.Changes g [] :=
  ⟨fun _ => false, by simp, by simp⟩

theorem MergeEngine.setSoloFlag_changed (e : MergeEngine) (id : String) {s : Session}
    (found : e.sessions.lookup id = some s) :
    (e.setSoloFlag id).2 = (!s.soloed || s.muted) := by
  simp only [setSoloFlag, found]
  split
  · rename_i unlike
    exact unlike.symm
  · rename_i already
    exact (Bool.eq_false_iff.mpr already).symm

namespace Refines

variable {e e' : MergeEngine} {F : Fleet}

theorem reconcile_changed (h : Refines e F) (oldNotify : String → Option Bool) {s : Session}
    (hs : s ∈ F.sessions) (changed : s.sessionId ∈ (e.reconcileUnreadFrom oldNotify).2) :
    (s.settle ((oldNotify s.sessionId).getD false) (F.notifies s)).unread ≠ s.unread := by
  have found : e.sessions.lookup s.sessionId = some s := by
    rw [h.lookup, Fleet.get?_of_mem hs]
  rw [MergeEngine.reconcileUnreadFrom,
    MergeEngine.reconcileUnreadLoop_changed _ _ _ _ h.indexed.nodup, found, h.anySoloed]
    at changed
  obtain ⟨-, s', same, moved⟩ := changed
  rw [Option.some.injEq] at same
  subst same
  exact Session.updateUnread_moved moved

/-- The updates of a flag change are about the sessions `ids` and those whose unread flag moved. -/
theorem reflag_changes (h : Refines e F) {g : Edit} (h' : Refines e' (F.edit g))
    (unread : ∀ s, (g s).unread = s.unread) (ids : List String)
    (hids : ∀ s ∈ F.sessions, s.sessionId ∈ ids → g s ≠ s) :
    F.Changes (F.settled (F.edit g) g)
      ((e'.reconcileUnreadFrom e.notifyMap).1.updatedEventsFor
        (ids ++ (e'.reconcileUnreadFrom e.notifyMap).2)) := by
  have refined := h.reflag_refines h'
  generalize hchanged : (e'.reconcileUnreadFrom e.notifyMap).2 = changed
  refine ⟨fun s => s.sessionId ∈ ids ++ changed, ?_, ?_⟩
  · rw [refined.updatedEventsFor, Fleet.reflag, Fleet.edit_sessions, List.filter_map,
      List.map_map]
    simp only [Function.comp_def, Edit.sessionId_act]
  · intro s hs touched
    rcases List.mem_append.mp (of_decide_eq_true touched) with edited | rearmed
    · exact Session.settle_ne (unread s) (hids s hs edited)
    · have hmem : g s ∈ (F.edit g).sessions := List.mem_map_of_mem hs
      have moved := h'.reconcile_changed e.notifyMap hmem (by
        rw [hchanged, g.sessionId_act]
        exact rearmed)
      rw [g.sessionId_act, h.notifyMap_of_mem hs, Option.getD_some, unread] at moved
      exact fun same => moved (congrArg (fun w => w.unread) same)

theorem reflag_one_changes (h : Refines e F) {id : String} {s : Session}
    (found : F.get? id = some s) {g : Edit} (unread : ∀ w, (g w).unread = w.unread)
    (moved : g s ≠ s) :
    F.Changes (F.settled (F.edit (.only id g)) (.only id g))
      ((({ e with sessions := HashMap.modify e.sessions id g } :
          MergeEngine).reconcileUnreadFrom e.notifyMap).1.updatedEventsFor
        (id :: (({ e with sessions := HashMap.modify e.sessions id g } :
          MergeEngine).reconcileUnreadFrom e.notifyMap).2)) := by
  refine h.reflag_changes (h.modify id g) ?_ [id] ?_
  · exact Edit.only_keeps (R := fun w' w => w'.unread = w.unread) (fun _ => rfl) unread id
  · intro w hw own
    rw [List.mem_singleton] at own
    have same : w = s := by rwa [← own, Fleet.get?_of_mem hw, Option.some.injEq] at found
    subst same
    rw [Edit.only]
    simp only [own, if_true]
    exact moved

theorem applyMute_changes (h : Refines e F) (id : String) :
    F.Changes (F.settled (F.edit (.only id .mute)) (.only id .mute)) (e.applyMute id).2 := by
  unfold MergeEngine.applyMute
  rw [h.lookup]
  cases found : F.get? id with
  | none => exact Fleet.changes_nil
  | some s =>
    simp only
    split
    · exact Fleet.changes_nil
    · rename_i unlike
      refine h.reflag_one_changes found (g := Edit.mute) (fun _ => rfl) (fun same => unlike ?_)
      rw [← same]
      rfl

theorem applyUnmute_changes (h : Refines e F) (id : String) :
    F.Changes (F.settled (F.edit (.only id .unmute)) (.only id .unmute)) (e.applyUnmute id).2 := by
  unfold MergeEngine.applyUnmute
  rw [h.lookup]
  cases found : F.get? id with
  | none => exact Fleet.changes_nil
  | some s =>
    simp only
    split
    · exact Fleet.changes_nil
    · rename_i unlike
      refine h.reflag_one_changes found (g := Edit.unmute) (fun _ => rfl) (fun same => unlike ?_)
      rw [← same]
      rfl

theorem applySolo_changes (h : Refines e F) (id : String) :
    F.Changes (F.settled (F.edit (.solo id)) (.solo id)) (e.applySolo id).2 := by
  unfold MergeEngine.applySolo
  split
  · exact Fleet.changes_nil
  · refine h.reflag_changes (h.soloPasses id) (fun _ => rfl) _ ?_
    intro s hs touched same
    have soloed : decide (s.sessionId = id) = s.soloed := congrArg (fun w => w.soloed) same
    have muted : (if s.sessionId = id then false else s.muted) = s.muted :=
      congrArg (fun w => w.muted) same
    have found : e.sessions.lookup s.sessionId = some s := by
      rw [h.lookup, Fleet.get?_of_mem hs]
    have own : s.sessionId ∉ (MergeEngine.clearOtherSolos id e.order e).2 := by
      intro cleared
      rw [MergeEngine.clearOtherSolos_changed _ _ _ h.indexed.nodup, found] at cleared
      obtain ⟨⟨-, other⟩, s', here, solo⟩ := cleared
      rw [Option.some.injEq] at here
      rw [here] at soloed other
      rw [solo, decide_eq_true_iff] at soloed
      exact other soloed
    split at touched
    · rename_i moved
      have this : s.sessionId = id := by
        simpa [own] using touched
      rw [MergeEngine.setSoloFlag_changed _ id (s := s) (by
        rw [MergeEngine.clearOtherSolos_lookup _ _ _ h.indexed.nodup, if_neg (by simp), ← this,
          found])] at moved
      rw [decide_eq_true this] at soloed
      rw [if_pos this] at muted
      rw [← soloed, ← muted] at moved
      cases moved
    · exact own touched

end Refines

/-! ## The rows of a flag change -/

namespace Fleet

variable {F : Fleet}

/-- A replayed upsert leaves no changed session as it was: with the flags of the session it replaces
it settles nothing. -/
theorem landed_ne {w s : Session} (rolledUp : w.RolledUp) (found : F.get? w.sessionId = some s)
    (moved : w ≠ s) : F.landed w ≠ s := by
  intro same
  have settled : F.landed w = w.settle (F.notifies s) (F.notifies w) := by
    unfold Session.RolledUp at rolledUp
    rw [landed, rolledUp, found]
    rfl
  rw [settled] at same
  have notify : F.notifies w = F.notifies s := by
    rw [← same]
    rfl
  rw [notify, Session.settle_self] at same
  exact moved same

theorem get?_foldl_upsert (rows : List Session) {id : String} : ∀ {F : Fleet},
    id ∉ rows.map (fun s => s.sessionId) → (rows.foldl Fleet.upsert F).get? id = F.get? id := by
  induction rows with
  | nil => exact fun _ => rfl
  | cons w rows ih =>
    intro F fresh
    rw [List.map_cons, List.mem_cons, not_or] at fresh
    rw [List.foldl_cons, ih fresh.2, get?_upsert, if_neg (Ne.symm fresh.1)]

/-- A beginning of the rows of a flag change replays to the fleet it started from only where it is
empty. -/
theorem Changes.replay_iff {G : Edit} {events : List Event} (changes : F.Changes G events) {k : Nat}
    (hk : k ≤ (events.filterMap sessionOfUpdated).length) :
    (((events.filterMap sessionOfUpdated).take k).foldl Fleet.upsert F).sessions = F.sessions ↔
      k = 0 := by
  obtain ⟨moved, rfl, changed⟩ := changes
  have rows : ((F.sessions.filter moved).map (fun s =>
      Event.ofSessionUpdated (G s))).filterMap sessionOfUpdated =
      (F.sessions.filter moved).map G := by
    rw [List.filterMap_map]
    exact congrFun List.filterMap_eq_map' _
  rw [rows] at hk ⊢
  constructor
  · intro same
    cases k with
    | zero => rfl
    | succ k =>
      exfalso
      cases chosen : F.sessions.filter moved with
      | nil =>
        rw [chosen] at hk
        cases hk
      | cons s rest =>
        have hs := List.mem_filter.mp (chosen ▸ List.mem_cons_self)
        have distinct : ((s :: rest).map (fun w => w.sessionId)).Nodup := by
          rw [← chosen]
          exact F.distinct.sublist (List.filter_sublist.map _)
        have fresh : s.sessionId ∉ ((rest.map G).take k).map (fun w => w.sessionId) := by
          intro again
          obtain ⟨w, hw, own⟩ := List.mem_map.mp again
          obtain ⟨v, hv, rfl⟩ := List.mem_map.mp (List.mem_of_mem_take hw)
          rw [List.map_cons, List.nodup_cons] at distinct
          exact distinct.1 (List.mem_map.mpr ⟨v, hv, (G.sessionId_act v).symm.trans own⟩)
        rw [chosen, List.map_cons, List.take_succ_cons, List.foldl_cons] at same
        have kept := get?_foldl_upsert ((rest.map G).take k) (F := F.upsert (G s)) fresh
        rw [Fleet.ext same, get?_of_mem hs.1, get?_upsert, if_pos (G.sessionId_act s),
          Option.some.injEq] at kept
        refine landed_ne (G.rolledUp s (F.rolledUp s hs.1)) ?_ (changed s hs.1 hs.2) kept.symm
        rw [G.sessionId_act]
        exact get?_of_mem hs.1
  · rintro rfl
    rfl

end Fleet

/-! ## The flag changes -/

/-- Of the appends to come `k` succeed and the next one fails. -/
def FirstFault (faults : List Bool) (k : Nat) : Prop :=
  ∃ later, faults = List.replicate k false ++ true :: later

/-- The rows appended before the one that failed stay in the log. -/
theorem StateStore.appendUpdated_failed (rows : List Session) : ∀ {log : EventLog} {H : Fleet}
    {k : Nat}, Refines log.restored H → k < rows.length → FirstFault log.faults k →
      (∀ s ∈ rows.take k, log.ReadsBack (.sessionUpsert s)) →
      ∃ log', appendUpdated rows log = (some .sqlite, log') ∧
        Refines log'.restored ((rows.take k).foldl Fleet.upsert H) := by
  induction rows with
  | nil =>
    intro log H k _ hk
    cases hk
  | cons row rows ih =>
    rintro log H k h hk ⟨later, faults⟩ read
    cases k with
    | zero =>
      rw [appendUpdated, log.append_failed _ (by rw [faults]; rfl)]
      exact ⟨log.failed, rfl, h⟩
    | succ k =>
      rw [appendUpdated, log.append_ok _ (by rw [faults]; rfl)]
      rw [List.take_succ_cons, List.forall_mem_cons] at read
      refine ih (k := k) ?_ (Nat.lt_of_succ_lt_succ hk) ⟨later, ?_⟩ read.2
      · rw [EventLog.restored_push read.1]
        exact h.mutate (.upsertSession row)
      · rw [EventLog.push, faults]
        rfl

theorem StateStore.appendUpdated_error (rows : List Session) : ∀ {log log' : EventLog}
    {error : PersistError}, appendUpdated rows log = (some error, log') →
      ∃ k, k < rows.length ∧ FirstFault log.faults k := by
  induction rows with
  | nil =>
    intro log log' error failed
    cases failed
  | cons row rows ih =>
    intro log log' error failed
    cases faults : log.faults with
    | nil =>
      rw [appendUpdated, log.append_ok _ (by rw [faults]; rfl)] at failed
      obtain ⟨k, -, later, none⟩ := ih failed
      rw [EventLog.push, faults] at none
      cases k <;> cases none
    | cons fault rest =>
      cases fault with
      | true => exact ⟨0, Nat.succ_pos _, rest, rfl⟩
      | false =>
        rw [appendUpdated, log.append_ok _ (by rw [faults]; rfl)] at failed
        obtain ⟨k, hk, later, rest_eq⟩ := ih failed
        rw [EventLog.push, faults] at rest_eq
        exact ⟨k + 1, Nat.succ_lt_succ hk, later, congrArg (List.cons false) rest_eq⟩

/-- A flag change and the session it is about. -/
inductive FlagChange where
  | mute (sessionId : String)
  | unmute (sessionId : String)
  | solo (sessionId : String)

namespace FlagChange

/-- What the change projects on the engine. -/
def project : FlagChange → MergeEngine → MergeEngine × List Event
  | .mute sessionId, engine => engine.applyMute sessionId
  | .unmute sessionId, engine => engine.applyUnmute sessionId
  | .solo sessionId, engine => engine.applySolo sessionId

/-- The store after the change, with what the call returns. -/
def apply (store : StateStore) : FlagChange → Except PersistError (List Event) × StateStore
  | .mute sessionId => store.applyMute sessionId
  | .unmute sessionId => store.applyUnmute sessionId
  | .solo sessionId => store.applySolo sessionId

theorem apply_eq (store : StateStore) (change : FlagChange) :
    change.apply store = store.applyFlagChange change.project := by
  cases change <;> rfl

theorem changes (change : FlagChange) {e : MergeEngine} {F : Fleet} (h : Refines e F) :
    ∃ G, F.Changes G (change.project e).2 := by
  cases change with
  | mute id => exact ⟨_, h.applyMute_changes id⟩
  | unmute id => exact ⟨_, h.applyUnmute_changes id⟩
  | solo id => exact ⟨_, h.applySolo_changes id⟩

end FlagChange

namespace StateStore

variable (store : StateStore) (change : FlagChange) (k : Nat)

/-- The sessions a flag change appends. -/
def flagRows : List Session := (change.project store.engine).2.filterMap sessionOfUpdated

/-- The flag change returns an error because the append after its first `k` fails. -/
def FailsAt : Prop := k < (store.flagRows change).length ∧ FirstFault store.log.faults k

/-- A replay parses the rows before the one that fails back to their sessions. -/
def RowsRead : Prop :=
  ∀ s ∈ (store.flagRows change).take k, store.log.ReadsBack (.sessionUpsert s)

/-- A replay of the log gives the state of the store. -/
def InStep : Prop := store.log.restored.snapshot = store.snapshot

/-- The engine is as before the flag change, and the log replays to the state before it. -/
def RolledBack : Prop :=
  let after := (change.apply store).2
  (after.snapshot = store.snapshot ∧
    ∀ id, after.engine.session id = store.engine.session id) ∧
  after.log.restored.snapshot = store.snapshot

variable {store change k}

/-- A flag change fails in no other way. -/
theorem failsAt_of_error {error : PersistError} {store' : StateStore}
    (failed : change.apply store = (.error error, store')) : ∃ k, store.FailsAt change k := by
  rw [FlagChange.apply_eq, applyFlagChange] at failed
  simp only at failed
  split at failed
  · cases failed
  · rename_i outcome
    exact appendUpdated_error _ outcome

theorem FailsAt.apply {F L : Fleet} (h : Refines store.engine F)
    (restored : Refines store.log.restored L) (fails : store.FailsAt change k)
    (read : store.RowsRead change k) :
    ∃ store', change.apply store = (.error .sqlite, store') ∧ Refines store'.engine F ∧
      Refines store'.log.restored (((store.flagRows change).take k).foldl Fleet.upsert L) := by
  obtain ⟨log', outcome, replayed⟩ := appendUpdated_failed _ restored fails.1 fails.2 read
  rw [flagRows] at outcome
  rw [FlagChange.apply_eq]
  simp only [applyFlagChange, outcome, h.snapshot]
  exact ⟨_, rfl, Refines.restore F, replayed⟩

/-- The engine always is as before; the log is where the rows before the one that fails change
nothing. -/
theorem FailsAt.rolledBack_iff {F L : Fleet} (h : Refines store.engine F)
    (restored : Refines store.log.restored L) (fails : store.FailsAt change k)
    (read : store.RowsRead change k) : store.RolledBack change ↔
      (((store.flagRows change).take k).foldl Fleet.upsert L).sessions = F.sessions := by
  obtain ⟨store', failed, rolled, replayed⟩ := fails.apply h restored read
  have memory : store'.snapshot = store.snapshot ∧
      ∀ id, store'.engine.session id = store.engine.session id := by
    refine ⟨rolled.snapshot.trans h.snapshot.symm, fun id => ?_⟩
    rw [rolled.session, h.session]
  rw [RolledBack, failed, and_iff_right memory, replayed.snapshot, snapshot, h.snapshot]

/-- The engine is always rolled back; the log holds what it should exactly where the first append
of the change is the one that fails, over a log that was in step and gives back the rows it was
given. -/
theorem flag_change_atomic_iff {parseEpochSecs : String → Option Int}
    (reached : store.Reached parseEpochSecs) (fails : store.FailsAt change k) :
    (store.InStep → store.RowsRead change k → (store.RolledBack change ↔ k = 0)) ∧
      (k = 0 → (store.RolledBack change ↔ store.InStep)) := by
  obtain ⟨F, h⟩ := reached.refines
  obtain ⟨L, restored⟩ := store.log.restored_refines
  have inStep_iff : store.InStep ↔ L.sessions = F.sessions := by
    rw [InStep, restored.snapshot, snapshot, h.snapshot]
  constructor
  · intro inStep read
    have same : L = F := Fleet.ext (inStep_iff.mp inStep)
    subst same
    obtain ⟨G, changes⟩ := change.changes h
    rw [fails.rolledBack_iff h restored read]
    exact changes.replay_iff (Nat.le_of_lt fails.1)
  · rintro rfl
    rw [fails.rolledBack_iff h restored (by simp [RowsRead]), inStep_iff]
    rfl

/-- The one row of a mute fails to be appended. -/
theorem flag_change_atomic_iff_mute :
    (StateStore.fromLog (.holding [.sessionUpsert (.plain "a" [])] [true])).RolledBack
      (.mute "a") := by
  obtain ⟨k, fails⟩ : ∃ k, (fromLog (.holding [.sessionUpsert (.plain "a" [])] [true])).FailsAt
      (.mute "a") k := failsAt_of_error rfl
  obtain rfl : k = 0 := Nat.lt_one_iff.mp fails.1
  have reached : (fromLog (.holding [.sessionUpsert (.plain "a" [])] [true])).Reached
      (fun _ => none) := .opened _
  exact ((flag_change_atomic_iff reached fails).1 rfl (by simp [RowsRead])).mpr rfl

/-- A solo that moves from `a` to `b` fails at its second row: a restart finds no session soloed. -/
theorem failed_solo_splits : ¬ ∀ (parseEpochSecs : String → Option Int) (store : StateStore)
    (change : FlagChange) (k : Nat), store.Reached parseEpochSecs → store.FailsAt change k →
      store.RolledBack change := by
  intro rolledBack
  have replayed := (rolledBack (fun _ => none)
    (.fromLog (.holding [.sessionUpsert { Session.plain "a" [] with soloed := true },
      .sessionUpsert (.plain "b" [])] [false, true])) (.solo "b") 1
    (.opened _) ⟨by decide, [], rfl⟩).2
  have flags := congrArg (List.map (fun s => s.soloed)) replayed
  revert flags
  decide

end StateStore

end VsFleet
