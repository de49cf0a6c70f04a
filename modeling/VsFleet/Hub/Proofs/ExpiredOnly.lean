import VsFleet.Hub.Proofs.MessageSteps
import VsFleet.Hub.Proofs.RollupOrder
import VsFleet.Misc.Duration

/-!
# Garbage collection removes the expired

The runs a reap removes are those whose id is the id of an expired dead run of their session, the
sessions a sweep removes are the expired ones. A session that loses a run has its rollups computed
again; the unread mark of a session follows a change of whether it should notify, which is all a
sweep changes in the sessions it leaves, and only when the last soloed session goes. The cutoff is
a text that is read again, so what the parser does with it is assumed for the one text.
-/

namespace VsFleet

/-! ## The cutoff -/

/-- The first second of the year 0. -/
def yearZero : Int := -62167219200

/-- The first second that a stamp can be read as. -/
def firstSecond : Int := -377705023201

/-- The last one. -/
def lastSecond : Int := 253402207200

section Cutoff

variable (parseEpochSecs : String → Option Int) (now : String) (age : Duration)

/-- The stamp reads as a time that lies more than `age` before the one `now` reads as. -/
def expired (stamp : String) : Bool :=
  match parseEpochSecs now, parseEpochSecs stamp with
  | some e, some u => u * 1000000000 + (age.secs * 1000000000 + age.nanos) < e * 1000000000
  | _, _ => false

/-- The second `subtract` writes for a `now` that reads as `e`. -/
def cutoffSecond (e : Int) : Int := saturatingSub e (secsAsI64 age.secs)

/-- What the parser does: it reads times of a bounded range, and the text that `format_iso` writes
for the cutoff where that is a time of the range with a year of four digits. -/
structure CutoffRead : Prop where
  range : ∀ stamp u, parseEpochSecs stamp = some u → firstSecond ≤ u ∧ u ≤ lastSecond
  read : ∀ e, parseEpochSecs now = some e → yearZero ≤ cutoffSecond age e →
    cutoffSecond age e ≤ lastSecond →
    parseEpochSecs (formatIso (cutoffSecond age e)) = some (cutoffSecond age e)
  unread : ∀ e, parseEpochSecs now = some e →
    cutoffSecond age e < yearZero ∨ lastSecond < cutoffSecond age e →
    parseEpochSecs (formatIso (cutoffSecond age e)) = none

/-- The time `age` before `now` lies in the year 0 or later, or before every stamp where the cast
of the seconds does not wrap onto a time that can be read. -/
def Duration.Reaches : Prop :=
  ∀ e, parseEpochSecs now = some e → yearZero ≤ e - age.secs ∨
    (e - age.secs ≤ firstSecond ∧ lastSecond < e - age.secs + 0x10000000000000000)

variable {parseEpochSecs now age}

theorem secsAsI64_of_small (small : age.secs < 0x8000000000000000) :
    secsAsI64 age.secs = age.secs := by
  unfold secsAsI64 Int.bmod
  simp only
  split <;> omega

theorem secsAsI64_of_large (large : 0x8000000000000000 ≤ age.secs) :
    secsAsI64 age.secs = age.secs - 0x10000000000000000 := by
  have bound := age.secs_lt
  unfold secsAsI64 Int.bmod
  simp only
  split <;> omega

/-- With the year 0 or later behind it, the cutoff is the difference. -/
theorem cutoffSecond_eq {e : Int} (top : e ≤ lastSecond) (reach : yearZero ≤ e - age.secs) :
    cutoffSecond age e = e - age.secs := by
  unfold lastSecond at top
  unfold yearZero at reach
  rw [cutoffSecond, secsAsI64_of_small (by omega), saturatingSub]
  omega

/-- With every stamp behind it, the cutoff is no time that can be read. -/
theorem cutoffSecond_unread {e : Int} (before : e - age.secs ≤ firstSecond)
    (wraps : lastSecond < e - age.secs + 0x10000000000000000) :
    cutoffSecond age e < yearZero ∨ lastSecond < cutoffSecond age e := by
  unfold firstSecond at before
  unfold lastSecond at wraps ⊢
  unfold yearZero cutoffSecond saturatingSub
  rcases Nat.lt_or_ge age.secs (0x8000000000000000) with small | large
  · left
    rw [secsAsI64_of_small small]
    omega
  · right
    rw [secsAsI64_of_large large]
    omega

/-- A stamp before the cutoff is an expired one. -/
theorem timestampLt_subtract (reads : CutoffRead parseEpochSecs now age)
    (reaches : age.Reaches parseEpochSecs now) (stamp : String) :
    timestampLt parseEpochSecs stamp (subtract parseEpochSecs now age.secs) =
      expired parseEpochSecs now age stamp := by
  unfold timestampLt subtract expired
  cases hnow : parseEpochSecs now with
  | none =>
    simp only [hnow]
    split
    · rename_i heq
      cases heq
    · rfl
  | some e =>
    change (match parseEpochSecs stamp, parseEpochSecs (formatIso (cutoffSecond age e)) with
      | some x, some y => decide (x < y)
      | _, _ => false) = _
    have hnanos := age.nanos_lt
    cases hstamp : parseEpochSecs stamp with
    | none => rfl
    | some u =>
      have inRange := reads.range stamp u hstamp
      have nowRange := reads.range now e hnow
      rcases reaches e hnow with reach | ⟨before, wraps⟩
      · have same := cutoffSecond_eq nowRange.2 reach
        rw [reads.read e hnow (same ▸ reach) (by rw [same]; omega), same]
        simp only [decide_eq_decide]
        omega
      · rw [reads.unread e hnow (cutoffSecond_unread before wraps)]
        symm
        simp only [decide_eq_false_iff_not]
        omega

end Cutoff

/-! ## What a removal leaves -/

/-- Two changes of the notify value settle as one where at most one of them is a change. -/
theorem Session.settle_settle (s : Session) {old mid new : Bool} (one : mid = old ∨ mid = new) :
    (s.settle old mid).settle mid new = s.settle old new := by
  rcases one with rfl | rfl
  · rw [Session.settle_self]
  · rw [Session.settle_self]

/-- A value that only falls changes at most once. -/
theorem changes_once {old mid new : Bool} (first : mid = true → old = true)
    (second : new = true → mid = true) : mid = old ∨ mid = new := by
  cases mid with
  | true => exact Or.inl (first rfl).symm
  | false =>
    right
    cases new with
    | true => exact second rfl
    | false => rfl

@[simp] theorem Session.settle_notifies (s : Session) (old new any : Bool) :
    (s.settle old new).shouldNotifySession any = s.shouldNotifySession any := rfl

/-- A session with the runs that are kept: rollups computed again, the mark settled. -/
def Session.keeping (anySoloed : Bool) (kept : AgentRun → Bool) (s : Session) : Session :=
  let left := { s with runs := s.runs.filter kept }.recomputeRollups
  left.settle (s.shouldNotifySession anySoloed) (left.shouldNotifySession anySoloed)

/-- Whether the session has a run that is gone. -/
def Session.Loses (gone : List (String × String)) (s : Session) : Prop :=
  ∃ r ∈ s.runs, (s.sessionId, r.runId) ∈ gone

instance (gone : List (String × String)) (s : Session) : Decidable (s.Loses gone) :=
  List.decidableBEx ..

/-- A session after runs are gone; one that loses none is left as it is. -/
def Session.reaped (anySoloed : Bool) (gone : List (String × String)) (s : Session) : Session :=
  if s.Loses gone then s.keeping anySoloed (fun r => (s.sessionId, r.runId) ∉ gone) else s

/-- The sessions after some are gone: the mark of each follows the change of whether any session
is soloed. -/
def sweptOf (gone : List String) (sessions : List Session) : List Session :=
  let left := sessions.filter (fun s => s.sessionId ∉ gone)
  left.map (fun s => s.settle
    (s.shouldNotifySession (sessions.any (fun s => s.soloed)))
    (s.shouldNotifySession (left.any (fun s => s.soloed))))

section Keeping

variable {s : Session} {anySoloed : Bool}

theorem Session.RolledUp.waiting_iff (h : s.RolledUp) :
    s.rollupState = .waiting ↔ ∃ r ∈ s.runs, r.state = .waiting := by
  rw [h.state, VsFleet.rollupState]
  constructor
  · intro waits
    cases found : maxByKey stateRank (s.runs.map (fun r => r.state)) with
    | none => simp [found] at waits
    | some state =>
      rw [found, Option.getD_some] at waits
      subst waits
      simpa using (maxByKey_greatest found).1
  · rintro ⟨r, hr, waits⟩
    have greatest : Greatest stateRank (s.runs.map (fun r => r.state)) .waiting :=
      ⟨List.mem_map.mpr ⟨r, hr, waits⟩, fun b _ => by cases b <;> decide⟩
    rw [(maxByKey_eq_some_iff stateRank_injective).mpr greatest]
    rfl

/-- A session does not begin to notify by losing runs. -/
theorem Session.RolledUp.notifies_of_filter (h : s.RolledUp) {kept : AgentRun → Bool}
    (notifies : { s with runs := s.runs.filter kept }.recomputeRollups.shouldNotifySession
      anySoloed = true) : s.shouldNotifySession anySoloed = true := by
  unfold Session.shouldNotifySession at notifies ⊢
  simp only [Bool.and_eq_true, decide_eq_true_eq] at notifies ⊢
  refine ⟨⟨?_, notifies.1.2⟩, notifies.2⟩
  obtain ⟨r, hr, waits⟩ :=
    (Session.rolledUp_recomputeRollups _).waiting_iff.mp notifies.1.1
  exact h.waiting_iff.mpr ⟨r, (List.mem_filter.mp hr).1, waits⟩

theorem Session.keeping_keeping (h : s.RolledUp) (p q : AgentRun → Bool) :
    (s.keeping anySoloed p).keeping anySoloed q = s.keeping anySoloed (fun r => p r && q r) := by
  let mid := { s with runs := s.runs.filter p }.recomputeRollups
  let new := { s with runs := s.runs.filter (fun r => p r && q r) }.recomputeRollups
  have both : { mid with runs := mid.runs.filter q }.recomputeRollups = new := by
    change { mid with runs := (s.runs.filter p).filter q }.recomputeRollups = new
    rw [List.filter_filter]
    simp only [Bool.and_comm]
    rfl
  have less : new.shouldNotifySession anySoloed = true →
      mid.shouldNotifySession anySoloed = true := by
    rw [← both]
    exact (Session.rolledUp_recomputeRollups _).notifies_of_filter
  have joined := new.settle_settle (changes_once (fun mid => h.notifies_of_filter mid) less)
  rw [← both] at joined
  exact joined.trans (by rw [both]; rfl)

/-- A session that keeps its runs is left as it is. -/
theorem Session.keeping_all (h : s.RolledUp) {kept : AgentRun → Bool}
    (all : ∀ r ∈ s.runs, kept r = true) : s.keeping anySoloed kept = s := by
  have same : { s with runs := s.runs.filter kept }.recomputeRollups = s := by
    rw [List.filter_eq_self.mpr all]
    exact h
  unfold Session.keeping
  simp only [same, Session.settle_self]

theorem Session.reaped_eq (h : s.RolledUp) (gone : List (String × String)) :
    s.reaped anySoloed gone = s.keeping anySoloed (fun r => (s.sessionId, r.runId) ∉ gone) := by
  unfold Session.reaped
  split
  · rfl
  · rename_i keeps
    symm
    apply Session.keeping_all h
    intro r hr
    simpa using fun lost => keeps ⟨r, hr, lost⟩

end Keeping

/-! ## One removal after the other -/

theorem any_soloed_of_filter {p : Session → Bool} {l : List Session}
    (any : (l.filter p).any (fun s => s.soloed) = true) : l.any (fun s => s.soloed) = true := by
  obtain ⟨s, hs, soloed⟩ := List.any_eq_true.mp any
  exact List.any_eq_true.mpr ⟨s, (List.mem_filter.mp hs).1, soloed⟩

/-- Two sweeps are one sweep: no session is soloed after the second that was not after the first. -/
theorem sweptOf_sweptOf (a b : List String) (l : List Session) :
    sweptOf b (sweptOf a l) = sweptOf (a ++ b) l := by
  let left := l.filter (fun s => s.sessionId ∉ a)
  have joined : left.filter (fun s => s.sessionId ∉ b) =
      l.filter (fun s => s.sessionId ∉ a ++ b) := by
    rw [List.filter_filter]
    apply List.filter_congr
    intro s _
    simp [Bool.and_comm]
  have one : left.any (fun s => s.soloed) = l.any (fun s => s.soloed) ∨
      left.any (fun s => s.soloed) =
        (l.filter (fun s => s.sessionId ∉ a ++ b)).any (fun s => s.soloed) := by
    rw [← joined]
    exact changes_once any_soloed_of_filter any_soloed_of_filter
  unfold sweptOf
  simp only [List.filter_map, List.any_map, List.map_map, Function.comp_def,
    Session.settle_sessionId, Session.settle_soloed, Session.settle_notifies]
  change (left.filter (fun s => s.sessionId ∉ b)).map _ = _
  rw [joined]
  apply List.map_congr_left
  intro s _
  change (s.settle _ (s.shouldNotifySession (left.any _))).settle _
    (s.shouldNotifySession ((left.filter (fun s => s.sessionId ∉ b)).any _)) = _
  rw [joined]
  apply Session.settle_settle
  rcases one with same | same
  · exact Or.inl (congrArg s.shouldNotifySession same)
  · exact Or.inr (congrArg s.shouldNotifySession same)

@[simp] theorem sweptOf_nil (l : List Session) : sweptOf [] l = l := by
  simp [sweptOf]

namespace Fleet

/-- What the removal of one run leaves of each session. -/
theorem revise_act {F : Fleet} (v : String × String) {s : Session} (hs : s ∈ F.sessions) :
    Edit.only v.1 (F.settled F (.setRuns (fun runs => runs.filter (fun r => r.runId ≠ v.2)))) s =
      s.keeping F.anySoloed (fun r => (s.sessionId, r.runId) ≠ v) := by
  obtain ⟨id, runId⟩ := v
  by_cases own : s.sessionId = id
  · simp only [Edit.only, own, if_true, ne_eq, Prod.mk.injEq, true_and]
    rfl
  · simp only [Edit.only, own, if_false]
    symm
    exact Session.keeping_all (F.rolledUp s hs) (fun r _ => by simp [own])

/-- The runs of the victims are removed one after the other. -/
theorem foldl_revise (victims : List (String × String)) : ∀ F : Fleet,
    (victims.foldl (fun F v => F.revise v.1 (fun runs => runs.filter (fun r => r.runId ≠ v.2)))
      F).sessions = F.sessions.map (fun s => s.reaped F.anySoloed victims) := by
  induction victims with
  | nil =>
    intro F
    simp [Session.reaped, Session.Loses]
  | cons v victims ih =>
    intro F
    rw [List.foldl_cons, ih, anySoloed_revise, revise, edit_sessions, List.map_map]
    apply List.map_congr_left
    intro s hs
    have rolledUp := F.rolledUp s hs
    rw [Function.comp_apply, revise_act v hs, Session.reaped_eq, Session.reaped_eq rolledUp]
    · have same : (s.keeping F.anySoloed (fun r => (s.sessionId, r.runId) ≠ v)).sessionId =
          s.sessionId := rfl
      rw [same, Session.keeping_keeping rolledUp]
      simp [List.mem_cons, not_or]
    · exact (Session.rolledUp_recomputeRollups _).settle _ _

theorem remove_eq_sweptOf (F : Fleet) (id : String) :
    (F.remove id).sessions = sweptOf [id] F.sessions := by
  simp only [remove, sweptOf, edit_sessions, drop_sessions, KeyedList.erase, List.mem_singleton]
  rfl

/-- The sessions of the victims are removed one after the other. -/
theorem foldl_remove (victims : List String) : ∀ F : Fleet,
    (victims.foldl Fleet.remove F).sessions = sweptOf victims F.sessions := by
  induction victims with
  | nil =>
    intro F
    simp
  | cons id victims ih =>
    intro F
    rw [List.foldl_cons, ih, remove_eq_sweptOf, sweptOf_sweptOf]
    rfl

end Fleet

/-! ## The two loops -/

theorem EventLog.fault_mem {log : EventLog} (fault : log.faults.headD false = true) :
    true ∈ log.faults := by
  by_contra healthy
  rw [EventLog.head_healthy healthy] at fault
  cases fault

/-- A removal that leaves what is there alone or acts on it; it fails only where an append does. -/
def Acts {α : Type} (remove : StateStore → α → Except PersistError (List Event) × StateStore)
    (act : Fleet → α → Fleet) : Prop :=
  ∀ (store : StateStore) (F : Fleet) (v : α), Refines store.engine F →
    (∃ error, (remove store v).1 = .error error ∧ Refines (remove store v).2.engine F ∧
      true ∈ store.log.faults) ∨
    ∃ events, (remove store v).1 = .ok events ∧ Refines (remove store v).2.engine (act F v) ∧
      (remove store v).2.log.faults ⊆ store.log.faults

/-- The loop acts on the victims up to the one it fails at. -/
theorem Acts.removeAll {α : Type}
    {remove : StateStore → α → Except PersistError (List Event) × StateStore}
    {act : Fleet → α → Fleet} (acts : Acts remove act) (victims : List α) :
    ∀ {store : StateStore} {F : Fleet}, Refines store.engine F →
      ∃ gone, gone <+: victims ∧
        Refines (StateStore.removeAll remove victims store).2.engine (gone.foldl act F) ∧
        ((StateStore.removeAll remove victims store).1.isOk → gone = victims) ∧
        (true ∉ store.log.faults → (StateStore.removeAll remove victims store).1.isOk) := by
  induction victims with
  | nil =>
    intro store F h
    exact ⟨[], List.prefix_rfl, h, fun _ => rfl, fun _ => rfl⟩
  | cons v victims ih =>
    intro store F h
    rw [StateStore.removeAll]
    rcases acts store F v h with ⟨error, failed, kept, fault⟩ | ⟨events, fine, acted, rest⟩
    · generalize remove store v = outcome at failed kept
      obtain ⟨result, after⟩ := outcome
      cases failed
      refine ⟨[], List.nil_prefix, kept, ?_, fun healthy => absurd fault healthy⟩
      intro ok
      cases ok
    · generalize remove store v = outcome at fine acted rest
      obtain ⟨result, after⟩ := outcome
      cases fine
      obtain ⟨gone, before, refined, whole, healthy⟩ := ih acted
      refine ⟨v :: gone, (List.prefix_cons_inj v).mpr before, ?_, ?_, ?_⟩
      · simp only
        split <;> rename_i more <;> rw [more] at refined <;> exact refined
      · simp only
        split <;> rename_i more <;> intro ok
        · cases ok
        · rw [more] at whole
          rw [whole rfl]
      · intro noFault
        have ok := healthy (fun fault => noFault (rest fault))
        simp only
        split
        · rename_i more
          rw [more] at ok
          cases ok
        · rfl

theorem applyRunRemove_acts : Acts (fun store (v : String × String) => store.applyRunRemove v.1 v.2)
    (fun F v => F.revise v.1 (fun runs => runs.filter (fun r => r.runId ≠ v.2))) := by
  rintro store F ⟨sid, rid⟩ h
  simp only
  rcases store.applyRunRemove_cases sid rid with ⟨absent, eq⟩ | ⟨-, -, fault, eq⟩ | ⟨run, -, -, eq⟩
  · right
    rw [eq]
    refine ⟨[], rfl, ?_, List.Subset.refl _⟩
    rw [Refines.revise_eq_self]
    · exact h
    · intro s found
      rw [StateStore.runOf, h.session, found, Option.bind_some, List.find?_eq_none] at absent
      rw [List.filter_eq_self]
      intro r hr
      simpa using absent r hr
  · left
    rw [eq]
    exact ⟨.sqlite, rfl, h, EventLog.fault_mem fault⟩
  · right
    rw [eq]
    refine ⟨_, rfl, ?_, ?_⟩
    · rw [StateStore.pruneDurable_engine]
      exact h.removeRun sid rid
    · rw [StateStore.pruneDurable_log]
      exact fun _ => List.mem_of_mem_tail

theorem applySessionRemove_acts : Acts (fun store id => store.applySessionRemove id)
    Fleet.remove := by
  intro store F id h
  simp only
  rcases store.applySessionRemove_cases id with ⟨absent, eq⟩ | ⟨-, fault, eq⟩ | ⟨-, -, eq⟩
  · right
    rw [eq]
    refine ⟨[], rfl, ?_, List.Subset.refl _⟩
    rw [Refines.remove_absent (by rw [← h.session]; exact absent)]
    exact h
  · left
    rw [eq]
    exact ⟨.sqlite, rfl, h, EventLog.fault_mem fault⟩
  · right
    rw [eq]
    refine ⟨_, rfl, ?_, ?_⟩
    · rw [StateStore.dropSessionReclaim_engine]
      exact (h.removeSessionEvents id).1
    · rw [StateStore.dropSessionReclaim_log]
      exact fun _ => List.mem_of_mem_tail

/-! ## The expired -/

section Expired

variable (parseEpochSecs : String → Option Int) (now : String) (age : Duration)

/-- A run that is dead and older than `age`. -/
def AgentRun.reapable (run : AgentRun) : Bool :=
  run.state = .dead && expired parseEpochSecs now age run.updatedAt

/-- The runs to reap, by the ids of their session and their own. -/
def expiredRuns (sessions : List Session) : List (String × String) :=
  sessions.flatMap (fun s =>
    (s.runs.filter (AgentRun.reapable parseEpochSecs now age)).map
      (fun r => (s.sessionId, r.runId)))

/-- The ids of the sessions that are older than the time to live. -/
def expiredSessions (sessions : List Session) : List String :=
  (sessions.filter (fun s => expired parseEpochSecs now age s.updatedAt)).map
    (fun s => s.sessionId)

variable {parseEpochSecs now age}

theorem mem_expiredRuns {F : Fleet} {s : Session} (hs : s ∈ F.sessions) (runId : String) :
    (s.sessionId, runId) ∈ expiredRuns parseEpochSecs now age F.sessions ↔
      ∃ run ∈ s.runs, run.runId = runId ∧ run.reapable parseEpochSecs now age := by
  simp only [expiredRuns, List.mem_flatMap, List.mem_map, List.mem_filter, Prod.mk.injEq]
  constructor
  · rintro ⟨s', hs', run, ⟨hrun, reaps⟩, own, same⟩
    rw [List.inj_on_of_nodup_map F.distinct hs' hs own] at hrun
    exact ⟨run, hrun, same, reaps⟩
  · rintro ⟨run, hrun, same, reaps⟩
    exact ⟨s, hs, run, ⟨hrun, reaps⟩, rfl, same⟩

theorem mem_expiredSessions {F : Fleet} {s : Session} (hs : s ∈ F.sessions) :
    s.sessionId ∈ expiredSessions parseEpochSecs now age F.sessions ↔
      expired parseEpochSecs now age s.updatedAt := by
  simp only [expiredSessions, List.mem_map, List.mem_filter]
  constructor
  · rintro ⟨s', ⟨hs', old⟩, own⟩
    rwa [List.inj_on_of_nodup_map F.distinct hs' hs own] at old
  · exact fun old => ⟨s, ⟨hs, old⟩, rfl⟩

theorem reapVictims_eq (reads : CutoffRead parseEpochSecs now age)
    (reaches : age.Reaches parseEpochSecs now) (store : StateStore) :
    store.reapVictims parseEpochSecs now age.secs =
      expiredRuns parseEpochSecs now age store.snapshot := by
  unfold StateStore.reapVictims expiredRuns AgentRun.reapable
  simp only [timestampLt_subtract reads reaches]

theorem sweepVictims_eq (reads : CutoffRead parseEpochSecs now age)
    (reaches : age.Reaches parseEpochSecs now) (store : StateStore) :
    store.sweepVictims parseEpochSecs now age.secs =
      expiredSessions parseEpochSecs now age store.snapshot := by
  unfold StateStore.sweepVictims expiredSessions
  simp only [timestampLt_subtract reads reaches]

end Expired

/-- A reap removes the runs that have the id of an expired dead run of their session, a sweep the
expired sessions; a call that fails at an append has removed those before it. -/
theorem gc_removes_expired (parseEpochSecs : String → Option Int) {store : StateStore}
    (reached : store.Reached parseEpochSecs) (now : String) (grace ttl : Duration)
    (graceRead : CutoffRead parseEpochSecs now grace) (ttlRead : CutoffRead parseEpochSecs now ttl)
    (graceReaches : grace.Reaches parseEpochSecs now)
    (ttlReaches : ttl.Reaches parseEpochSecs now) :
    let anySoloed := store.snapshot.any (fun s => s.soloed)
    let runs := expiredRuns parseEpochSecs now grace store.snapshot
    let sessions := expiredSessions parseEpochSecs now ttl store.snapshot
    let reap := store.reapDead parseEpochSecs now grace.secs
    let sweep := store.sweepExpiredSessions parseEpochSecs now ttl.secs
    (∃ gone, gone <+: runs ∧
      reap.2.snapshot = store.snapshot.map (fun s => s.reaped anySoloed gone) ∧
      (reap.1.isOk → gone = runs)) ∧
    (∃ gone, gone <+: sessions ∧ sweep.2.snapshot = sweptOf gone store.snapshot ∧
      (sweep.1.isOk → gone = sessions)) ∧
    (true ∉ store.log.faults → reap.1.isOk ∧ sweep.1.isOk) ∧
    (∀ s ∈ store.snapshot, ∀ runId, (s.sessionId, runId) ∈ runs ↔
      ∃ run ∈ s.runs, run.runId = runId ∧ run.reapable parseEpochSecs now grace) ∧
    ∀ s ∈ store.snapshot, s.sessionId ∈ sessions ↔ expired parseEpochSecs now ttl s.updatedAt := by
  obtain ⟨F, h⟩ := reached.refines
  have before : store.snapshot = F.sessions := h.snapshot
  obtain ⟨goneRuns, someRuns, reaped, allRuns, reapOk⟩ :=
    applyRunRemove_acts.removeAll (store.reapVictims parseEpochSecs now grace.secs) h
  obtain ⟨goneSessions, someSessions, swept, allSessions, sweepOk⟩ :=
    applySessionRemove_acts.removeAll (store.sweepVictims parseEpochSecs now ttl.secs) h
  rw [reapVictims_eq graceRead graceReaches] at someRuns
  rw [sweepVictims_eq ttlRead ttlReaches] at someSessions
  refine ⟨⟨goneRuns, someRuns, ?_, ?_⟩, ⟨goneSessions, someSessions, ?_, ?_⟩, ?_, ?_, ?_⟩
  · have after := reaped.snapshot
    rw [Fleet.foldl_revise, Fleet.anySoloed, ← before] at after
    exact after
  · exact fun ok => (allRuns ok).trans (reapVictims_eq graceRead graceReaches store)
  · have after := swept.snapshot
    rw [Fleet.foldl_remove, ← before] at after
    exact after
  · exact fun ok => (allSessions ok).trans (sweepVictims_eq ttlRead ttlReaches store)
  · exact fun healthy => ⟨reapOk healthy, sweepOk healthy⟩
  · rw [before]
    exact fun s hs => mem_expiredRuns hs
  · rw [before]
    exact fun s hs => mem_expiredSessions hs

/-- The date reader on the stamps of one morning. -/
def morningStamps : String → Option Int
  | "2026-06-08T00:00:00Z" => some 1780876800
  | "2026-06-08T01:00:00Z" => some 1780880400
  | "2026-06-08T02:00:00Z" => some 1780884000
  | _ => none

/-- One hour. -/
def anHour : Duration := ⟨3600, 0, by decide, by decide⟩

theorem morningStamps_cutoff : CutoffRead morningStamps "2026-06-08T02:00:00Z" anHour where
  range := by
    intro stamp u found
    unfold morningStamps at found
    split at found <;> cases found <;> decide
  read := by
    intro e found _ _
    cases found
    decide
  unread := by
    intro e found outside
    cases found
    exact absurd outside (by decide)

theorem anHour_reaches : anHour.Reaches morningStamps "2026-06-08T02:00:00Z" := by
  intro e found
  cases found
  exact Or.inl (by decide)

/-- A soloed session that is two hours old and a waiting one that is fresh. -/
def soloedAndWaiting : StateStore :=
  (((StateStore.fromLog (.holding [] [])).perform morningStamps
    (.sessionUpsert (.plain "a" []))).perform
    morningStamps (.sessionUpsert { Session.plain "b" [.plain "r" "n" .waiting] with
      updatedAt := "2026-06-08T02:00:00Z" })).perform morningStamps (.solo "a")

theorem soloedAndWaiting_reached : soloedAndWaiting.Reached morningStamps :=
  .step _ (.step _ (.step _ (.opened _)))

/-- A dead run that is two hours old and a fresh working one of its run id. -/
def twoRunsOfOneId : StateStore :=
  (StateStore.fromLog (.holding [] [])).perform morningStamps (.sessionUpsert (.plain "c"
    [.plain "r" "n" .dead,
      { AgentRun.plain "r" "m" .working with updatedAt := "2026-06-08T02:00:00Z" }]))

/-- The sweep of the soloed session marks the other one unread. -/
theorem gc_removes_expired_soloed :
    (soloedAndWaiting.sweepExpiredSessions morningStamps "2026-06-08T02:00:00Z" 3600).2.snapshot =
      sweptOf ["a"] soloedAndWaiting.snapshot := by
  obtain ⟨-, ⟨gone, -, swept, whole⟩, ok, -⟩ := gc_removes_expired morningStamps
    soloedAndWaiting_reached "2026-06-08T02:00:00Z" anHour anHour morningStamps_cutoff
    morningStamps_cutoff anHour_reaches anHour_reaches
  have all : gone = ["a"] := (whole (ok (by decide)).2).trans (by decide)
  rw [all] at swept
  exact swept

/-- A sweep changes a session it leaves, and a reap removes a run that is neither dead nor old. -/
theorem gc_touches_others :
    (¬ ∀ store : StateStore, store.Reached morningStamps → ∀ now (ttl : Duration),
      CutoffRead morningStamps now ttl → ttl.Reaches morningStamps now →
      let sweep := store.sweepExpiredSessions morningStamps now ttl.secs
      sweep.1.isOk → sweep.2.snapshot =
        store.snapshot.filter (fun s => !expired morningStamps now ttl s.updatedAt)) ∧
    ¬ ∀ store : StateStore, store.Reached morningStamps → ∀ now (grace : Duration),
      CutoffRead morningStamps now grace → grace.Reaches morningStamps now →
      let reap := store.reapDead morningStamps now grace.secs
      reap.1.isOk → reap.2.snapshot.map (fun s => s.runs) = store.snapshot.map (fun s =>
        s.runs.filter (fun r => !r.reapable morningStamps now grace)) := by
  constructor
  · intro sweeps
    have swept := sweeps soloedAndWaiting soloedAndWaiting_reached _ _ morningStamps_cutoff
      anHour_reaches (by decide)
    have marks := congrArg (List.map (fun s => s.unread)) swept
    revert marks
    decide
  · intro reaps
    have reaped := reaps twoRunsOfOneId (.step _ (.opened _)) _ _ morningStamps_cutoff
      anHour_reaches (by decide)
    have counts := congrArg (List.map List.length) reaped
    revert counts
    decide

end VsFleet
