import VsFleet.Reporter.Proofs.Backlog
import VsFleet.Reporter.Proofs.Rounds

/-!
# A restarted reporter against the marks it finds

The ledger of a process is empty when it starts and declares an id only where it does not track it,
so a declaration never bumps an epoch, clean start or not: the stamps of a process are of epoch 0
and count its deltas from 1. A mark of an earlier process stands above them unless it is of epoch 0
too and has not counted further.
-/

namespace VsFleet

/-- How many of the deltas are stamped for a durable id. -/
def stampedFor (id : String) (issued : List Delta) : Nat :=
  issued.countP (fun d => d.stamp.any (fun s => s.durableId = id))

theorem stampedFor_append (id : String) (issued : List Delta) (d : Delta) :
    stampedFor id (issued ++ [d]) =
      stampedFor id issued + if d.stamp.any (fun s => s.durableId = id) then 1 else 0 := by
  simp only [stampedFor, List.countP_append, List.countP_singleton]

/-- The ledger counts the deltas stamped so far, and each stamp has the place of its delta. -/
structure Series (issued : List Delta) (ledger : IdentityLedger) : Prop where
  firstEpoch : ledger.FirstEpoch
  counted : ∀ id, ledger.assigned id = stampedFor id issued
  placed : ∀ i d, issued[i]? = some d → ∀ s ∈ d.stamp,
    s.epoch = 0 ∧ s.seq = stampedFor s.durableId (issued.take i) + 1

namespace Series

variable {issued : List Delta} {ledger : IdentityLedger}

theorem new : Series [] .new where
  firstEpoch := IdentityLedger.firstEpoch_new
  counted id := by simp [IdentityLedger.assigned, IdentityLedger.new, stampedFor]
  placed i d at_ := by simp at at_

/-- One more delta, whose stamp is the next of its id where it has one. -/
theorem append (h : Series issued ledger) {ledger' : IdentityLedger} {d : Delta}
    (firstEpoch : ledger'.FirstEpoch)
    (counted : ∀ id, ledger'.assigned id =
      ledger.assigned id + if d.stamp.any (fun s => s.durableId = id) then 1 else 0)
    (next : ∀ s ∈ d.stamp, s.epoch = 0 ∧ s.seq = ledger.assigned s.durableId + 1) :
    Series (issued ++ [d]) ledger' where
  firstEpoch := firstEpoch
  counted id := by rw [counted, h.counted, stampedFor_append]
  placed i e at_ s hs := by
    rcases Nat.lt_trichotomy i issued.length with old | rfl | beyond
    · rw [List.getElem?_append_left old] at at_
      rw [List.take_append_of_le_length (Nat.le_of_lt old)]
      exact h.placed i e at_ s hs
    · have same : d = e := by simpa using at_
      subst same
      rw [List.take_append_of_le_length (Nat.le_refl _), List.take_length, ← h.counted]
      exact next s hs
    · rw [List.getElem?_eq_none (by simp; omega)] at at_
      cases at_

theorem unstamped (h : Series issued ledger) {d : Delta} (none : d.stamp = none) :
    Series (issued ++ [d]) ledger :=
  h.append h.firstEpoch (fun id => by simp [none]) (by simp [none])

/-- Reporting a run declares its durable id where it is new, and takes the next stamp of it. -/
theorem report {core : ReporterCore} (h : Series issued core.identity) (run : AgentRun)
    (seq : Nat) : Series (issued ++ [⟨seq, (core.stampedRunUpsert run).1⟩])
      (core.stampedRunUpsert run).2.identity := by
  have sighted := h.firstEpoch.sight run.nativeId core.config.cleanStart
  by_cases anchored : run.nativeId = ""
  · have same : core.stampedRunUpsert run = (.runUpsert core.config.sessionId run none, core) := by
      simp [ReporterCore.stampedRunUpsert, IdentityLedger.sight, IdentityLedger.stamp, anchored]
    rw [same]
    exact h.unstamped rfl
  · obtain ⟨stamp, firstEpoch, assigned⟩ := sighted.stamp anchored
    have stamped : Delta.stamp ⟨seq, (core.stampedRunUpsert run).1⟩ =
        some ⟨run.nativeId, 0, core.identity.assigned run.nativeId + 1⟩ := by
      rw [← core.identity.assigned_sight run.nativeId run.nativeId core.config.cleanStart, ← stamp]
      rfl
    refine h.append firstEpoch ?_ ?_
    · intro id
      rw [stamped]
      change ((core.identity.sight run.nativeId core.config.cleanStart).stamp
        run.nativeId).2.assigned id = _
      rw [assigned, IdentityLedger.assigned_sight, IdentityLedger.assigned_sight]
      by_cases own : id = run.nativeId
      · subst own
        simp
      · simp [own, Ne.symm own]
    · intro s hs
      rw [stamped, Option.mem_some_iff] at hs
      subst hs
      exact ⟨rfl, rfl⟩

theorem kept : Link.Kept (fun _ issued core => Series issued core.identity) where
  buffer _ h := h
  now _ h := h
  liveness _ h := h
  register _ h := h.unstamped rfl
  report {_ issued core} run h := by
    have remembered : Series issued (core.rememberRun run).identity := h
    exact remembered.report run _
  hear h _ := h

end Series

/-- The stamps of a process are of the first epoch and count its deltas. -/
theorem Link.series (config : ReporterConfig) (steps : List Link.Step) :
    Series (steps.foldl Link.step (.new config)).issued
      (steps.foldl Link.step (.new config)).core.identity := by
  have start : (Link.new config).With (fun _ issued core => Series issued core.identity) :=
    ⟨sound_new config, .new⟩
  exact (start.run Series.kept steps).2

namespace StateStore

/-- The Hub applies a stamped delta: it neither fails nor drops it. -/
def Applies (hub : StateStore) (sessionId : String) (run : AgentRun) (s : SeqStamp) : Prop :=
  ∃ decision events, (hub.applyRunUpsertSeq sessionId run ⟨s.durableId⟩ s.epoch s.seq).1 =
    .ok (decision, events) ∧ decision.applies = true

theorem applies_iff (hub : StateStore) (sessionId : String) (run : AgentRun) (s : SeqStamp) :
    hub.Applies sessionId run s ↔ (hub.engine.session sessionId).isSome ∧
      hub.log.faults.headD false = false ∧ hub.admits s = true := by
  unfold Applies admits
  rcases hub.applyRunUpsertSeq_cases sessionId run ⟨s.durableId⟩ s.epoch s.seq with
    ⟨absent, eq⟩ | ⟨-, drops, eq⟩ | ⟨-, -, fault, eq⟩ | ⟨live, admitted, fault, eq⟩
  · simp [eq, absent, Decision.applies]
  · rw [Decision.drops, Bool.not_eq_true'] at drops
    simp [eq, drops]
  · simp [eq, fault, -List.headD_eq_head?_getD]
  · rw [Decision.drops, Bool.not_eq_false'] at admitted
    simp [eq, live, fault, admitted, -List.headD_eq_head?_getD]

end StateStore

/-- A delta of a process meets a mark of its durable id. With its session there and its append
sound, the Hub applies it exactly when the mark is of the first epoch and no greater than the number
of deltas the process had stamped for the id before; for the first one that number is 0. -/
theorem restarted_delta_applied_iff (config : ReporterConfig) (steps : List Link.Step) {i : Nat}
    {d : Delta} {sessionId : String} {run : AgentRun} {s : SeqStamp} :
    let issued := (steps.foldl Link.step (.new config)).issued
    issued[i]? = some d → d.msg = .runUpsert sessionId run (some s) →
    ∀ (hub : StateStore) (m : Mark), hub.reclaim.mark ⟨s.durableId⟩ = some m →
      (hub.Applies sessionId run s ↔ (hub.engine.session sessionId).isSome ∧
        hub.log.faults.headD false = false ∧
        m.epoch = 0 ∧ m.highSeq ≤ stampedFor s.durableId (issued.take i)) := by
  intro issued at_ msg hub m marked
  have stamp : s ∈ d.stamp := by rw [Delta.stamp, msg]; rfl
  obtain ⟨epoch, seq⟩ := (Link.series config steps).placed i d at_ s stamp
  have place : s.seq = stampedFor s.durableId (issued.take i) + 1 := seq
  rw [hub.applies_iff, StateStore.admits, ReclaimTable.classify_applies_iff marked, epoch, place]
  refine and_congr_right (fun _ => and_congr_right (fun _ => ?_))
  omega

/-- The life of a reporter that connects and reports one run. -/
def oneReport : List Link.Step :=
  [.connect [], .command "t" (.upsertSession (.plain "s" [])) [],
    .command "t" (.upsertRun (.plain "r" "n" .working)) []]

/-- The Hub that such a reporter has left behind, under a mark of its one report. -/
def reportedHub : StateStore := (oneReport.foldl Link.step (.new ⟨"s", 30, true⟩)).hub
  (.fromLog (.holding [] []))

theorem restarted_delta_applied_iff_again :
    let issued := (oneReport.foldl Link.step (.new ⟨"s", 30, true⟩)).issued
    (reportedHub.Applies "s" (.plain "r" "n" .working) ⟨"n", 0, 1⟩ ↔
      (reportedHub.engine.session "s").isSome ∧ reportedHub.log.faults.headD false = false ∧
        (0 : Nat) = 0 ∧ 1 ≤ stampedFor "n" (issued.take 1)) :=
  restarted_delta_applied_iff ⟨"s", 30, true⟩ oneReport (i := 1) rfl rfl reportedHub ⟨0, 1⟩ rfl

/-- The start is clean, and the first delta of the second process is a duplicate of the first one's,
which the Hub has applied. -/
theorem restarted_delta_dropped : ¬ ∀ (config : ReporterConfig) (steps : List Link.Step) (i : Nat)
    (d : Delta) (sessionId : String) (run : AgentRun) (s : SeqStamp), config.cleanStart = true →
    let issued := (steps.foldl Link.step (.new config)).issued
    issued[i]? = some d → d.msg = .runUpsert sessionId run (some s) →
    stampedFor s.durableId (issued.take i) = 0 →
    ∀ (hub : StateStore) (m : Mark), hub.reclaim.mark ⟨s.durableId⟩ = some m →
      (hub.engine.session sessionId).isSome → hub.log.faults.headD false = false →
      hub.Applies sessionId run s := by
  intro applied
  obtain ⟨decision, events, answer, applies⟩ := applied ⟨"s", 30, true⟩ oneReport 1 _ "s"
    (.plain "r" "n" .working) ⟨"n", 0, 1⟩ rfl rfl rfl (by decide) reportedHub ⟨0, 1⟩ rfl
    (by decide) (by decide)
  have dropped : (reportedHub.applyRunUpsertSeq "s" (.plain "r" "n" .working) ⟨"n"⟩ 0 1).1 =
      .ok (.duplicateDrop, []) := rfl
  rw [dropped, Except.ok.injEq, Prod.mk.injEq] at answer
  rw [← answer.1] at applies
  cases applies

end VsFleet
