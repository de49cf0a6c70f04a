import VsFleet.Hub.Proofs.StoreSteps
import VsFleet.Reporter.Driver
import VsFleet.Reporter.Proofs.Trackers

/-!
# What waits for the Hub

The deltas a reporter has not got through, against its own view and against the marks of the Hub.
They are in the order they were issued in; the last of them about a run has the content the
reporter knows; and of the stamped ones only the oldest can have reached the Hub before, by a send
that failed after its frame was read.
-/

namespace VsFleet

/-- The run a delta reports and the stamp it reports it under. -/
def Delta.reported (d : Delta) : Option AgentRun :=
  match d.msg with
  | .runUpsert _ run _ => some run
  | _ => none

/-- The stamp a delta carries. -/
def Delta.stamp (d : Delta) : Option SeqStamp :=
  match d.msg with
  | .runUpsert _ _ stamp => stamp
  | _ => none

/-- The deltas a reporter of a session issues. -/
inductive Delta.Own (sessionId : String) : Delta → Prop
  | session (seq : Nat) (session : Session) (own : session.sessionId = sessionId) :
      Own sessionId ⟨seq, .sessionUpsert session⟩
  | run (seq : Nat) (run : AgentRun) (stamp : Option SeqStamp) :
      Own sessionId ⟨seq, .runUpsert sessionId run stamp⟩

/-- The last run of an id. -/
def lastOf (id : String) (runs : List AgentRun) : Option AgentRun :=
  runs.reverse.find? (fun r => r.runId = id)

/-- The runs that deltas report, in order, and the last one of an id. -/
def reports (pending : List Delta) : List AgentRun := pending.filterMap Delta.reported

/-- The last report of a run that waits. -/
def lastReport (id : String) (pending : List Delta) : Option AgentRun :=
  lastOf id (reports pending)

theorem lastReport_cons (id : String) (d : Delta) (pending : List Delta) :
    lastReport id (d :: pending) =
      (lastReport id pending).or (d.reported.filter (fun r => r.runId = id)) := by
  unfold lastReport lastOf reports
  cases reported : d.reported with
  | none => simp [reported]
  | some r =>
    by_cases own : r.runId = id <;>
      simp [reported, List.find?_append, Option.filter, own]

theorem lastReport_append (id : String) (pending : List Delta) (d : Delta) :
    lastReport id (pending ++ [d]) =
      (d.reported.filter (fun r => r.runId = id)).or (lastReport id pending) := by
  unfold lastReport lastOf reports
  cases reported : d.reported with
  | none => simp [reported]
  | some r => by_cases own : r.runId = id <;>
      simp [reported, Option.filter, own]

/-- The stamped deltas are above the marks of the Hub. -/
def Fresh (hub : StateStore) (pending : List Delta) : Prop :=
  ∀ d ∈ pending, ∀ s ∈ d.stamp, ∀ m ∈ hub.reclaim.mark ⟨s.durableId⟩, m.highSeq < s.seq

/-- The invariant of the deltas that wait. -/
structure Backlog (hub : StateStore) (core : ReporterCore) (pending : List Delta) : Prop where
  ordered : pending.Pairwise (fun d e => d.seq < e.seq)
  issued : ∀ d ∈ pending, d.seq < core.buffer.nextSeq
  fits : pending.length ≤ core.buffer.capacity
  room : 0 < core.buffer.capacity
  own : ∀ d ∈ pending, d.Own core.config.sessionId
  registered : ∀ s ∈ core.registeredSession, s.sessionId = core.config.sessionId
  known : OrderedMap.Indexed (fun r : AgentRun => r.runId) core.knownRuns core.runOrder
  latest : ∀ id, ∀ run ∈ lastReport id pending, core.knownRuns.lookup id = some run
  ascending : pending.Pairwise (fun d e =>
    ∀ s ∈ d.stamp, ∀ t ∈ e.stamp, s.durableId = t.durableId → s.seq < t.seq)
  stamped : ∀ d ∈ pending, ∀ s ∈ d.stamp,
    s.epoch = 0 ∧ s.seq ≤ core.identity.assigned s.durableId
  firstEpoch : core.identity.FirstEpoch
  marks : ∀ id, ∀ m ∈ hub.reclaim.mark ⟨id⟩, m.epoch = 0 ∧ m.highSeq ≤ core.identity.assigned id
  fresh : Fresh hub pending.tail

/-! ## What the Hub does with a frame -/

namespace StateStore

variable (store : StateStore)

/-- The stamp passes the gate. -/
def admits (s : SeqStamp) : Bool :=
  (store.reclaim.classify ⟨s.durableId⟩ s.epoch s.seq).applies

/-- A whole view and a plain run move no mark; a stamped run that passes the gate moves its own to
its stamp. -/
theorem hear_mark (frame : Frame) {sessionId : String} {d : Delta} (own : d.Own sessionId)
    (msg : frame.msg = d.msg) (id : DurableId) :
    (store.hear frame).reclaim.mark id = store.reclaim.mark id ∨
      ∃ s ∈ d.stamp, id = ⟨s.durableId⟩ ∧ store.admits s = true ∧
        (store.hear frame).reclaim.mark id = some ⟨s.epoch, s.seq⟩ := by
  unfold hear
  rw [msg]
  cases own with
  | session seq session own =>
    left
    simp only [applyMessage, applySessionUpsert, logAndApply]
    split <;> rfl
  | run seq run stamp =>
    cases stamp with
    | none =>
      left
      simp only [applyMessage]
      rcases store.applyRunUpsert_cases sessionId run with ⟨-, eq⟩ | ⟨-, -, eq⟩ | ⟨-, -, eq⟩ <;>
        rw [eq]
    | some s =>
      have marks := store.reclaim.mark_admitDelta ⟨s.durableId⟩ id s.epoch s.seq
      have moved : (store.admitted sessionId ⟨s.durableId⟩ s.epoch s.seq).reclaim.mark id =
            store.reclaim.mark id ∨ ∃ t ∈ Delta.stamp ⟨seq, .runUpsert sessionId run (some s)⟩,
          id = ⟨t.durableId⟩ ∧ store.admits t = true ∧
            (store.admitted sessionId ⟨s.durableId⟩ s.epoch s.seq).reclaim.mark id =
              some ⟨t.epoch, t.seq⟩ := by
        rw [admitted, marks]
        split
        · rename_i hit
          exact Or.inr ⟨s, rfl, hit.1, hit.2, rfl⟩
        · exact Or.inl rfl
      simp only [applyMessage]
      rcases store.applyRunUpsertSeq_cases sessionId run ⟨s.durableId⟩ s.epoch s.seq with
        ⟨-, eq⟩ | ⟨-, -, eq⟩ | ⟨-, -, -, eq⟩ | ⟨-, -, -, eq⟩ <;> rw [eq]
      · exact Or.inl rfl
      · exact Or.inl rfl
      · exact moved
      · exact moved

/-- The Hub projects the message: its append succeeds, and a run finds its session and passes the
gate. -/
def takes : ClientMessage → Bool
  | .runUpsert sessionId _ stamp => !store.log.faults.headD false &&
    (store.engine.session sessionId).isSome && stamp.all store.admits
  | _ => !store.log.faults.headD false

/-- The engine once a message of a reporter is projected. -/
def projected : ClientMessage → MergeEngine
  | .sessionUpsert session => (store.engine.upsertSession (store.preserveHubOwnedFields session)).1
  | .runUpsert sessionId run _ => (store.engine.upsertRun sessionId run).1
  | _ => store.engine

/-- What reading a message does: the append fails, or the message is not for the sessions, or it is
projected. -/
theorem hear_engine (frame : Frame) {sessionId : String} {d : Delta} (own : d.Own sessionId)
    (msg : frame.msg = d.msg) : (store.hear frame).engine =
      if store.takes frame.msg then store.projected frame.msg else store.engine := by
  unfold hear
  rw [msg]
  cases own with
  | session seq session own =>
    simp only [applyMessage, applySessionUpsert, takes, projected]
    by_cases fault : store.log.faults.headD false = true
    · rw [logAndApply_failed _ _ fault]
      simp only [fault, Bool.not_true, Bool.false_eq_true, if_false]
    · rw [Bool.not_eq_true] at fault
      rw [logAndApply_ok _ _ fault]
      simp only [fault, Bool.not_false, if_true]
      rfl
  | run seq run stamp =>
    cases stamp with
    | none =>
      simp only [applyMessage, takes, projected, Option.all_none, Bool.and_true]
      rcases store.applyRunUpsert_cases sessionId run with
        ⟨absent, eq⟩ | ⟨live, fault, eq⟩ | ⟨live, fault, eq⟩
      · simp only [eq, absent, Option.isSome_none, Bool.and_false, Bool.false_eq_true, if_false]
      · simp only [eq, fault, Bool.not_true, Bool.false_and, Bool.false_eq_true, if_false]
      · simp only [eq, fault, live, Bool.not_false, Bool.and_self, if_true]
    | some s =>
      simp only [applyMessage, takes, projected, Option.all_some, admits]
      rcases store.applyRunUpsertSeq_cases sessionId run ⟨s.durableId⟩ s.epoch s.seq with
        ⟨absent, eq⟩ | ⟨live, drops, eq⟩ | ⟨live, kept, fault, eq⟩ | ⟨live, kept, fault, eq⟩
      · simp only [eq, absent, Option.isSome_none, Bool.and_false, Bool.false_and,
          Bool.false_eq_true, if_false]
      · rw [Decision.drops, Bool.not_eq_true'] at drops
        simp only [eq, drops, Bool.and_false, Bool.false_eq_true, if_false]
      · simp only [eq, fault, admitted, Bool.not_true, Bool.false_and, Bool.false_eq_true, if_false]
      · rw [Decision.drops, Bool.not_eq_false'] at kept
        simp only [eq, fault, live, kept, Bool.not_false, Bool.and_self, if_true]

/-- What a session upsert or a run upsert leaves in its session, where the Hub takes it. -/
theorem hear_session (frame : Frame) {session : Session} (msg : frame.msg = .sessionUpsert session)
    (taken : store.takes frame.msg = true) :
    ∃ s, (store.hear frame).engine.session session.sessionId = some s ∧ s.runs = session.runs := by
  obtain ⟨id, runs⟩ := store.preserveHubOwnedFields_session session
  obtain ⟨s, found, landed⟩ :=
    store.engine.upsertSession_session (store.preserveHubOwnedFields session)
  rw [store.hear_engine frame (Delta.Own.session 0 session rfl) msg, if_pos taken, msg, projected]
  rw [id] at found
  exact ⟨s, found, landed.trans runs⟩

theorem hear_run (frame : Frame) {sessionId : String} {run : AgentRun} {stamp : Option SeqStamp}
    (msg : frame.msg = .runUpsert sessionId run stamp) (taken : store.takes frame.msg = true) :
    ∃ s s', store.engine.session sessionId = some s ∧
      (store.hear frame).engine.session sessionId = some s' ∧
      s'.runs = (MergeEngine.upsertRunIn s.runs run).1 := by
  have live : (store.engine.session sessionId).isSome := by
    rw [msg, takes, Bool.and_eq_true, Bool.and_eq_true] at taken
    exact taken.1.2
  obtain ⟨s, live⟩ := Option.isSome_iff_exists.mp live
  obtain ⟨s', found, runs⟩ := store.engine.upsertRun_session live run
  rw [store.hear_engine frame (Delta.Own.run 0 run stamp) msg, if_pos taken, msg, projected]
  exact ⟨s, s', live, found, runs⟩

theorem hear_healthy (frame : Frame) {sessionId : String} {d : Delta} (own : d.Own sessionId)
    (msg : frame.msg = d.msg) (healthy : true ∉ store.log.faults) :
    true ∉ (store.hear frame).log.faults := by
  have pushed := fun ev => EventLog.push_healthy healthy ev
  have failed : true ∉ store.log.failed.faults := fun fault => healthy (List.mem_of_mem_tail fault)
  unfold hear
  rw [msg]
  cases own with
  | session seq session own =>
    simp only [applyMessage, applySessionUpsert]
    rw [logAndApply_ok _ _ (EventLog.head_healthy healthy)]
    exact pushed _
  | run seq run stamp =>
    cases stamp with
    | none =>
      simp only [applyMessage]
      rcases store.applyRunUpsert_cases sessionId run with ⟨-, eq⟩ | ⟨-, -, eq⟩ | ⟨-, -, eq⟩ <;>
        rw [eq]
      · exact healthy
      · exact failed
      · exact pushed _
    | some s =>
      simp only [applyMessage]
      rcases store.applyRunUpsertSeq_cases sessionId run ⟨s.durableId⟩ s.epoch s.seq with
        ⟨-, eq⟩ | ⟨-, -, eq⟩ | ⟨-, -, -, eq⟩ | ⟨-, -, -, eq⟩ <;> rw [eq]
      · exact healthy
      · exact healthy
      · exact failed
      · exact pushed _

end StateStore

/-! ## The Hub reads, the driver goes on -/

section

variable {hub : StateStore} {core : ReporterCore} {pending : List Delta} {d : Delta}

theorem Fresh.hear {frame : Frame} {sessionId : String} (own : d.Own sessionId)
    (msg : frame.msg = d.msg) (fresh : Fresh hub pending) (ascending : ∀ e ∈ pending,
      ∀ s ∈ d.stamp, ∀ t ∈ e.stamp, s.durableId = t.durableId → s.seq < t.seq) :
    Fresh (hub.hear frame) pending := by
  intro e he t ht m hm
  rcases hub.hear_mark frame own msg ⟨t.durableId⟩ with same | ⟨s, hs, id, -, moved⟩
  · rw [same] at hm
    exact fresh e he t ht m hm
  · rw [moved, Option.mem_some_iff] at hm
    subst hm
    exact ascending e he s hs t ht (DurableId.mk.inj id).symm

namespace Backlog

theorem pop (h : Backlog hub core (d :: pending)) : Backlog hub core pending where
  ordered := h.ordered.of_cons
  issued := fun e he => h.issued e (List.mem_cons_of_mem d he)
  fits := Nat.le_of_succ_le h.fits
  room := h.room
  own := fun e he => h.own e (List.mem_cons_of_mem d he)
  registered := h.registered
  known := h.known
  latest := by
    intro id run last
    apply h.latest id run
    rw [lastReport_cons, Option.mem_def.mp last]
    rfl
  ascending := h.ascending.of_cons
  stamped := fun e he => h.stamped e (List.mem_cons_of_mem d he)
  firstEpoch := h.firstEpoch
  marks := h.marks
  fresh := fun e he => h.fresh e (List.mem_of_mem_tail he)

theorem tail (h : Backlog hub core pending) : Backlog hub core pending.tail := by
  cases pending with
  | nil => exact h
  | cons d pending => exact h.pop

/-- The Hub may read the oldest delta and the driver keep it. -/
theorem hear (h : Backlog hub core (d :: pending)) :
    Backlog (hub.hear (.delta d)) core (d :: pending) where
  ordered := h.ordered
  issued := h.issued
  fits := h.fits
  room := h.room
  own := h.own
  registered := h.registered
  known := h.known
  latest := h.latest
  ascending := h.ascending
  stamped := h.stamped
  firstEpoch := h.firstEpoch
  marks := by
    intro id m hm
    rcases hub.hear_mark (.delta d) (h.own d (by simp)) rfl ⟨id⟩ with
      same | ⟨s, hs, own, -, moved⟩
    · rw [same] at hm
      exact h.marks id m hm
    · rw [moved, Option.mem_some_iff] at hm
      subst hm
      obtain rfl := DurableId.mk.inj own
      exact h.stamped d (by simp) s hs
  fresh := h.fresh.hear (h.own d (by simp)) rfl (List.pairwise_cons.mp h.ascending).1

/-- A whole view moves no mark. -/
theorem hearWhole (h : Backlog hub core pending) (upto : Nat) (session : Session)
    (own : session.sessionId = core.config.sessionId) :
    Backlog (hub.hear (.whole upto (.sessionUpsert session))) core pending := by
  have same : ∀ id, (hub.hear (.whole upto (.sessionUpsert session))).reclaim.mark id =
      hub.reclaim.mark id := by
    intro id
    rcases hub.hear_mark (.whole upto (.sessionUpsert session))
      (Delta.Own.session 0 session own) rfl id with same | ⟨s, hs, -⟩
    · exact same
    · cases hs
  exact { h with
    marks := fun id m hm => h.marks id m (by rwa [same] at hm)
    fresh := fun d hd s hs m hm => h.fresh d hd s hs m (by rwa [same] at hm) }

/-- In the first epoch a stamp passes the gate when its number is above the mark. -/
theorem admits_iff (h : Backlog hub core pending) (hd : d ∈ pending) {s : SeqStamp}
    (hs : s ∈ d.stamp) :
    hub.admits s = true ↔ ∀ m ∈ hub.reclaim.mark ⟨s.durableId⟩, m.highSeq < s.seq := by
  unfold StateStore.admits
  cases mark : hub.reclaim.mark ⟨s.durableId⟩ with
  | none => simp [ReclaimTable.classify_of_none mark, Decision.applies]
  | some m =>
    have first := (h.marks s.durableId m mark).1
    have zero := (h.stamped d hd s hs).1
    rw [ReclaimTable.classify_applies_iff mark]
    simp [first, zero]

theorem makeRoom (h : Backlog hub core core.buffer.queue) :
    Backlog hub core core.buffer.makeRoom.queue ∧
      core.buffer.makeRoom.queue.length < core.buffer.capacity := by
  rcases core.buffer.makeRoom_queue with dropped | ⟨kept, room⟩
  · rw [dropped]
    refine ⟨h.tail, ?_⟩
    have := h.fits
    have := h.room
    rw [List.length_tail]
    omega
  · rw [kept]
    exact ⟨h, room⟩

/-- A new delta behind the others: its stamp, if any, is the next of its series. -/
theorem push {core' : ReporterCore} {msg : ClientMessage} (h : Backlog hub core pending)
    (space : pending.length < core.buffer.capacity)
    (own : Delta.Own core.config.sessionId ⟨core.buffer.nextSeq, msg⟩)
    (config : core'.config = core.config)
    (buffer : core'.buffer = core.buffer.push msg)
    (registered : ∀ s ∈ core'.registeredSession, s.sessionId = core.config.sessionId)
    (known : OrderedMap.Indexed (fun r : AgentRun => r.runId) core'.knownRuns core'.runOrder)
    (latest : ∀ id, ∀ run ∈ lastReport id (pending ++ [⟨core.buffer.nextSeq, msg⟩]),
      core'.knownRuns.lookup id = some run)
    (firstEpoch : core'.identity.FirstEpoch)
    (grows : ∀ id, core.identity.assigned id ≤ core'.identity.assigned id)
    (stamp : ∀ s ∈ Delta.stamp ⟨core.buffer.nextSeq, msg⟩, s.epoch = 0 ∧
      s.seq = core.identity.assigned s.durableId + 1 ∧
      s.seq = core'.identity.assigned s.durableId) :
    Backlog hub core' (pending ++ [⟨core.buffer.nextSeq, msg⟩]) where
  ordered := by
    rw [List.pairwise_append]
    refine ⟨h.ordered, List.pairwise_singleton _ _, fun d hd e he => ?_⟩
    rw [List.mem_singleton.mp he]
    exact h.issued d hd
  issued := by
    intro d hd
    rw [buffer, DeltaBuffer.push_nextSeq]
    rcases List.mem_append.mp hd with hd | hd
    · exact Nat.lt_succ_of_lt (h.issued d hd)
    · rw [List.mem_singleton.mp hd]
      exact Nat.lt_succ_self _
  fits := by
    rw [buffer, DeltaBuffer.push_capacity, List.length_append]
    exact space
  room := by
    rw [buffer, DeltaBuffer.push_capacity]
    exact h.room
  own := by
    intro d hd
    rw [config]
    rcases List.mem_append.mp hd with hd | hd
    · exact h.own d hd
    · rw [List.mem_singleton.mp hd]
      exact own
  registered := by
    rw [config]
    exact registered
  known := known
  latest := latest
  ascending := by
    rw [List.pairwise_append]
    refine ⟨h.ascending, List.pairwise_singleton _ _, fun d hd e he s hs t ht same => ?_⟩
    rw [List.mem_singleton.mp he] at ht
    have before := (h.stamped d hd s hs).2
    rw [(stamp t ht).2.1, ← same]
    exact Nat.lt_succ_of_le before
  stamped := by
    intro d hd s hs
    rcases List.mem_append.mp hd with hd | hd
    · exact ⟨(h.stamped d hd s hs).1, Nat.le_trans (h.stamped d hd s hs).2 (grows _)⟩
    · rw [List.mem_singleton.mp hd] at hs
      exact ⟨(stamp s hs).1, Nat.le_of_eq (stamp s hs).2.2⟩
  firstEpoch := firstEpoch
  marks := fun id m hm => ⟨(h.marks id m hm).1, Nat.le_trans (h.marks id m hm).2 (grows id)⟩
  fresh := by
    intro d hd s hs m hm
    have member : d ∈ pending.tail ∨ d = ⟨core.buffer.nextSeq, msg⟩ := by
      cases pending with
      | nil => simp at hd
      | cons e pending => simpa using hd
    rcases member with old | rfl
    · exact h.fresh d old s hs m hm
    · rw [(stamp s hs).2.1]
      exact Nat.lt_succ_of_le (h.marks _ m hm).2

/-- Registering a session puts it in the backlog. -/
theorem upsertSession (h : Backlog hub core core.buffer.queue) {session : Session}
    (own : session.sessionId = core.config.sessionId) {core' : ReporterCore}
    (eq : core' = { core with registeredSession := some session }.enqueue
      (.sessionUpsert session)) : Backlog hub core' core'.buffer.queue := by
  subst eq
  obtain ⟨h, space⟩ := h.makeRoom
  rw [ReporterCore.enqueue, DeltaBuffer.push_queue]
  refine h.push space (.session _ session own) rfl rfl ?_ h.known ?_ h.firstEpoch
    (fun _ => Nat.le_refl _) (fun s hs => by cases hs)
  · intro s hs
    rw [← Option.some.inj hs, own]
  · intro id run last
    rw [lastReport_append] at last
    exact h.latest id run last

/-- A report remembers the run and puts it in the backlog under the next stamp of its series. -/
theorem report (h : Backlog hub core core.buffer.queue) (run : AgentRun) :
    Backlog hub (core.report run) (core.report run).buffer.queue := by
  obtain ⟨h, space⟩ := h.makeRoom
  have first := h.firstEpoch.sight run.nativeId core.config.cleanStart
  have known := ReporterCore.Indexed.rememberRun h.known run
  have latest : ∀ stamp id, ∀ r ∈ lastReport id (core.buffer.makeRoom.queue ++
      [⟨core.buffer.nextSeq, .runUpsert core.config.sessionId run stamp⟩]),
      (core.rememberRun run).knownRuns.lookup id = some r := by
    intro stamp id r last
    rw [lastReport_append] at last
    simp only [ReporterCore.rememberRun]
    by_cases own : run.runId = id
    · have newest : r = run := by simpa [Delta.reported, Option.filter, own] using last.symm
      rw [newest, ← own, AList.lookup_insert]
    · rw [AList.lookup_insert_ne (Ne.symm own)]
      exact h.latest id r (by simpa [Delta.reported, Option.filter, own] using last)
  unfold ReporterCore.report ReporterCore.stampedRunUpsert
  simp only [ReporterCore.enqueue, DeltaBuffer.push_queue]
  refine h.push space (.run _ run _) rfl rfl h.registered known (latest _) ?_ ?_ ?_
  · by_cases anchored : run.nativeId = ""
    · simpa [ReporterCore.rememberRun, IdentityLedger.stamp, anchored] using first
    · exact (first.stamp anchored).2.1
  · intro id
    by_cases anchored : run.nativeId = ""
    · simp [ReporterCore.rememberRun, IdentityLedger.stamp, anchored]
    · have assigned := (first.stamp anchored).2.2 id
      rw [IdentityLedger.assigned_sight, IdentityLedger.assigned_sight] at assigned
      refine Nat.le_trans ?_ (Nat.le_of_eq assigned.symm)
      split
      · rename_i same
        rw [same]
        exact Nat.le_succ _
      · exact Nat.le_refl _
  · intro s hs
    by_cases anchored : run.nativeId = ""
    · simp [Delta.stamp, IdentityLedger.stamp, anchored] at hs
    · obtain ⟨stamp, -, assigned⟩ := first.stamp anchored
      have same : s = ⟨run.nativeId, 0, core.identity.assigned run.nativeId + 1⟩ := by
        rw [IdentityLedger.assigned_sight] at stamp
        exact Option.some.inj ((Option.mem_def.mp hs).symm.trans stamp)
      subst same
      refine ⟨rfl, rfl, ?_⟩
      rw [← IdentityLedger.assigned_sight _ _ _ core.config.cleanStart]
      exact ((assigned _).trans (if_pos rfl)).symm

end Backlog

end

end VsFleet
