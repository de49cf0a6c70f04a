import VsFleet.Misc.Runs
import VsFleet.Reporter.Proofs.Reconnect

/-!
# How old the shown content of a run is

Two channels carry a run: the whole view of a registration or heartbeat, which is as new as the
reporter, and the buffered deltas, which are as old as they are. What the Hub shows of a run gets
older when a reconnect sends the whole view first and then a delta that reports the run as it was
before, unless the gate drops that delta.
-/

namespace VsFleet

/-! ## Reports of one run -/

/-- The delta is about the run, or brings a session that has it. -/
def Delta.reportsRun (runId : String) (d : Delta) : Bool :=
  d.reported.any (fun r => r.runId = runId)

/-- The deltas issued up to a number. -/
def upTo (issued : List Delta) (upto : Nat) : List Delta := issued.filter (fun d => d.seq ≤ upto)

/-- How many times a run was reported up to a number: what reflects it is as of that report. -/
def reportNo (runId : String) (issued : List Delta) (upto : Nat) : Nat :=
  (upTo issued upto).countP (Delta.reportsRun runId)

theorem upTo_append_of_lt {issued new : List Delta} {upto : Nat} (later : ∀ d ∈ new, upto < d.seq) :
    upTo (issued ++ new) upto = upTo issued upto := by
  have none : new.filter (fun d => d.seq ≤ upto) = [] := by
    rw [List.filter_eq_nil_iff]
    intro d hd
    simpa using later d hd
  rw [upTo, List.filter_append, none, List.append_nil, upTo]

theorem upTo_of_le {issued : List Delta} {upto : Nat} (all : ∀ d ∈ issued, d.seq ≤ upto) :
    upTo issued upto = issued := by
  rw [upTo, List.filter_eq_self]
  intro d hd
  simpa using all d hd

theorem reportNo_mono (runId : String) (issued : List Delta) {u u' : Nat} (le : u ≤ u') :
    reportNo runId issued u ≤ reportNo runId issued u' := by
  apply List.Sublist.countP_le
  have within : upTo issued u = (upTo issued u').filter (fun d => d.seq ≤ u) := by
    rw [upTo, upTo, List.filter_filter]
    apply List.filter_congr
    intro d _
    rw [Bool.eq_iff_iff]
    simp only [decide_eq_true_eq, Bool.and_eq_true]
    omega
  rw [within]
  exact List.filter_sublist

/-- A delta is the last of the deltas up to its own number. -/
theorem upTo_seq {issued pre post : List Delta} {d : Delta} (split : issued = pre ++ d :: post)
    (sorted : issued.Pairwise (fun d e => d.seq < e.seq)) : upTo issued d.seq = pre ++ [d] := by
  subst split
  rw [List.pairwise_append, List.pairwise_cons] at sorted
  have before : ∀ e ∈ pre ++ [d], e.seq ≤ d.seq := by
    intro e he
    rcases List.mem_append.mp he with he | he
    · exact Nat.le_of_lt (sorted.2.2 e he d (by simp))
    · rw [List.mem_singleton.mp he]
  have whole : pre ++ d :: post = (pre ++ [d]) ++ post := by simp
  rw [whole, upTo_append_of_lt sorted.2.1.1, upTo_of_le before]

/-- With no later report of the run, a delta's number is as good as any greater one. -/
theorem reportNo_of_latest {runId : String} {issued : List Delta} {d : Delta} {upto : Nat}
    (latest : ∀ e ∈ issued, e.reportsRun runId = true → e.seq ≤ d.seq) (le : d.seq ≤ upto) :
    reportNo runId issued d.seq = reportNo runId issued upto := by
  unfold reportNo upTo
  rw [List.countP_filter, List.countP_filter]
  apply List.countP_congr
  intro e he
  simp only [Bool.and_eq_true, decide_eq_true_eq, and_congr_right_iff]
  intro reports
  have := latest e he reports
  constructor <;> intro <;> omega

/-! ## What the Hub shows -/

/-- The Hub with a record of what it shows of a run: the number its content reflects now, none
where it came with a plain session upsert, and all numbers shown so far. -/
structure Screen where
  hub : StateStore
  shown : Option Nat
  history : List Nat

/-- The Hub reads a frame. -/
def Screen.see (runId : String) (screen : Screen) (frame : Frame) : Screen :=
  let hub := screen.hub.hear frame
  let shows : Screen := ⟨hub, some frame.upto, screen.history ++ [frame.upto]⟩
  if screen.hub.takes frame.msg then
    match frame with
    | .whole _ _ => shows
    | .delta d =>
      match d.reported with
      | none => { screen with hub, shown := none }
      | some run => if run.runId = runId then shows else { screen with hub }
  else { screen with hub }

/-- The Hub opened as `start`, which has been shown nothing, after the frames. -/
def screenOf (start : StateStore) (runId : String) (heard : List Frame) : Screen :=
  heard.foldl (Screen.see runId) ⟨start, none, []⟩

section

variable (start : StateStore) (runId : String) (heard : List Frame) (frame : Frame)

theorem screenOf_append :
    screenOf start runId (heard ++ [frame]) = (screenOf start runId heard).see runId frame := by
  rw [screenOf, List.foldl_append]
  rfl

@[simp] theorem Screen.see_hub (screen : Screen) :
    (screen.see runId frame).hub = screen.hub.hear frame := by
  unfold Screen.see
  dsimp only
  split
  · cases frame with
    | whole upto msg => rfl
    | delta d =>
      dsimp only
      cases d.reported with
      | none => rfl
      | some run =>
        dsimp only
        split <;> rfl
  · rfl

theorem screenOf_hub : (screenOf start runId heard).hub = heard.foldl StateStore.hear start :=
  (List.foldl_hom (fun screen : Screen => screen.hub)
    (fun screen frame => (screen.see_hub runId frame).symm)).symm

/-- The frame carries the run. -/
def Frame.shows : Frame → Bool
  | .whole _ _ => true
  | .delta d => d.reportsRun runId

theorem Screen.see_history (screen : Screen) : (screen.see runId frame).history =
    if screen.hub.takes frame.msg && frame.shows runId then screen.history ++ [frame.upto]
    else screen.history := by
  unfold Screen.see
  dsimp only
  cases taken : screen.hub.takes frame.msg with
  | false => rfl
  | true =>
    cases frame with
    | whole upto msg => rfl
    | delta d =>
      cases reported : d.reported with
      | none => simp [Frame.shows, Delta.reportsRun, reported]
      | some run =>
        by_cases own : run.runId = runId <;>
          simp [Frame.shows, Delta.reportsRun, reported, own]

theorem mem_history : ∀ u ∈ (screenOf start runId heard).history,
    ∃ frame ∈ heard, frame.upto = u := by
  refine List.foldlRecOn heard (Screen.see runId) (b := ⟨start, none, []⟩)
    (motive := fun screen => ∀ u ∈ screen.history, ∃ frame ∈ heard, frame.upto = u)
    (List.forall_mem_nil _) ?_
  intro screen old frame member u hu
  rw [Screen.see_history] at hu
  split at hu
  · rcases List.mem_append.mp hu with hu | new
    · exact old u hu
    · exact ⟨frame, member, (List.mem_singleton.mp new).symm⟩
  · exact old u hu

end

/-! ## What is shown is the report it is as of -/

/-- The run as of a number. -/
def asOf (runId : String) (issued : List Delta) (upto : Nat) : Option AgentRun :=
  lastReport runId (upTo issued upto)

/-- A frame that a reporter of the session with the given deltas sends: its whole view as of a
number, or one of the deltas. -/
def Frame.Genuine (sessionId runId : String) (issued : List Delta) : Frame → Prop
  | .whole upto msg => ∃ session : Session, msg = .sessionUpsert session ∧
      session.sessionId = sessionId ∧
      session.runs.find? (fun r => r.runId = runId) = asOf runId issued upto
  | .delta d => d.Own sessionId ∧ d ∈ issued

/-- The run the Hub holds is as of the number it shows. -/
def Screen.Faithful (sessionId runId : String) (issued : List Delta) (screen : Screen) : Prop :=
  ∀ upto ∈ screen.shown, screen.hub.runOf sessionId runId = asOf runId issued upto

section

variable {sessionId runId : String} {issued : List Delta}

theorem asOf_seq {d : Delta} {run : AgentRun} (hd : d ∈ issued)
    (sorted : issued.Pairwise (fun d e => d.seq < e.seq)) (reported : d.reported = some run)
    (own : run.runId = runId) : asOf runId issued d.seq = some run := by
  obtain ⟨pre, post, split⟩ := List.append_of_mem hd
  rw [asOf, upTo_seq split sorted, lastReport_append, reported]
  simp [Option.filter, own]

/-- A message the Hub does not take leaves the run as it was. -/
theorem StateStore.runOf_untaken (store : StateStore) (frame : Frame) {d : Delta}
    (own : d.Own sessionId) (msg : frame.msg = d.msg) (untaken : store.takes frame.msg = false) :
    (store.hear frame).runOf sessionId runId = store.runOf sessionId runId := by
  have engine := store.hear_engine frame own msg
  simp only [untaken, Bool.false_eq_true, if_false] at engine
  rw [runOf, runOf, engine]

theorem StateStore.runOf_session (store : StateStore) (frame : Frame) {session : Session}
    (msg : frame.msg = .sessionUpsert session) (taken : store.takes frame.msg = true) :
    (store.hear frame).runOf session.sessionId runId =
      session.runs.find? (fun r => r.runId = runId) := by
  obtain ⟨s, found, runs⟩ := store.hear_session frame msg taken
  rw [runOf, found, Option.bind_some, runs]

theorem StateStore.runOf_run (store : StateStore) (frame : Frame) {run : AgentRun}
    {stamp : Option SeqStamp} (msg : frame.msg = .runUpsert sessionId run stamp)
    (taken : store.takes frame.msg = true) :
    (store.hear frame).runOf sessionId runId =
      if run.runId = runId then some run else store.runOf sessionId runId := by
  obtain ⟨s, s', live, found, runs⟩ := store.hear_run frame msg taken
  rw [runOf, runOf, found, live, Option.bind_some, Option.bind_some, runs,
    MergeEngine.find?_upsertRunIn]

theorem Screen.Faithful.see (sorted : issued.Pairwise (fun d e => d.seq < e.seq))
    {screen : Screen} (h : screen.Faithful sessionId runId issued) {frame : Frame}
    (genuine : frame.Genuine sessionId runId issued) :
    (screen.see runId frame).Faithful sessionId runId issued := by
  intro upto shown
  rw [see_hub]
  cases frame with
  | whole n msg =>
    obtain ⟨session, rfl, rfl, view⟩ := genuine
    have own := Delta.Own.session 0 session rfl
    by_cases taken : screen.hub.takes (.sessionUpsert session) = true
    · simp only [Screen.see, Frame.msg, taken, if_true, Option.mem_some_iff] at shown
      rw [StateStore.runOf_session _ _ rfl taken, view, ← shown]
      rfl
    · rw [Bool.not_eq_true] at taken
      simp only [Screen.see, Frame.msg, taken, Bool.false_eq_true, if_false] at shown
      rw [StateStore.runOf_untaken _ _ own rfl taken]
      exact h upto shown
  | delta d =>
    obtain ⟨own, issued'⟩ := genuine
    by_cases taken : screen.hub.takes d.msg = true
    · cases own with
      | session seq session own =>
        simp [Screen.see, Frame.msg, taken, Delta.reported] at shown
      | run seq run stamp =>
        rw [StateStore.runOf_run _ _ rfl taken]
        simp only [Screen.see, Frame.msg, taken, if_true, Delta.reported] at shown
        split at shown
        · rename_i own
          rw [if_pos own, ← Option.some.inj shown]
          exact (asOf_seq issued' sorted rfl own).symm
        · rename_i other
          rw [if_neg other]
          exact h upto shown
    · rw [Bool.not_eq_true] at taken
      simp only [Screen.see, Frame.msg, taken, Bool.false_eq_true, if_false] at shown
      rw [StateStore.runOf_untaken _ _ own rfl taken]
      exact h upto shown

theorem faithful_screenOf (start : StateStore)
    (sorted : issued.Pairwise (fun d e => d.seq < e.seq)) (heard : List Frame)
    (genuine : ∀ frame ∈ heard, frame.Genuine sessionId runId issued) :
    (screenOf start runId heard).Faithful sessionId runId issued := by
  refine List.foldlRecOn heard (Screen.see runId) (by exact nofun) ?_
  intro screen h frame member
  exact h.see sorted (genuine frame member)

end

/-! ## The record of one run along the driver -/

/-- The gate drops the delta. -/
def Dropped (hub : StateStore) (d : Delta) : Prop := ∃ s ∈ d.stamp, hub.admits s = false

/-- The invariant: the frames read are genuine and show the run ever newer, and what waits about it
is dropped or at least as new as all that was shown. -/
structure Watched (start : StateStore) (config : ReporterConfig) (runId : String)
    (heard : List Frame) (issued : List Delta) (core : ReporterCore) (pending : List Delta) :
    Prop where
  configured : core.config = config
  suffix : pending <:+ issued
  sorted : issued.Pairwise (fun d e => d.seq < e.seq)
  below : ∀ d ∈ issued, d.seq < core.buffer.nextSeq
  started : 0 < core.buffer.nextSeq
  read : ∀ frame ∈ heard, frame.upto < core.buffer.nextSeq
  known : lastReport runId issued = core.knownRuns.lookup runId
  genuine : ∀ frame ∈ heard, frame.Genuine config.sessionId runId issued
  newer : (screenOf start runId heard).history.Pairwise (fun u u' =>
    reportNo runId issued u ≤ reportNo runId issued u')
  ahead : ∀ d ∈ pending, d.reportsRun runId = true →
    Dropped (heard.foldl StateStore.hear start) d ∨
      ∀ u ∈ (screenOf start runId heard).history,
        reportNo runId issued u ≤ reportNo runId issued d.seq

section

variable {hub start : StateStore} {config : ReporterConfig} {runId : String} {heard : List Frame}
  {issued : List Delta} {core core' : ReporterCore} {pending : List Delta} {d : Delta}

theorem Dropped.untaken {sessionId : String} (dropped : Dropped hub d) (own : d.Own sessionId) :
    hub.takes d.msg = false := by
  obtain ⟨s, hs, drops⟩ := dropped
  cases own with
  | session seq session own => cases hs
  | run seq run stamp =>
    obtain rfl : stamp = some s := hs
    simp [StateStore.takes, drops]

/-- The marks only rise, so what is dropped stays so. -/
theorem Dropped.hear {frame : Frame} {e : Delta} (dropped : Dropped hub d)
    (h : Backlog hub core pending) (h' : Backlog (hub.hear frame) core pending) (hd : d ∈ pending)
    (own : e.Own core.config.sessionId) (msg : frame.msg = e.msg)
    (zero : ∀ s ∈ e.stamp, s.epoch = 0) : Dropped (hub.hear frame) d := by
  obtain ⟨s, hs, drops⟩ := dropped
  refine ⟨s, hs, Bool.eq_false_iff.mpr (fun admits => Bool.eq_false_iff.mp drops ?_)⟩
  rw [h'.admits_iff hd hs] at admits
  rw [h.admits_iff hd hs]
  rcases hub.hear_mark frame own msg ⟨s.durableId⟩ with same | ⟨t, ht, id, passes, moved⟩
  · rwa [same] at admits
  · intro m hm
    have above : t.seq < s.seq := admits _ moved
    have first := (h.marks s.durableId m hm).1
    rw [StateStore.admits, ← id, ReclaimTable.classify_applies_iff hm] at passes
    have := zero t ht
    omega

namespace Watched

theorem pop (h : Watched start config runId heard issued core (d :: pending)) :
    Watched start config runId heard issued core pending := { h with
  suffix := (List.suffix_cons d pending).trans h.suffix
  ahead := fun e he => h.ahead e (List.mem_cons_of_mem d he) }

theorem le_of_mem (h : Watched start config runId heard issued core pending) {u : Nat}
    (hu : u ∈ (screenOf start runId heard).history) : u < core.buffer.nextSeq := by
  obtain ⟨frame, hf, rfl⟩ := mem_history start runId heard _ hu
  exact h.read frame hf

/-- The Hub reads the oldest delta. -/
theorem hear (backlog : Backlog (heard.foldl StateStore.hear start) core (d :: pending))
    (h : Watched start config runId heard issued core (d :: pending)) :
    Watched start config runId (heard ++ [.delta d]) issued core (d :: pending) := by
  have own := backlog.own d (by simp)
  have hd : d ∈ issued := h.suffix.subset (by simp)
  have hub : (heard ++ [Frame.delta d]).foldl StateStore.hear start =
      (heard.foldl StateStore.hear start).hear (.delta d) := List.foldl_append ..
  have history := Screen.see_history runId (.delta d) (screenOf start runId heard)
  rw [← screenOf_append, screenOf_hub] at history
  have ahead : ∀ e ∈ d :: pending, e.reportsRun runId = true →
      Dropped ((heard.foldl StateStore.hear start).hear (.delta d)) e ∨
        ∀ u ∈ (screenOf start runId heard).history,
          reportNo runId issued u ≤ reportNo runId issued e.seq := by
    intro e he reports
    rcases h.ahead e he reports with dropped | newer
    · exact Or.inl (dropped.hear backlog backlog.hear he own rfl
        (fun s hs => (backlog.stamped d (by simp) s hs).1))
    · exact Or.inr newer
  refine { h with read := ?_, genuine := ?_, newer := ?_, ahead := ?_ }
  · intro frame hf
    rcases List.mem_append.mp hf with hf | hf
    · exact h.read frame hf
    · rw [List.mem_singleton.mp hf]
      exact h.below d hd
  · intro frame hf
    rcases List.mem_append.mp hf with hf | hf
    · exact h.genuine frame hf
    · rw [List.mem_singleton.mp hf]
      exact ⟨h.configured ▸ own, hd⟩
  · rw [history]
    split
    · rename_i shown
      rw [Bool.and_eq_true] at shown
      rw [List.pairwise_append]
      refine ⟨h.newer, List.pairwise_singleton _ _, fun u hu u' hu' => ?_⟩
      rw [List.mem_singleton.mp hu']
      rcases h.ahead d (by simp) shown.2 with dropped | newer
      · rw [show (Frame.delta d).msg = d.msg from rfl, dropped.untaken own] at shown
        cases shown.1
      · exact newer u hu
    · exact h.newer
  · intro e he reports
    rw [hub, history]
    rcases ahead e he reports with dropped | newer
    · exact Or.inl dropped
    · refine Or.inr (fun u hu => ?_)
      split at hu
      · rcases List.mem_append.mp hu with hu | hu
        · exact newer u hu
        · rw [List.mem_singleton.mp hu]
          apply reportNo_mono
          rcases List.mem_cons.mp he with rfl | he
          · exact Nat.le_refl _
          · exact Nat.le_of_lt ((List.pairwise_cons.mp backlog.ordered).1 e he)
      · exact newer u hu

/-- The Hub reads the whole view: it is as new as the last report, so what waits about the run must
be that report or be dropped. -/
theorem whole (backlog : Backlog (heard.foldl StateStore.hear start) core pending)
    (h : Watched start config runId heard issued core pending) {msg : ClientMessage}
    (view : msg ∈ core.heartbeatMessage)
    (latest : ∀ d ∈ pending, d.reportsRun runId = true →
      (∃ e ∈ pending, e.reportsRun runId = true ∧ d.seq < e.seq) →
      Dropped (heard.foldl StateStore.hear start) d) :
    Watched start config runId (heard ++ [.whole core.lastSeq msg]) issued core pending := by
  obtain ⟨session, registered, rfl⟩ := Option.map_eq_some_iff.mp view
  have own := backlog.registered session registered
  have backlog' := backlog.hearWhole core.lastSeq
    { session with runs := core.runsInOrder } own
  have last : ∀ u, u < core.buffer.nextSeq → u ≤ core.lastSeq := by
    intro u hu
    rw [ReporterCore.lastSeq, DeltaBuffer.lastSeq]
    omega
  have hub : (heard ++ [Frame.whole core.lastSeq (.sessionUpsert
      { session with runs := core.runsInOrder })]).foldl StateStore.hear start =
      (heard.foldl StateStore.hear start).hear (.whole core.lastSeq (.sessionUpsert
        { session with runs := core.runsInOrder })) := List.foldl_append ..
  have history := Screen.see_history runId (.whole core.lastSeq (.sessionUpsert
    { session with runs := core.runsInOrder })) (screenOf start runId heard)
  rw [← screenOf_append, screenOf_hub] at history
  refine { h with read := ?_, genuine := ?_, newer := ?_, ahead := ?_ }
  · intro frame hf
    rcases List.mem_append.mp hf with hf | hf
    · exact h.read frame hf
    · rw [List.mem_singleton.mp hf]
      have := h.started
      simp only [Frame.upto, ReporterCore.lastSeq, DeltaBuffer.lastSeq]
      omega
  · intro frame hf
    rcases List.mem_append.mp hf with hf | hf
    · exact h.genuine frame hf
    · rw [List.mem_singleton.mp hf]
      refine ⟨_, rfl, by rw [← h.configured]; exact own, ?_⟩
      have known := backlog.known.get?_values runId
      rw [KeyedList.get?] at known
      rw [asOf, upTo_of_le (fun d hd => last d.seq (h.below d hd)), h.known]
      exact known
  · rw [history]
    split
    · rw [List.pairwise_append]
      refine ⟨h.newer, List.pairwise_singleton _ _, fun u hu u' hu' => ?_⟩
      rw [List.mem_singleton.mp hu']
      exact reportNo_mono runId issued (last u (h.le_of_mem hu))
    · exact h.newer
  · intro d hd reports
    rw [hub]
    by_cases later : ∃ e ∈ pending, e.reportsRun runId = true ∧ d.seq < e.seq
    · exact Or.inl ((latest d hd reports later).hear backlog backlog' hd
        (.session 0 { session with runs := core.runsInOrder } own) rfl
        (fun s stamped => by cases stamped))
    · right
      obtain ⟨pre, split⟩ := h.suffix
      have newest : ∀ e ∈ issued, e.reportsRun runId = true → e.seq ≤ d.seq := by
        intro e he again
        by_contra above
        rw [← split] at he
        have sorted := h.sorted
        rw [← split, List.pairwise_append] at sorted
        rcases List.mem_append.mp he with he | he
        · exact above (Nat.le_of_lt (sorted.2.2 e he d hd))
        · exact later ⟨e, he, again, Nat.lt_of_not_le above⟩
      have below := h.below d (h.suffix.subset hd)
      rw [reportNo_of_latest newest (last d.seq below)]
      intro u hu
      rw [history] at hu
      have seen : u < core.buffer.nextSeq ∨ u = core.lastSeq := by
        split at hu
        · rcases List.mem_append.mp hu with hu | hu
          · exact Or.inl (h.le_of_mem hu)
          · exact Or.inr (List.mem_singleton.mp hu)
        · exact Or.inl (h.le_of_mem hu)
      rcases seen with seen | rfl
      · exact reportNo_mono runId issued (last u seen)
      · exact Nat.le_refl _

/-- A move leaves the buffer, or enqueues one delta, and then the core knows the run as the delta
reports it. -/
theorem pushes (moves : core.Moves core') :
    (core'.buffer = core.buffer ∧ core'.knownRuns = core.knownRuns) ∨
    ∃ msg, core'.buffer = core.buffer.push msg ∧ ∀ id, core'.knownRuns.lookup id =
      ((Delta.reported ⟨core.buffer.nextSeq, msg⟩).filter (fun r => r.runId = id)).or
        (core.knownRuns.lookup id) := by
  cases moves with
  | silent liveness => exact Or.inl ⟨rfl, rfl⟩
  | register session own => exact Or.inr ⟨_, rfl, fun _ => rfl⟩
  | report liveness run =>
    refine Or.inr ⟨_, rfl, fun id => ?_⟩
    simp only [ReporterCore.report, ReporterCore.enqueue, ReporterCore.stampedRunUpsert,
      ReporterCore.rememberRun, Delta.reported]
    by_cases own : run.runId = id
    · subst own
      simp [Option.filter]
    · simp [Option.filter, own, AList.lookup_insert_ne (Ne.symm own)]

/-- Making room keeps a part of the queue. -/
theorem makeRoom_suffix (core : ReporterCore) :
    core.buffer.makeRoom.queue <:+ core.buffer.queue := by
  rcases core.buffer.makeRoom_queue with dropped | ⟨kept, -⟩
  · rw [dropped]
    exact List.tail_suffix _
  · simp only [kept, List.suffix_rfl]

/-- The deltas of a queue that were issued from a number on: none of the old ones. -/
theorem newly_issued (backlog : Backlog hub core core.buffer.queue) (msg : ClientMessage) :
    core.buffer.queue.filter (fun d => core.buffer.nextSeq ≤ d.seq) = [] ∧
      (core.buffer.push msg).queue.filter (fun d => core.buffer.nextSeq ≤ d.seq) =
        [⟨core.buffer.nextSeq, msg⟩] := by
  have old : ∀ queue : List Delta, queue ⊆ core.buffer.queue →
      queue.filter (fun d => core.buffer.nextSeq ≤ d.seq) = [] := by
    intro queue sub
    rw [List.filter_eq_nil_iff]
    intro d hd
    have := backlog.issued d (sub hd)
    simp only [decide_eq_true_eq]
    omega
  refine ⟨old _ (List.Subset.refl _), ?_⟩
  rw [DeltaBuffer.push_queue, List.filter_append, old _ (makeRoom_suffix core).subset]
  simp

theorem moves (backlog : Backlog (heard.foldl StateStore.hear start) core core.buffer.queue)
    (h : Watched start config runId heard issued core core.buffer.queue)
    (moves : core.Moves core') :
    Watched start config runId heard
      (issued ++ core'.buffer.queue.filter (fun d => core.buffer.nextSeq ≤ d.seq)) core'
      core'.buffer.queue := by
  have configured := moves.config.trans h.configured
  rcases pushes moves with ⟨buffer, known⟩ | ⟨msg, buffer, known⟩
  · rw [buffer, (newly_issued backlog .subscribe).1, List.append_nil]
    exact { h with
      configured := configured
      below := by rw [buffer]; exact h.below
      started := by rw [buffer]; exact h.started
      read := by rw [buffer]; exact h.read
      known := by rw [known]; exact h.known }
  · rw [buffer, (newly_issued backlog msg).2, DeltaBuffer.push_queue]
    -- What was read before reflects nothing of the new delta.
    have same : ∀ u, u < core.buffer.nextSeq →
        upTo (issued ++ [⟨core.buffer.nextSeq, msg⟩]) u = upTo issued u := by
      intro u hu
      apply upTo_append_of_lt
      intro d hd
      rw [List.mem_singleton.mp hd]
      exact hu
    have no : ∀ u, u < core.buffer.nextSeq →
        reportNo runId (issued ++ [⟨core.buffer.nextSeq, msg⟩]) u = reportNo runId issued u := by
      intro u hu
      rw [reportNo, same u hu, reportNo]
    refine ⟨configured, ?_, ?_, ?_, ?_, ?_, ?_, ?_, ?_, ?_⟩
    · obtain ⟨pre, split⟩ := (makeRoom_suffix core).trans h.suffix
      exact ⟨pre, by rw [← List.append_assoc, split]⟩
    · rw [List.pairwise_append]
      refine ⟨h.sorted, List.pairwise_singleton _ _, fun d hd e he => ?_⟩
      rw [List.mem_singleton.mp he]
      exact h.below d hd
    · intro d hd
      rw [buffer, DeltaBuffer.push_nextSeq]
      rcases List.mem_append.mp hd with hd | hd
      · exact Nat.lt_succ_of_lt (h.below d hd)
      · rw [List.mem_singleton.mp hd]
        exact Nat.lt_succ_self _
    · rw [buffer, DeltaBuffer.push_nextSeq]
      exact Nat.succ_pos _
    · intro frame hf
      rw [buffer, DeltaBuffer.push_nextSeq]
      exact Nat.lt_succ_of_lt (h.read frame hf)
    · rw [lastReport_append, known, h.known]
    · intro frame hf
      have genuine := h.genuine frame hf
      have read := h.read frame hf
      cases frame with
      | whole upto msg =>
        obtain ⟨session, rfl, own, view⟩ := genuine
        refine ⟨session, rfl, own, ?_⟩
        rw [view, asOf, asOf, same upto read]
      | delta d => exact ⟨genuine.1, List.mem_append_left _ genuine.2⟩
    · refine h.newer.imp_of_mem (fun hu hu' le => ?_)
      rw [no _ (h.le_of_mem hu), no _ (h.le_of_mem hu')]
      exact le
    · intro d hd reports
      rcases List.mem_append.mp hd with hd | hd
      · have old := (makeRoom_suffix core).subset hd
        rcases h.ahead d old reports with dropped | newer
        · exact Or.inl dropped
        · refine Or.inr (fun u hu => ?_)
          rw [no _ (h.le_of_mem hu), no _ (backlog.issued d old)]
          exact newer u hu
      · right
        intro u hu
        rw [List.mem_singleton.mp hd]
        exact reportNo_mono _ _ (Nat.le_of_lt (h.le_of_mem hu))

theorem steady (start : StateStore) (config : ReporterConfig) (runId : String) :
    Fact.Steady start (Watched start config runId) where
  pop := Watched.pop
  hear := Watched.hear
  queue := fun _ h => { h with }
  now := fun _ h => { h with }
  moves := Watched.moves

end Watched

end

/-! ## A tick reports no run twice -/

/-- No two of the deltas report one run. -/
def Apart (queue : List Delta) : Prop :=
  queue.Pairwise (fun d e => ∀ id, d.reportsRun id = true → e.reportsRun id = false)

theorem Apart.eq {queue : List Delta} (h : Apart queue) {d e : Delta} (hd : d ∈ queue)
    (he : e ∈ queue) {id : String} (reports : d.reportsRun id = true)
    (again : e.reportsRun id = true) : d = e := by
  by_contra different
  have : Std.Symm (fun d e : Delta =>
      ∀ id, d.reportsRun id = true → e.reportsRun id = false) := by
    refine ⟨fun d e apart id reports => ?_⟩
    rw [Bool.eq_false_iff]
    intro other
    rw [apart id other] at reports
    cases reports
  have none := List.Pairwise.forall h hd he different id reports
  rw [again] at none
  cases none

theorem ReporterCore.timedOut_nodup (core : ReporterCore)
    (iter : IterOrder (Sigma fun _ : String => LivenessTracker)) : (core.timedOut iter).Nodup := by
  have keys : (core.liveness.entries.map Sigma.fst).Nodup := core.liveness.nodupKeys
  have order := ((iter.isPerm core.liveness.entries).map Sigma.fst).nodup_iff.mpr keys
  exact order.sublist (List.filter_sublist.map Sigma.fst)

theorem ReporterCore.reapOne_queue (core : ReporterCore) (iso : String → String) (id : String) :
    ∃ d : Delta, (core.reapOne iso id).buffer.queue = core.buffer.makeRoom.queue ++ [d] ∧
      d.reported = some (core.deadRun (iso id) id "heartbeat timeout") :=
  ⟨_, DeltaBuffer.push_queue _ _, rfl⟩

/-- Reaping distinct runs from an empty buffer leaves at most one report of each. -/
theorem Link.reap_apart {start : StateStore} {X : Fact} (steady : X.Steady start)
    (iso : String → String) (runIds : List String) : ∀ {link : Link},
    link.At start X link.core.buffer.queue → runIds.Nodup → Apart link.core.buffer.queue →
    (∀ id ∈ runIds, ∀ d ∈ link.core.buffer.queue, d.reportsRun id = false) →
    Apart (link.reap iso runIds).core.buffer.queue := by
  induction runIds with
  | nil => exact fun _ _ apart _ => apart
  | cons id runIds ih =>
    intro link h distinct apart unreported
    rw [List.nodup_cons] at distinct
    have moves := link.core.reapOne_moves iso id
    have dead : (link.core.deadRun (iso id) id "heartbeat timeout").runId = id :=
      ReporterCore.deadRun_runId h.1.known _ _ _
    have kept := (Watched.makeRoom_suffix link.core).subset
    obtain ⟨last, queue, reported⟩ := link.core.reapOne_queue iso id
    have about : ∀ id', last.reportsRun id' = decide (id = id') := by
      intro id'
      rw [Delta.reportsRun, reported, Option.any_some, dead]
    refine ih (h.absorb steady moves) distinct.2 ?_ ?_
    · simp only [Link.absorb, queue, Apart]
      rw [List.pairwise_append]
      refine ⟨apart.sublist (Watched.makeRoom_suffix link.core).sublist,
        List.pairwise_singleton _ _, fun d hd e he id' reports => ?_⟩
      rw [List.mem_singleton.mp he, about, decide_eq_false_iff_not]
      rintro rfl
      rw [unreported id (by simp) d (kept hd)] at reports
      cases reports
    · simp only [Link.absorb, queue]
      intro id' hid' d hd
      rcases List.mem_append.mp hd with hd | hd
      · exact unreported id' (by simp [hid']) d (kept hd)
      · rw [List.mem_singleton.mp hd, about, decide_eq_false_iff_not]
        rintro rfl
        exact distinct.1 hid'

/-! ## The backlog and the shown content -/

/-- A connect that starts with a registration finds no report of the run waiting that a later one
follows, unless the gate will drop it. -/
def Link.NothingStale (start : StateStore) (runId : String) (link : Link) : Link.Step → Prop
  | .connect _ => link.up = false → link.core.registeredSession.isSome →
    ∀ d ∈ link.core.buffer.queue, d.reportsRun runId = true →
      (∃ e ∈ link.core.buffer.queue, e.reportsRun runId = true ∧ d.seq < e.seq) →
      Dropped (link.hub start) d
  | _ => True

/-- One round keeps the record growing. -/
theorem Link.Rests.step_watched {start : StateStore} {config : ReporterConfig} {runId : String}
    {link : Link} (h : link.Rests start (Watched start config runId)) (s : Link.Step)
    (own : s.Own config.sessionId) (fresh : link.NothingStale start runId s) :
    (link.step s).Rests start (Watched start config runId) := by
  have steady := Watched.steady start config runId
  have configured : link.core.config = config := h.at_.2.configured
  refine h.step steady s (by rw [configured]; exact own) ?_
  intro at_ viewing msg view now
  refine now.2.whole now.1 view ?_
  cases s with
  | refused pending => cases viewing
  | command iso cmd net => cases viewing
  | connect net =>
    simp only [Link.viewing] at viewing
    split at viewing
    · cases viewing
    · rename_i down
      obtain rfl := Option.some.inj viewing
      have registered : link.core.registeredSession.isSome := by
        rw [ReporterCore.heartbeatMessage, Option.mem_def, Option.map_eq_some_iff] at view
        obtain ⟨session, found, -⟩ := view
        exact Option.isSome_iff_exists.mpr ⟨session, found⟩
      exact fresh (Bool.eq_false_iff.mpr down) registered
  | tick elapsed iter iso net =>
    simp only [Link.viewing] at viewing
    split at viewing
    · rename_i up
      obtain rfl := Option.some.inj viewing
      intro d hd reports later
      obtain ⟨e, he, again, above⟩ := later
      have empty : (link.core.advanceTo elapsed).buffer.queue = [] := by
        rw [← h.served up]
        unfold ReporterCore.advanceTo
        split <;> rfl
      have apart := Link.reap_apart steady iso ((link.core.advanceTo elapsed).timedOut iter)
        (h.at_.advance steady elapsed) ((link.core.advanceTo elapsed).timedOut_nodup iter)
        (by simp only [empty]; exact List.Pairwise.nil) (by simp [empty])
      rw [apart.eq hd he reports again] at above
      exact absurd above (Nat.lt_irrefl _)
    · cases viewing

/-- In a run of the driver whose reconnects find nothing stale about a run, the reports the Hub
shows the run as of never go back, and what it holds of the run is the report it shows it as of. -/
theorem backlog_never_regresses (config : ReporterConfig) (log : EventLog) (runId : String)
    (steps : List Link.Step) (own : ∀ s ∈ steps, s.Own config.sessionId)
    (fresh : Along Link.step (Link.NothingStale (.fromLog log) runId) (.new config) steps) :
    let link := steps.foldl Link.step (.new config)
    ((screenOf (.fromLog log) runId link.heard).history.map
      (reportNo runId link.issued)).Pairwise (· ≤ ·) ∧
    ∀ n, (screenOf (.fromLog log) runId (link.heard.take n)).Faithful config.sessionId runId
      link.issued := by
  intro link
  have initial : Watched (.fromLog log) config runId [] [] (.new config) [] := {
    configured := rfl
    suffix := List.suffix_rfl
    sorted := List.Pairwise.nil
    below := by simp
    started := Nat.succ_pos 0
    read := by simp
    known := rfl
    genuine := by simp
    newer := List.Pairwise.nil
    ahead := by simp }
  have rests : link.Rests (.fromLog log) (Watched (.fromLog log) config runId) :=
    Along.invariant (fun _ s h ok => h.step_watched s ok.1 ok.2) steps _
      (Link.rests_new config log initial) (fresh.and own)
  have watched := rests.at_.2
  refine ⟨List.pairwise_map.mpr watched.newer, fun n => ?_⟩
  exact faithful_screenOf _ watched.sorted _ (fun frame hf =>
    watched.genuine frame (List.mem_of_mem_take hf))

/-- The last of two reports of a run waits when the link comes back. -/
theorem backlog_never_regresses_run :
    let steps := [Link.Step.connect [], .command "t" (.upsertSession (.plain "s" [])) [],
      .command "t" (.upsertRun (.plain "r" "n" .waiting)) [],
      .command "t" (.upsertRun (.plain "r" "n" .working)) [.failed false], .connect []]
    let link := steps.foldl Link.step (.new windowReporter)
    ((screenOf (.fromLog (.holding [] [])) "r" link.heard).history.map
      (reportNo "r" link.issued)).Pairwise (· ≤ ·) ∧
    ∀ n, (screenOf (.fromLog (.holding [] [])) "r" (link.heard.take n)).Faithful "s" "r"
      link.issued := by
  intro steps
  refine backlog_never_regresses windowReporter (.holding [] []) "r" steps
    (by simp [steps, Link.Step.Own, ReporterCommand.Own, Session.plain, Session.new,
      windowReporter])
    ⟨fun _ registered => absurd registered (by decide), trivial, trivial, trivial, ?_, trivial⟩
  intro _ _ d hd _ later
  obtain ⟨e, he, _, above⟩ := later
  have waiting : ∀ q ∈ ((steps.take 4).foldl Link.step (.new windowReporter)).core.buffer.queue,
      q.seq = 3 := by decide
  rw [waiting d hd, waiting e he] at above
  exact absurd above (Nat.lt_irrefl 3)

/-- Two reports of a run wait, that it is waiting and that it works again: the reconnect shows it
working, and then the first of the two shows it waiting. -/
theorem backlog_regresses :
    ¬ ∀ (config : ReporterConfig) (log : EventLog) (runId : String) (steps : List Link.Step),
      (∀ s ∈ steps, s.Own config.sessionId) →
      let link := steps.foldl Link.step (.new config)
      ((screenOf (.fromLog log) runId link.heard).history.map
        (reportNo runId link.issued)).Pairwise (· ≤ ·) := by
  intro monotone
  have held := monotone windowReporter (.holding [] []) "r" [.connect [],
    .command "t" (.upsertSession (.plain "s" [])) [],
    .command "t" (.upsertRun (.plain "r" "n" .waiting)) [.failed false],
    .refused [("t", .upsertRun (.plain "r" "n" .working))], .connect []]
    (by simp [Link.Step.Own, ReporterCommand.Own, Session.plain, Session.new, windowReporter])
  exact absurd held (by decide)

end VsFleet
