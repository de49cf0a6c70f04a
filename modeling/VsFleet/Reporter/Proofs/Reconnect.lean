import VsFleet.Reporter.Proofs.LinkSteps

/-!
# What the Hub holds after a reconnect

A reconnect sends the whole view of the reporter and then the backlog. The backlog may hold a plain
session upsert, which the Hub takes as the whole session: its runs replace those of the whole view,
and only what is reported behind it comes back.
-/

namespace VsFleet

open MergeEngine (upsertRunIn)

/-! ## Run lists -/

/-- Runs upserted one after the other. -/
def upsertRuns (runs : List AgentRun) (reported : List AgentRun) : List AgentRun :=
  reported.foldl (fun runs run => (upsertRunIn runs run).1) runs

/-- The runs that reports of the given ids leave standing: a report replaces the first run of its
id. -/
def carried : List String → List AgentRun → List AgentRun
  | _, [] => []
  | ids, w :: ws =>
    if w.runId ∈ ids then carried (ids.filter (fun id => id ≠ w.runId)) ws
    else w :: carried ids ws

theorem carried_reported {w : AgentRun} {ids : List String} (h : w.runId ∈ ids)
    (ws : List AgentRun) :
    carried ids (w :: ws) = carried (ids.filter (fun id => id ≠ w.runId)) ws := if_pos h

theorem carried_standing {w : AgentRun} {ids : List String} (h : w.runId ∉ ids)
    (ws : List AgentRun) : carried ids (w :: ws) = w :: carried ids ws := if_neg h

theorem carried_congr (runs : List AgentRun) : ∀ {ids ids' : List String},
    (∀ id, id ∈ ids ↔ id ∈ ids') → carried ids runs = carried ids' runs := by
  induction runs with
  | nil => exact fun _ => rfl
  | cons w runs ih =>
    intro ids ids' same
    unfold carried
    simp only [same w.runId]
    split
    · exact ih (fun id => by simp [same id])
    · rw [ih same]

theorem carried_nil (runs : List AgentRun) : carried [] runs = runs := by
  induction runs with
  | nil => rfl
  | cons w runs ih => simp [carried, ih]

theorem mem_carried_of_unreported {w : AgentRun} {runs : List AgentRun} : ∀ {ids : List String},
    w.runId ∉ ids → (w ∈ carried ids runs ↔ w ∈ runs) := by
  induction runs with
  | nil => exact fun _ => Iff.rfl
  | cons r runs ih =>
    intro ids unreported
    unfold carried
    split
    · rename_i reported
      have other : w ≠ r := by
        rintro rfl
        exact unreported reported
      rw [ih (fun member => unreported (List.mem_of_mem_filter member))]
      simp [other]
    · rw [List.mem_cons, List.mem_cons, ih unreported]

/-- Of runs with distinct ids every reported one is replaced. -/
theorem mem_carried_of_nodup {w : AgentRun} {runs : List AgentRun} :
    ∀ {ids : List String}, (runs.map (fun r => r.runId)).Nodup → w ∈ carried ids runs →
      w ∈ runs ∧ w.runId ∉ ids := by
  induction runs with
  | nil => exact fun _ member => nomatch member
  | cons r runs ih =>
    intro ids distinct member
    rw [List.map_cons, List.nodup_cons] at distinct
    unfold carried at member
    split at member
    · obtain ⟨old, unreported⟩ := ih distinct.2 member
      refine ⟨List.mem_cons_of_mem r old, fun reported => ?_⟩
      have other : w.runId ≠ r.runId := by
        intro same
        exact distinct.1 (same ▸ List.mem_map_of_mem (f := fun r : AgentRun => r.runId) old)
      exact unreported (List.mem_filter.mpr ⟨reported, by simpa using other⟩)
    · rename_i unreported
      rcases List.mem_cons.mp member with rfl | member
      · exact ⟨by simp, unreported⟩
      · obtain ⟨old, unreported⟩ := ih distinct.2 member
        exact ⟨List.mem_cons_of_mem r old, unreported⟩

/-- A run that is reported again later need not be upserted before. -/
theorem carried_upsertRunIn_reported {a : AgentRun} (runs : List AgentRun) :
    ∀ {ids : List String}, a.runId ∈ ids →
      carried ids (upsertRunIn runs a).1 = carried ids runs := by
  induction runs with
  | nil => exact fun reported => by simp [upsertRunIn, carried, reported]
  | cons r runs ih =>
    intro ids reported
    by_cases same : r.runId = a.runId
    · simp [upsertRunIn, carried, same, reported]
    · simp only [upsertRunIn, same, if_false, carried]
      split
      · exact ih (List.mem_filter.mpr ⟨reported, by simpa using Ne.symm same⟩)
      · rw [ih reported]

theorem mem_carried_upsertRunIn {a w : AgentRun} (runs : List AgentRun) : ∀ {ids : List String},
    a.runId ∉ ids → (w ∈ carried ids (upsertRunIn runs a).1 ↔
      w = a ∨ w ∈ carried (a.runId :: ids) runs) := by
  induction runs with
  | nil => exact fun unreported => by simp [upsertRunIn, carried, unreported]
  | cons r runs ih =>
    intro ids unreported
    by_cases same : r.runId = a.runId
    · have rest : carried ((a.runId :: ids).filter (fun id => id ≠ r.runId)) runs =
          carried ids runs := by
        apply carried_congr
        intro id
        simp only [same, List.mem_filter, List.mem_cons, decide_eq_true_eq]
        constructor
        · rintro ⟨rfl | member, other⟩
          · exact absurd rfl other
          · exact member
        · exact fun member => ⟨Or.inr member, fun own => unreported (own ▸ member)⟩
      have put : (upsertRunIn (r :: runs) a).1 = a :: runs := by simp [upsertRunIn, same]
      rw [put, carried_standing unreported, carried_reported (by simp [same]), rest, List.mem_cons]
    · have put : (upsertRunIn (r :: runs) a).1 = r :: (upsertRunIn runs a).1 := by
        simp [upsertRunIn, same]
      rw [put]
      by_cases reported : r.runId ∈ ids
      · have filtered : a.runId ∉ ids.filter (fun id => id ≠ r.runId) :=
          fun member => unreported (List.mem_of_mem_filter member)
        rw [carried_reported reported, carried_reported (List.mem_cons_of_mem _ reported),
          ih filtered, List.filter_cons_of_pos (by simpa using Ne.symm same)]
      · have standing : r.runId ∉ a.runId :: ids := by simp [same, reported]
        rw [carried_standing reported, carried_standing standing, List.mem_cons, List.mem_cons,
          ih unreported, or_left_comm]

theorem lastOf_cons (id : String) (a : AgentRun) (reported : List AgentRun) :
    lastOf id (a :: reported) =
      (lastOf id reported).or (if a.runId = id then some a else none) := by
  unfold lastOf
  by_cases own : a.runId = id <;> simp [List.find?_append, own]

theorem lastOf_isSome {id : String} {reported : List AgentRun} :
    (lastOf id reported).isSome ↔ id ∈ reported.map (fun r => r.runId) := by
  simp [lastOf, List.find?_isSome]

/-- What stands after reports: the last report of each id, and what no report replaces. -/
theorem mem_upsertRuns (reported : List AgentRun) {w : AgentRun} : ∀ {runs : List AgentRun},
    w ∈ upsertRuns runs reported ↔ lastOf w.runId reported = some w ∨
      w ∈ carried (reported.map (fun r => r.runId)) runs := by
  induction reported with
  | nil => simp [upsertRuns, carried_nil, lastOf]
  | cons a reported ih =>
    intro runs
    rw [upsertRuns, List.foldl_cons, ← upsertRuns, ih, lastOf_cons, List.map_cons]
    by_cases again : a.runId ∈ reported.map (fun r => r.runId)
    · have ids : carried (a.runId :: reported.map (fun r => r.runId)) runs =
          carried (reported.map (fun r => r.runId)) runs := by
        apply carried_congr
        intro id
        simp only [List.mem_cons, or_iff_right_iff_imp]
        rintro rfl
        exact again
      rw [carried_upsertRunIn_reported runs again, ids]
      apply or_congr_left
      cases last : lastOf w.runId reported with
      | some x => simp
      | none =>
        have other : a.runId ≠ w.runId := by
          intro own
          rw [own, ← lastOf_isSome, last] at again
          cases again
        simp [other]
    · rw [mem_carried_upsertRunIn runs again, ← or_assoc]
      apply or_congr_left
      constructor
      · rintro (last | rfl)
        · simp [last]
        · have none : lastOf w.runId reported = none := by
            rw [← Option.not_isSome_iff_eq_none, lastOf_isSome]
            exact again
          simp [none]
      · intro last
        cases found : lastOf w.runId reported with
        | some x =>
          rw [found] at last
          exact Or.inl last
        | none =>
          rw [found] at last
          split at last
          · exact Or.inr (Option.some.inj last).symm
          · cases last

/-! ## The Hub reads the backlog -/

/-- What a delta does to the runs of its session. -/
def Delta.project (runs : List AgentRun) (d : Delta) : List AgentRun :=
  match d.msg with
  | .sessionUpsert session => session.runs
  | .runUpsert _ run _ => (upsertRunIn runs run).1
  | _ => runs

/-- The session is live and no append to come fails. -/
structure StateStore.Serves (store : StateStore) (sessionId : String) : Prop where
  live : (store.engine.session sessionId).isSome
  healthy : true ∉ store.log.faults

namespace StateStore

variable {store : StateStore} {sessionId : String}

/-- A session upsert replaces the runs, whatever was there. -/
theorem hear_session_serves (frame : Frame) {session : Session}
    (msg : frame.msg = .sessionUpsert session) (healthy : true ∉ store.log.faults) :
    (store.hear frame).Serves session.sessionId ∧
      (store.hear frame).runsOf session.sessionId = session.runs := by
  have taken : store.takes frame.msg = true := by
    simp only [msg, takes, EventLog.head_healthy healthy, Bool.not_false]
  obtain ⟨s, found, runs⟩ := store.hear_session frame msg taken
  refine ⟨⟨?_, store.hear_healthy frame (Delta.Own.session 0 session rfl) msg healthy⟩, ?_⟩
  · rw [found]
    rfl
  · rw [runsOf, found, Option.map_some, Option.getD_some, runs]

/-- A run upsert that passes the gate, or meets none, is projected. -/
theorem hear_run_serves (frame : Frame) {run : AgentRun} {stamp : Option SeqStamp}
    (msg : frame.msg = .runUpsert sessionId run stamp) (serves : store.Serves sessionId)
    (applies : ∀ s ∈ stamp, store.admits s = true) :
    (store.hear frame).Serves sessionId ∧
      (store.hear frame).runsOf sessionId = (upsertRunIn (store.runsOf sessionId) run).1 := by
  have admitted : stamp.all store.admits = true := by
    cases stamp with
    | none => rfl
    | some t => exact applies t rfl
  have taken : store.takes frame.msg = true := by
    simp only [msg, takes, EventLog.head_healthy serves.healthy, serves.live, admitted,
      Bool.not_false, Bool.and_self]
  obtain ⟨s, s', live, found, runs⟩ := store.hear_run frame msg taken
  refine ⟨⟨?_, store.hear_healthy frame (Delta.Own.run 0 run stamp) msg serves.healthy⟩, ?_⟩
  · rw [found]
    rfl
  · rw [runsOf, runsOf, found, live, Option.map_some, Option.map_some, Option.getD_some,
      Option.getD_some, runs]

/-- A delta the gate drops leaves the sessions as they are. -/
theorem hear_dropped (frame : Frame) {run : AgentRun} {s : SeqStamp}
    (msg : frame.msg = .runUpsert sessionId run (some s)) (serves : store.Serves sessionId)
    (drops : store.admits s = false) : (store.hear frame).Serves sessionId ∧
      (store.hear frame).runsOf sessionId = store.runsOf sessionId := by
  have own : (⟨0, .runUpsert sessionId run (some s)⟩ : Delta).Own sessionId := .run 0 run (some s)
  have engine := store.hear_engine frame own msg
  simp only [msg, takes, Option.all_some, drops, Bool.and_false, Bool.false_eq_true, if_false]
    at engine
  refine ⟨⟨?_, store.hear_healthy frame own msg serves.healthy⟩, ?_⟩
  · rw [engine]
    exact serves.live
  · rw [runsOf, engine, runsOf]

end StateStore

section

variable {hub : StateStore} {core : ReporterCore} {pending : List Delta} {d : Delta}

/-- A backlog above the marks is projected whole. -/
theorem Backlog.replay : ∀ {pending : List Delta} {hub : StateStore},
    Backlog hub core pending → Fresh hub pending → hub.Serves core.config.sessionId →
    ((pending.map Frame.delta).foldl StateStore.hear hub).runsOf core.config.sessionId =
      pending.foldl Delta.project (hub.runsOf core.config.sessionId) := by
  intro pending
  induction pending with
  | nil => exact fun _ _ _ => rfl
  | cons d pending ih =>
    intro hub h fresh serves
    have applies : ∀ s ∈ d.stamp, hub.admits s = true := fun s hs =>
      (h.admits_iff (by simp) hs).mpr (fresh d (by simp) s hs)
    have own := h.own d (by simp)
    have fresh' : Fresh (hub.hear (.delta d)) pending := Fresh.hear own rfl
      (fun e he => fresh e (List.mem_cons_of_mem d he)) (List.pairwise_cons.mp h.ascending).1
    have one : (hub.hear (.delta d)).Serves core.config.sessionId ∧
        (hub.hear (.delta d)).runsOf core.config.sessionId =
          d.project (hub.runsOf core.config.sessionId) := by
      cases own with
      | session seq session own => exact own ▸ StateStore.hear_session_serves _ rfl serves.healthy
      | run seq run stamp => exact StateStore.hear_run_serves _ rfl serves applies
    rw [List.map_cons, List.foldl_cons, List.foldl_cons, ih h.hear.pop fresh' one.1, one.2]

end

/-! ## What a backlog makes of the whole view -/

/-- The last session upsert of a backlog, with the runs reported behind it. -/
def behind : List Delta → Option (Session × List AgentRun)
  | [] => none
  | d :: ds =>
    match behind ds with
    | some last => some last
    | none =>
      match d.msg with
      | .sessionUpsert session => some (session, reports ds)
      | _ => none

/-- Every known run is reported again behind the session or carried by it as it is now, and every
run the session carries is as the reporter knows it, unless a report behind it replaces it. -/
def Restores (known : List AgentRun) (session : Session) (reported : List AgentRun) : Prop :=
  (∀ run ∈ known, run.runId ∈ reported.map (fun r => r.runId) ∨ run ∈ session.runs) ∧
    ∀ run ∈ carried (reported.map (fun r => r.runId)) session.runs, run ∈ known

/-- No session upsert waits, or what is behind the last one restores the known runs. -/
def ReporterCore.Restored (core : ReporterCore) : Prop :=
  match behind core.buffer.queue with
  | none => True
  | some (session, reported) => Restores core.runsInOrder session reported

theorem foldl_project {sessionId : String} (pending : List Delta) : ∀ {runs : List AgentRun},
    (∀ d ∈ pending, d.Own sessionId) →
    pending.foldl Delta.project runs =
      match behind pending with
      | none => upsertRuns runs (reports pending)
      | some (session, reported) => upsertRuns session.runs reported := by
  induction pending with
  | nil => exact fun _ => rfl
  | cons d pending ih =>
    intro runs own
    rw [List.foldl_cons, ih (fun e he => own e (List.mem_cons_of_mem d he)), behind]
    cases behind pending with
    | some last => rfl
    | none => cases own d (by simp) <;> rfl

theorem lastReport_of_behind {pending : List Delta} {session : Session}
    {reported : List AgentRun} {id : String} {run : AgentRun}
    (last : lastOf id reported = some run) :
    behind pending = some (session, reported) → lastReport id pending = some run := by
  induction pending with
  | nil => exact nofun
  | cons d pending ih =>
    intro found
    rw [lastReport_cons]
    unfold behind at found
    cases rest : behind pending with
    | some x =>
      rw [rest] at found
      rw [ih (rest.trans found)]
      rfl
    | none =>
      simp only [rest] at found
      split at found
      · obtain ⟨-, rfl⟩ := Prod.mk.inj (Option.some.inj found)
        rw [lastReport, last]
        rfl
      · cases found

/-- The backlog on top of the whole view gives the known runs exactly under the condition. -/
theorem Backlog.restores_iff {hub : StateStore} {core : ReporterCore} {pending : List Delta}
    (h : Backlog hub core pending) :
    (∀ run, run ∈ pending.foldl Delta.project core.runsInOrder ↔ run ∈ core.runsInOrder) ↔
      match behind pending with
      | none => True
      | some (session, reported) => Restores core.runsInOrder session reported := by
  have known : ∀ {run : AgentRun}, run ∈ core.runsInOrder ↔
      core.knownRuns.lookup run.runId = some run := h.known.mem_values
  rw [foldl_project pending h.own]
  cases waiting : behind pending with
  | none =>
    simp only [iff_true]
    intro run
    rw [mem_upsertRuns]
    constructor
    · rintro (last | old)
      · exact known.mpr (h.latest _ run last)
      · exact (mem_carried_of_nodup h.known.values_nodup old).1
    · intro member
      by_cases reported : run.runId ∈ (reports pending).map (fun r => r.runId)
      · obtain ⟨last, found⟩ := Option.isSome_iff_exists.mp (lastOf_isSome.mpr reported)
        have newest := (h.latest _ last found).symm.trans (known.mp member)
        exact Or.inl (found.trans newest)
      · exact Or.inr ((mem_carried_of_unreported reported).mpr member)
  | some last =>
    obtain ⟨session, reported⟩ := last
    have latest : ∀ id run, lastOf id reported = some run → core.knownRuns.lookup id = some run :=
      fun id run last => h.latest id run (lastReport_of_behind last waiting)
    simp only [mem_upsertRuns, Restores]
    constructor
    · intro same
      refine ⟨fun run member => ?_, fun run standing => (same run).mp (Or.inr standing)⟩
      rcases (same run).mpr member with last | standing
      · exact Or.inl (lastOf_isSome.mp (by rw [last]; rfl))
      · by_cases again : run.runId ∈ reported.map (fun r => r.runId)
        · exact Or.inl again
        · exact Or.inr ((mem_carried_of_unreported again).mp standing)
    · rintro ⟨back, only⟩ run
      constructor
      · rintro (last | standing)
        · exact known.mpr (latest _ run last)
        · exact only run standing
      · intro member
        by_cases again : run.runId ∈ reported.map (fun r => r.runId)
        · obtain ⟨last, found⟩ := Option.isSome_iff_exists.mp (lastOf_isSome.mpr again)
          have newest := (latest _ last found).symm.trans (known.mp member)
          exact Or.inl (found.trans newest)
        · rcases back run member with reported | carries
          · exact absurd reported again
          · exact Or.inr ((mem_carried_of_unreported again).mpr carries)

/-- The Hub reads a backlog on top of the whole view. Its oldest delta may be one it has read. -/
theorem Backlog.flush_restores {hub : StateStore} {core : ReporterCore} {pending : List Delta}
    (h : Backlog hub core pending) (serves : hub.Serves core.config.sessionId)
    (runs : hub.runsOf core.config.sessionId = core.runsInOrder) :
    (∀ run, run ∈ ((pending.map Frame.delta).foldl StateStore.hear hub).runsOf
        core.config.sessionId ↔ run ∈ core.runsInOrder) ↔
      match behind pending with
      | none => True
      | some (session, reported) => Restores core.runsInOrder session reported := by
  by_cases fresh : Fresh hub pending
  · rw [h.replay fresh serves, runs]
    exact h.restores_iff
  · cases pending with
    | nil => simp [Fresh] at fresh
    | cons d pending =>
      have stale : ∃ s ∈ d.stamp, hub.admits s = false := by
        by_contra above
        refine fresh (fun e he s hs => ?_)
        rcases List.mem_cons.mp he with rfl | he
        · refine (h.admits_iff (by simp) hs).mp ?_
          by_contra below
          exact above ⟨s, hs, Bool.eq_false_iff.mpr below⟩
        · exact h.fresh e he s hs
      obtain ⟨s, hs, drops⟩ := stale
      have own := h.own d (by simp)
      have kept : (hub.hear (.delta d)).Serves core.config.sessionId ∧
          (hub.hear (.delta d)).runsOf core.config.sessionId = hub.runsOf core.config.sessionId ∧
          behind (d :: pending) = behind pending := by
        cases own with
        | session seq session own => cases hs
        | run seq run stamp =>
          obtain rfl : stamp = some s := hs
          obtain ⟨serves', same⟩ := hub.hear_dropped (.delta ⟨seq, .runUpsert _ run (some s)⟩) rfl
            serves drops
          refine ⟨serves', same, ?_⟩
          rw [behind]
          cases behind pending <;> rfl
      have fresh' : Fresh (hub.hear (.delta d)) pending :=
        h.fresh.hear own rfl (List.pairwise_cons.mp h.ascending).1
      rw [List.map_cons, List.foldl_cons, kept.2.2, h.hear.pop.replay fresh' kept.1, kept.2.1, runs]
      exact h.pop.restores_iff

/-! ## The reconnect -/

namespace Link

theorem headD_delivered {net : List Sending} (delivered : ∀ sending ∈ net, sending = .arrives) :
    net.headD .arrives = .arrives := by
  cases net with
  | nil => rfl
  | cons sending net => exact delivered sending (by simp)

theorem flushLoop_delivered (batch : List Delta) : ∀ (net : List Sending) {link : Link},
    (∀ sending ∈ net, sending = .arrives) → link.cut = false →
    flushLoop batch net link = ([], { link with heard := link.heard ++ batch.map .delta }) := by
  induction batch with
  | nil => simp [flushLoop]
  | cons d batch ih =>
    intro net link delivered uncut
    have sent : link.send .arrives (.delta d) =
        (true, { link with heard := link.heard ++ [.delta d] }) := by simp [send, uncut]
    have rest := @ih net.tail { link with heard := link.heard ++ [.delta d] }
      (fun sending hs => delivered sending (List.mem_of_mem_tail hs)) uncut
    unfold flushLoop
    rw [headD_delivered delivered, sent]
    simp only
    rw [rest]
    simp

/-- A connect that delivers everything: the whole view and then the backlog. -/
theorem step_connect_delivered {link : Link} (down : link.up = false) {msg : ClientMessage}
    (view : link.core.registrationMessage = some msg) {net : List Sending}
    (delivered : ∀ sending ∈ net, sending = .arrives) :
    link.step (.connect net) =
      { link with
        core := link.core.drain.2
        up := true
        cut := false
        heard := link.heard ++
          .whole link.core.lastSeq msg :: link.core.buffer.queue.map .delta } := by
  have flushed := @flushLoop_delivered link.core.buffer.queue net.tail
    { link with
      core := link.core.drain.2
      up := true
      cut := false
      heard := link.heard ++ [.whole link.core.lastSeq msg] }
    (fun sending hs => delivered sending (List.mem_of_mem_tail hs)) rfl
  simp only [step, down, Bool.false_eq_true, if_false, sync, view, headD_delivered delivered,
    send, flush]
  rw [show link.core.drain.1 = link.core.buffer.queue from rfl, flushed]
  simp

/-- The invariant along a run of the driver. -/
theorem rests_run (config : ReporterConfig) (log : EventLog) (steps : List Step)
    (own : ∀ s ∈ steps, s.Own config.sessionId) :
    (steps.foldl step (.new config)).Rests (.fromLog log)
      (fun _ _ core _ => core.config = config) := by
  have steady : Fact.Steady (.fromLog log) (fun _ _ core _ => core.config = config) :=
    ⟨fun h => h, fun _ h => h, fun _ h => h, fun _ h => h, fun _ h moves => moves.config.trans h⟩
  refine List.foldlRecOn steps step (rests_new config log rfl) ?_
  intro link h s member
  have config' : link.core.config = config := h.at_.2
  refine h.step steady s ?_ (fun _ _ _ _ at_ => at_.2)
  rw [config']
  exact own s member

end Link

/-- After any history of the driver, a reconnect that the Hub processes whole leaves it with the
runs of the reporter exactly when no session upsert waits in the buffer, or the last one that does
is made up for by what it carries and by what is reported behind it. -/
theorem reconnect_converges (config : ReporterConfig) (log : EventLog) (steps : List Link.Step)
    (own : ∀ s ∈ steps, s.Own config.sessionId) (net : List Sending)
    (delivered : ∀ sending ∈ net, sending = .arrives) :
    let link := steps.foldl Link.step (.new config)
    let after := link.step (.connect net)
    link.up = false → link.core.registeredSession.isSome →
    true ∉ (link.hub (.fromLog log)).log.faults →
    ((∀ run, run ∈ (after.hub (.fromLog log)).runsOf config.sessionId ↔
      run ∈ after.core.runsInOrder) ↔ link.core.Restored) := by
  intro link after down registered healthy
  obtain ⟨backlog, configured⟩ := (Link.rests_run config log steps own).at_
  have backlog : Backlog (link.hub (.fromLog log)) link.core link.core.buffer.queue := backlog
  have configured : link.core.config = config := configured
  obtain ⟨session, found⟩ := Option.isSome_iff_exists.mp registered
  have sessionId : session.sessionId = config.sessionId := by
    rw [← configured]
    exact backlog.registered session found
  have view : link.core.registrationMessage =
      some (.sessionUpsert { session with runs := link.core.runsInOrder }) := by
    simp [ReporterCore.registrationMessage, ReporterCore.heartbeatMessage, found]
  obtain ⟨serves, runs⟩ := StateStore.hear_session_serves (.whole link.core.lastSeq
    (.sessionUpsert { session with runs := link.core.runsInOrder })) rfl healthy
  have own : session.sessionId = link.core.config.sessionId := sessionId.trans (by rw [configured])
  have flushed := (backlog.hearWhole link.core.lastSeq { session with
    runs := link.core.runsInOrder } own).flush_restores (own ▸ serves) (own ▸ runs)
  have heard : after = _ := Link.step_connect_delivered down view delivered
  have hub : after.hub (.fromLog log) = (link.core.buffer.queue.map Frame.delta).foldl
      StateStore.hear ((link.hub (.fromLog log)).hear (.whole link.core.lastSeq
        (.sessionUpsert { session with runs := link.core.runsInOrder }))) := by
    rw [heard, Link.hub, List.foldl_append, List.foldl_cons]
    rfl
  have kept : after.core.runsInOrder = link.core.runsInOrder := by
    rw [heard]
    rfl
  rw [hub, kept, ← configured]
  exact flushed

/-- A reporter of one session, and the Hub it finds. -/
def windowReporter : ReporterConfig := ⟨"s", 30, false⟩

/-- The session and a run are delivered, the link goes down on a second run, and the reconnect
brings it. -/
theorem reconnect_converges_run :
    let steps := [Link.Step.connect [], .command "t" (.upsertSession (.plain "s" [])) [],
      .command "t" (.upsertRun (.plain "r" "n" .working)) [],
      .command "t" (.upsertRun (.plain "q" "m" .waiting)) [.failed true]]
    let link := steps.foldl Link.step (.new windowReporter)
    let after := link.step (.connect [])
    (link.up = false ∧ link.core.registeredSession.isSome ∧
      true ∉ (link.hub (.fromLog (.holding [] []))).log.faults) ∧
    ((∀ run, run ∈ (after.hub (.fromLog (.holding [] []))).runsOf "s" ↔
      run ∈ after.core.runsInOrder) ↔ link.core.Restored) := by
  intro steps link after
  have met : link.up = false ∧ link.core.registeredSession.isSome ∧
      true ∉ (link.hub (.fromLog (.holding [] []))).log.faults := by decide
  exact ⟨met, reconnect_converges windowReporter (.holding [] []) steps
    (by simp [steps, Link.Step.Own, ReporterCommand.Own, Session.plain, Session.new,
      windowReporter])
    [] nofun met.1 met.2.1 met.2.2⟩

/-- The session is upserted again while the link is down: the reconnect shows the run, and the
buffered upsert, which has none, takes it away. -/
theorem reconnect_loses_run :
    ¬ ∀ (config : ReporterConfig) (log : EventLog) (steps : List Link.Step)
        (net : List Sending), (∀ s ∈ steps, s.Own config.sessionId) →
      (∀ sending ∈ net, sending = .arrives) →
      let link := steps.foldl Link.step (.new config)
      let after := link.step (.connect net)
      link.up = false → link.core.registeredSession.isSome →
      true ∉ (link.hub (.fromLog log)).log.faults →
      ∀ run, run ∈ (after.hub (.fromLog log)).runsOf config.sessionId ↔
        run ∈ after.core.runsInOrder := by
  intro converges
  have held := converges windowReporter (.holding [] []) [.connect [],
    .command "t" (.upsertSession (.plain "s" [])) [],
    .command "t" (.upsertRun (.plain "r" "n" .working)) [],
    .command "t" (.upsertSession (.plain "s" [])) [.failed false]] []
    (by simp [Link.Step.Own, ReporterCommand.Own, Session.plain, Session.new, windowReporter])
    nofun (by decide) (by decide) (by decide) (.plain "r" "n" .working)
  exact absurd (List.length_pos_of_mem (held.mpr (List.Mem.head []))) (by decide)

end VsFleet
