import Mathlib.Data.List.MinMax
import Mathlib.Data.Prod.Lex
import VsFleet.Hub.Proofs.MessageSteps

/-!
# The last writer by stamp wins

Stamped deltas of one run id are delivered in any order and any number of times. The mark is the
greatest stamp delivered so far, epoch first, and the session holds the run of that stamp; the
rest of the session is untouched but for its unread flag, which follows the notify values in the
order they were seen.
-/

namespace VsFleet

/-! ## One run id written twice -/

theorem MergeEngine.upsertRunIn_upsertRunIn (runs : List AgentRun) {a b : AgentRun}
    (same : a.runId = b.runId) :
    (upsertRunIn (upsertRunIn runs a).1 b).1 = (upsertRunIn runs b).1 := by
  induction runs with
  | nil => simp [upsertRunIn, same]
  | cons r runs ih =>
    by_cases hr : r.runId = b.runId
    · simp [upsertRunIn, same, hr]
    · simp [upsertRunIn, same, hr, ih]

/-- The runs are replaced, the rollups computed again and the unread flag hidden. -/
def Edit.readRuns (f : List AgentRun → List AgentRun) : Edit where
  act s := { s with runs := f s.runs, unread := false }.recomputeRollups
  sessionId _ := rfl
  rolledUp _ _ := Session.rolledUp_recomputeRollups _

namespace Fleet

variable {F G : Fleet} {id : String}

theorem edit_only_edit_only (g g' k : Edit) (hk : ∀ s, g' (g s) = k s) :
    (F.edit (.only id g)).edit (.only id g') = F.edit (.only id k) := by
  apply Fleet.ext
  simp only [edit_sessions, List.map_map]
  apply List.map_congr_left
  intro s _
  by_cases own : s.sessionId = id
  · simp [Edit.only, own, hk]
  · simp [Edit.only, own]

theorem revise_read (f : List AgentRun → List AgentRun) :
    (F.revise id f).edit (.only id .read) = F.edit (.only id (.readRuns f)) :=
  edit_only_edit_only _ _ _ (fun _ => rfl)

theorem read_readRuns (f : List AgentRun → List AgentRun) :
    (F.edit (.only id .read)).edit (.only id (.readRuns f)) = F.edit (.only id (.readRuns f)) :=
  edit_only_edit_only _ _ _ (fun _ => rfl)

theorem readRuns_readRuns {f g k : List AgentRun → List AgentRun}
    (hk : ∀ runs, g (f runs) = k runs) :
    (F.edit (.only id (.readRuns f))).edit (.only id (.readRuns g)) =
      F.edit (.only id (.readRuns k)) := by
  apply edit_only_edit_only
  intro s
  simp only [Edit.readRuns, Session.recomputeRollups, hk]

/-- The unread flag of the session is its notify value. -/
def InStep (F : Fleet) (id : String) : Prop :=
  ∀ s, F.get? id = some s → s.unread = F.notifies s

theorem InStep.revise (h : F.InStep id) (f : List AgentRun → List AgentRun) :
    (F.revise id f).InStep id := by
  intro s found
  rw [Fleet.revise, get?_edit] at found
  obtain ⟨w, hw, rfl⟩ := Option.map_eq_some_iff.mp found
  have own := (get?_eq_some_iff.mp hw).2
  rw [notifies, anySoloed_revise, ← notifies]
  simp only [Edit.only, own, if_true, settled, Session.settle_unread]
  by_cases same : F.notifies w = F.notifies (Edit.setRuns f w)
  · rw [if_pos same]
    exact (h w hw).trans same
  · rw [if_neg same]
    rfl

/-- Fleets that differ in one unread flag at most, and have it in step, are equal. -/
theorem eq_of_read_eq (hidden : F.edit (.only id .read) = G.edit (.only id .read))
    (hF : F.InStep id) (hG : G.InStep id) : F = G := by
  have lists : F.sessions.map (Edit.only id .read) = G.sessions.map (Edit.only id .read) :=
    congrArg Fleet.sessions hidden
  have any : F.anySoloed = G.anySoloed := by
    have flags : ∀ H : Fleet, (H.edit (.only id .read)).anySoloed = H.anySoloed := by
      intro H
      apply anySoloed_congr rfl
      intro s _
      by_cases own : s.sessionId = id
      · simp [Edit.only, own, Edit.read, Edit.setFlags]
      · simp [Edit.only, own]
    rw [← flags F, ← flags G, hidden]
  apply Fleet.ext
  have back : ∀ H : Fleet, H.InStep id → H.sessions = (H.sessions.map (Edit.only id .read)).map
      (fun s => if s.sessionId = id then { s with unread := s.shouldNotifySession H.anySoloed }
        else s) := by
    intro H hH
    rw [List.map_map]
    symm
    calc H.sessions.map _ = H.sessions.map (fun s => s) := by
          apply List.map_congr_left
          intro s hs
          by_cases own : s.sessionId = id
          · have unread := hH s (own ▸ get?_of_mem hs)
            have shown : Edit.only id .read s = Edit.read s := if_pos own
            rw [Function.comp_apply, shown, if_pos (by rw [Edit.sessionId_act, own])]
            exact Session.flags_eta rfl rfl unread
          · simp [Edit.only, own]
      _ = H.sessions := List.map_id' _
  rw [back F hF, back G hG, lists, any]

end Fleet

/-! ## The run of deliveries -/

section Deliveries

variable (sessionId : String) (durableId : DurableId) (content : Nat → Nat → AgentRun)

/-- One delivery of the delta of a stamp, an epoch and a sequence number. -/
def StateStore.deliver (store : StateStore) (stamp : Nat × Nat) : StateStore :=
  (store.applyRunUpsertSeq sessionId (content stamp.1 stamp.2) durableId stamp.1 stamp.2).2

/-- The runs once the delta of a stamp is written. -/
def writeStamp (stamp : ℕ ×ₗ ℕ) (runs : List AgentRun) : List AgentRun :=
  (MergeEngine.upsertRunIn runs (content (ofLex stamp).1 (ofLex stamp).2)).1

/-- The mark after deltas up to a stamp. -/
def markAt (top : WithBot (ℕ ×ₗ ℕ)) : Option Mark :=
  Option.map (fun t : ℕ ×ₗ ℕ => ⟨(ofLex t).1, (ofLex t).2⟩) top

/-- The fleet `F` with the delta of the stamp written, and the unread flag of the session
hidden. -/
def shownAt (F : Fleet) (top : WithBot (ℕ ×ₗ ℕ)) : Fleet :=
  Option.elim (α := ℕ ×ₗ ℕ) top (F.edit (.only sessionId .read))
    (fun t => F.edit (.only sessionId (.readRuns (writeStamp content t))))

/-- The deltas delivered so far have `top` as their greatest stamp: the mark is at it, and `G`, the
fleet of the store, is `F` with the run of it. -/
structure Held (F G : Fleet) (store : StateStore) (top : WithBot (ℕ ×ₗ ℕ)) : Prop where
  live : Refines store.engine G
  healthy : true ∉ store.log.faults
  present : (G.get? sessionId).isSome
  mark : store.reclaim.mark durableId = markAt top
  shown : G.edit (.only sessionId .read) = shownAt sessionId content F top
  inStep : F.InStep sessionId → G.InStep sessionId

variable {sessionId durableId content}

/-- A delta is dropped exactly when its stamp is not above the greatest so far. -/
theorem classify_drops_iff {t : ReclaimTable} {top : WithBot (ℕ ×ₗ ℕ)}
    (mark : t.mark durableId = markAt top) (stamp : Nat × Nat) :
    (t.classify durableId stamp.1 stamp.2).drops = true ↔
      ((toLex stamp : ℕ ×ₗ ℕ) : WithBot (ℕ ×ₗ ℕ)) ≤ top := by
  induction top using WithBot.recBotCoe with
  | bot =>
    rw [ReclaimTable.classify_of_none mark]
    simp [Decision.drops, Decision.applies]
  | coe m =>
    have applies := ReclaimTable.classify_applies_iff (m := ⟨(ofLex m).1, (ofLex m).2⟩) mark
      stamp.1 stamp.2
    rw [Decision.drops, Bool.not_eq_true', ← Bool.not_eq_true, applies, WithBot.coe_le_coe,
      Prod.Lex.le_iff]
    simp only [ofLex_toLex]
    omega

theorem writeStamp_writeStamp {runId : String} (hrun : ∀ e q, (content e q).runId = runId)
    (t u : ℕ ×ₗ ℕ) (runs : List AgentRun) :
    writeStamp content u (writeStamp content t runs) = writeStamp content u runs :=
  MergeEngine.upsertRunIn_upsertRunIn runs ((hrun _ _).trans (hrun _ _).symm)

theorem Held.deliver {runId : String} (hrun : ∀ e q, (content e q).runId = runId) {F G : Fleet}
    {store : StateStore} {top : WithBot (ℕ ×ₗ ℕ)}
    (h : Held sessionId durableId content F G store top) (stamp : Nat × Nat) :
    ∃ G', Held sessionId durableId content F G'
      (store.deliver sessionId durableId content stamp)
      (max top ((toLex stamp : ℕ ×ₗ ℕ) : WithBot (ℕ ×ₗ ℕ))) := by
  have found : (store.engine.session sessionId).isSome := by
    rw [h.live.session]
    exact h.present
  have gate := classify_drops_iff h.mark stamp
  unfold StateStore.deliver
  rcases store.applyRunUpsertSeq_cases sessionId (content stamp.1 stamp.2) durableId stamp.1
    stamp.2 with ⟨absent, -⟩ | ⟨-, drops, eq⟩ | ⟨-, -, fault, -⟩ | ⟨-, applies, -, eq⟩
  · rw [absent] at found
    cases found
  · rw [eq, max_eq_left (gate.mp drops)]
    exact ⟨G, h⟩
  · rw [EventLog.head_healthy h.healthy] at fault
    cases fault
  · have above : top ≤ ((toLex stamp : ℕ ×ₗ ℕ) : WithBot (ℕ ×ₗ ℕ)) := by
      rw [← not_iff_not, Bool.not_eq_true] at gate
      exact le_of_lt (not_le.mp (gate.mp applies))
    rw [eq, max_eq_right above]
    refine ⟨G.revise sessionId (writeStamp content (toLex stamp)), ?_⟩
    refine ⟨h.live.upsertRun sessionId _, EventLog.push_healthy h.healthy _, ?_, ?_, ?_, ?_⟩
    · rw [Fleet.revise, Fleet.get?_edit, Option.isSome_map]
      exact h.present
    · have admitted : (store.reclaim.classify durableId stamp.1 stamp.2).applies = true := by
        simpa [Decision.drops] using applies
      exact (ReclaimTable.mark_admitDelta _ _ _ _ _).trans (if_pos ⟨rfl, admitted⟩)
    · rw [Fleet.revise_read, ← Fleet.read_readRuns, h.shown]
      induction top using WithBot.recBotCoe with
      | bot => exact Fleet.read_readRuns _
      | coe t => exact Fleet.readRuns_readRuns (writeStamp_writeStamp hrun t (toLex stamp))
    · exact fun inStep => (h.inStep inStep).revise _

theorem Held.deliverAll {runId : String} (hrun : ∀ e q, (content e q).runId = runId) {F : Fleet}
    {store : StateStore} (live : Refines store.engine F) (healthy : true ∉ store.log.faults)
    (present : (F.get? sessionId).isSome) (unmarked : store.reclaim.mark durableId = none)
    (deltas : List (Nat × Nat)) :
    ∃ G, Held sessionId durableId content F G
      (deltas.foldl (StateStore.deliver sessionId durableId content) store)
      (deltas.map toLex).maximum := by
  induction deltas using List.reverseRecOn with
  | nil => exact ⟨F, live, healthy, present, unmarked, rfl, fun h => h⟩
  | append_singleton deltas stamp ih =>
    obtain ⟨G, h⟩ := ih
    rw [List.foldl_append, List.map_append, List.map_singleton, List.maximum_concat]
    exact h.deliver hrun stamp

end Deliveries

/-- Deltas of one run id for a live session and an unmarked durable id, in any order and with any
repetition, no append failing: the mark ends at the greatest stamp and the session holds its run;
any other delivery of the same deltas ends in the same fleet up to the unread flag of the session,
and in the same fleet where that flag started as the notify value. -/
theorem greatest_stamp_wins (parseEpochSecs : String → Option Int) (store : StateStore)
    (reached : store.Reached parseEpochSecs) (healthy : true ∉ store.log.faults)
    (sessionId : String) (s : Session) (live : store.engine.session sessionId = some s)
    (durableId : DurableId) (unmarked : store.reclaim.mark durableId = none)
    (runId : String) (content : Nat → Nat → AgentRun) (hrun : ∀ e q, (content e q).runId = runId)
    (deltas : List (Nat × Nat)) (some_delta : deltas ≠ []) :
    let after := deltas.foldl (StateStore.deliver sessionId durableId content) store
    (∃ top ∈ deltas, (∀ d ∈ deltas, d.1 < top.1 ∨ d.1 = top.1 ∧ d.2 ≤ top.2) ∧
      after.reclaim.mark durableId = some ⟨top.1, top.2⟩ ∧
      ∃ s', after.engine.session sessionId = some s' ∧
        s'.runs.find? (fun r => r.runId = runId) = some (content top.1 top.2)) ∧
    ∀ deltas' : List (Nat × Nat), (∀ d, d ∈ deltas' ↔ d ∈ deltas) →
      let after' := deltas'.foldl (StateStore.deliver sessionId durableId content) store
      after'.reclaim.mark durableId = after.reclaim.mark durableId ∧
      after'.snapshot.map (Edit.only sessionId .read) =
        after.snapshot.map (Edit.only sessionId .read) ∧
      (s.unread = s.shouldNotifySession store.engine.anySoloed →
        after'.snapshot = after.snapshot) := by
  obtain ⟨F, refines⟩ := reached.refines
  have present : (F.get? sessionId).isSome := by
    rw [← refines.session, live]
    rfl
  have start : s.unread = s.shouldNotifySession store.engine.anySoloed → F.InStep sessionId := by
    intro unread w found
    rw [refines.session, found, Option.some.injEq] at live
    rw [live, unread, refines.anySoloed]
    rfl
  obtain ⟨G, held⟩ := Held.deliverAll hrun refines healthy present unmarked deltas
  have nonempty : (deltas.map toLex).maximum ≠ ⊥ := by
    simpa [List.maximum_eq_bot] using some_delta
  obtain ⟨t, top⟩ := WithBot.ne_bot_iff_exists.mp nonempty
  obtain ⟨hmem, greatest⟩ := List.maximum_eq_coe_iff.mp top.symm
  constructor
  · rw [← top] at held
    obtain ⟨d, hd, rfl⟩ := List.mem_map.mp hmem
    refine ⟨d, hd, ?_, held.mark, ?_⟩
    · intro d' hd'
      have le := greatest (toLex d') (List.mem_map_of_mem hd')
      rw [Prod.Lex.le_iff] at le
      exact le
    · obtain ⟨s', found⟩ := Option.isSome_iff_exists.mp held.present
      refine ⟨s', by rw [held.live.session, found], ?_⟩
      have own := (Fleet.get?_eq_some_iff.mp found).2
      obtain ⟨w, original⟩ := Option.isSome_iff_exists.mp present
      have own' := (Fleet.get?_eq_some_iff.mp original).2
      have shown : G.edit (.only sessionId .read) =
          F.edit (.only sessionId (.readRuns (writeStamp content (toLex d)))) := held.shown
      have shown := congrArg (fun H => H.get? sessionId) shown
      simp only [Fleet.get?_edit, found, original, Option.map_some, Option.some.injEq, Edit.only,
        own, own', if_true] at shown
      have runs : s'.runs = writeStamp content (toLex d) w.runs := congrArg Session.runs shown
      rw [runs, ← hrun d.1 d.2]
      exact (MergeEngine.find?_upsertRunIn w.runs (content d.1 d.2) _).trans (if_pos rfl)
  · intro deltas' same
    obtain ⟨G', held'⟩ := Held.deliverAll hrun refines healthy present unmarked deltas'
    have top : (deltas'.map toLex).maximum = (deltas.map toLex).maximum := by
      rw [← top, List.maximum_eq_coe_iff]
      have members : ∀ x, x ∈ deltas'.map toLex ↔ x ∈ deltas.map toLex := by
        intro x
        simp only [List.mem_map, same]
      exact ⟨(members t).mpr hmem, fun x hx => greatest x ((members x).mp hx)⟩
    rw [top] at held'
    have hidden : G'.edit (.only sessionId .read) = G.edit (.only sessionId .read) :=
      held'.shown.trans held.shown.symm
    refine ⟨held'.mark.trans held.mark.symm, ?_, ?_⟩
    · rw [StateStore.snapshot, StateStore.snapshot, held'.live.snapshot, held.live.snapshot]
      exact congrArg Fleet.sessions hidden
    · intro unread
      rw [StateStore.snapshot, StateStore.snapshot, held'.live.snapshot, held.live.snapshot,
        Fleet.eq_of_read_eq hidden (held'.inStep (start unread)) (held.inStep (start unread))]

/-- A session whose waiting run was focused, and two deltas of that run. -/
def seenWaiting : StateStore :=
  [StoreOp.sessionUpsert (.plain "a" [.plain "r" "n" .waiting]), .focus "a"].foldl
    (StateStore.perform (fun _ => none)) (.fromLog (.holding [] []))

/-- The run works at its first report and waits at any other. -/
def pausedAndBack (_ seq : Nat) : AgentRun :=
  .plain "r" "n" (if seq = 1 then .working else .waiting)

theorem seenWaiting_reached : seenWaiting.Reached (fun _ => none) :=
  .step (.focus "a") (.step (.sessionUpsert _) (.opened (.holding [] [])))

theorem greatest_stamp_wins_seenWaiting :
    ∃ s, seenWaiting.engine.session "a" = some s ∧
      let after := [(0, 2), (0, 1), (0, 2)].foldl
        (StateStore.deliver "a" ⟨"n"⟩ pausedAndBack) seenWaiting
      (∃ top ∈ [(0, 2), (0, 1), (0, 2)],
        (∀ d ∈ [(0, 2), (0, 1), (0, 2)], d.1 < top.1 ∨ d.1 = top.1 ∧ d.2 ≤ top.2) ∧
        after.reclaim.mark ⟨"n"⟩ = some ⟨top.1, top.2⟩ ∧
        ∃ s', after.engine.session "a" = some s' ∧
          s'.runs.find? (fun r => r.runId = "r") = some (pausedAndBack top.1 top.2)) ∧
      ∀ deltas' : List (Nat × Nat), (∀ d, d ∈ deltas' ↔ d ∈ [(0, 2), (0, 1), (0, 2)]) →
        let after' := deltas'.foldl (StateStore.deliver "a" ⟨"n"⟩ pausedAndBack) seenWaiting
        after'.reclaim.mark ⟨"n"⟩ = after.reclaim.mark ⟨"n"⟩ ∧
        after'.snapshot.map (Edit.only "a" .read) = after.snapshot.map (Edit.only "a" .read) ∧
        (s.unread = s.shouldNotifySession seenWaiting.engine.anySoloed →
          after'.snapshot = after.snapshot) :=
  ⟨_, rfl, greatest_stamp_wins (fun _ => none) seenWaiting seenWaiting_reached (by decide) "a" _ rfl
    ⟨"n"⟩ rfl "r" pausedAndBack (fun _ _ => rfl) [(0, 2), (0, 1), (0, 2)] (by decide)⟩

/-- Delivered in order, the two deltas leave the session unread; the other way round the older is
dropped and the session stays read. -/
theorem delivery_order_shows_in_unread :
    ¬ ∀ (parseEpochSecs : String → Option Int) (store : StateStore),
      store.Reached parseEpochSecs → true ∉ store.log.faults →
      ∀ (sessionId : String) (s : Session), store.engine.session sessionId = some s →
      ∀ durableId : DurableId, store.reclaim.mark durableId = none →
      ∀ (runId : String) (content : Nat → Nat → AgentRun), (∀ e q, (content e q).runId = runId) →
      ∀ deltas deltas' : List (Nat × Nat), (∀ d, d ∈ deltas' ↔ d ∈ deltas) →
        (deltas'.foldl (StateStore.deliver sessionId durableId content) store).snapshot =
          (deltas.foldl (StateStore.deliver sessionId durableId content) store).snapshot := by
  intro independent
  have snapshots := independent (fun _ => none) seenWaiting seenWaiting_reached (by decide) "a" _
    rfl ⟨"n"⟩ rfl "r" pausedAndBack (fun _ _ => rfl) [(0, 1), (0, 2)] [(0, 2), (0, 1)]
    (by simp [or_comm])
  have flags := congrArg (List.map (fun s => s.unread)) snapshots
  revert flags
  decide

end VsFleet
