import VsFleet.Misc.Runs
import VsFleet.Reporter.Proofs.UplinkSteps

/-!
# Whether a heartbeating session is swept

The sweep looks at the time stamp of a session alone. A heartbeat brings the stamp of the last
registration again and a run delta brings none, so a sweep spares a session not by its heartbeats
but by how old its registration is.
-/

namespace VsFleet

/-- The session a frame brings under an id. -/
def Frame.shell (sessionId : String) (frame : Frame) : Option Session :=
  match frame.msg with
  | .sessionUpsert session => if session.sessionId = sessionId then some session else none
  | _ => none

/-- The frame is a whole view. -/
def Frame.isWhole : Frame → Bool
  | .whole _ _ => true
  | .delta _ => false

namespace StateStore

variable {store : StateStore} {F : Fleet}

/-- The time stamp of a session, where the Hub has the session. -/
def stampOf (store : StateStore) (sessionId : String) : Option String :=
  (store.engine.session sessionId).map (fun s => s.updatedAt)

theorem preserveHubOwnedFields_updatedAt (store : StateStore) (session : Session) :
    (store.preserveHubOwnedFields session).updatedAt = session.updatedAt := by
  unfold preserveHubOwnedFields
  split <;> rfl

/-- A frame that is taken brings its own stamp to its session; no frame brings another. -/
theorem stampOf_hear (refines : Refines store.engine F) {frame : Frame} (reports : frame.Reports)
    (sessionId : String) : (store.hear frame).stampOf sessionId =
      if store.takes frame.msg then
        ((frame.shell sessionId).map (fun s => s.updatedAt)).or (store.stampOf sessionId)
      else store.stampOf sessionId := by
  cases taken : store.takes frame.msg with
  | false =>
    rw [stampOf, hear_untaken reports taken]
    rfl
  | true =>
    rw [if_pos rfl, stampOf, stampOf, refines.session]
    obtain ⟨own, d, reported, msg⟩ := reports
    cases reported with
    | session seq session same =>
      have message : frame.msg = .sessionUpsert session := msg
      rw [(hear_session_refines refines message taken).session, Fleet.get?_upsert, Frame.shell,
        message, (store.preserveHubOwnedFields_session session).1]
      by_cases here : session.sessionId = sessionId
      · simp only [here, if_true, Option.map_some, Option.some_or, Option.some.injEq]
        exact store.preserveHubOwnedFields_updatedAt session
      · simp [here]
    | run seq run stamp =>
      have message : frame.msg = .runUpsert own run stamp := msg
      rw [(hear_run_refines refines message taken).session, Fleet.revise, Fleet.get?_edit,
        Frame.shell, message, Option.map_map]
      simp only [Option.map_none, Option.none_or]
      congr 1
      funext s
      by_cases here : s.sessionId = own
      · simp only [Function.comp_apply, Edit.only, here, if_true]
        rfl
      · simp [Edit.only, here]

/-- What the Hub does by itself takes a session or leaves it its stamp. -/
theorem Below.stampOf {store' : StateStore} (refines : Refines store.engine F) (h : store'.Below F)
    (sessionId : String) : store'.stampOf sessionId =
      if (store'.engine.session sessionId).isSome then store.stampOf sessionId else none := by
  obtain ⟨F', refines', below⟩ := h
  rw [StateStore.stampOf, StateStore.stampOf, refines'.session, refines.session]
  cases found : F'.get? sessionId with
  | none => rfl
  | some s' =>
    obtain ⟨s, before, stamp, -⟩ := below sessionId s' found
    rw [before]
    simp [stamp]

/-! ## A pass -/

/-- The session is there, with the flags and the time stamp of the given one. -/
def Houses (store : StateStore) (sessionId : String) (s : Session) : Prop :=
  ∃ F s', Refines store.engine F ∧ F.get? sessionId = some s' ∧ s'.muted = s.muted ∧
    s'.soloed = s.soloed ∧ s'.updatedAt = s.updatedAt

variable {sessionId : String} {s : Session}

theorem Houses.edit (h : ∃ s', F.get? sessionId = some s' ∧ s'.muted = s.muted ∧
    s'.soloed = s.soloed ∧ s'.updatedAt = s.updatedAt) {g : Edit}
    (muted : ∀ s, (g s).muted = s.muted) (soloed : ∀ s, (g s).soloed = s.soloed)
    (stamp : ∀ s, (g s).updatedAt = s.updatedAt) :
    ∃ s', (F.edit g).get? sessionId = some s' ∧ s'.muted = s.muted ∧ s'.soloed = s.soloed ∧
      s'.updatedAt = s.updatedAt := by
  obtain ⟨s', found, m, so, u⟩ := h
  refine ⟨g s', ?_, (muted s').trans m, (soloed s').trans so, (stamp s').trans u⟩
  rw [Fleet.get?_edit, found]
  rfl

theorem Houses.runRemove (h : store.Houses sessionId s) (id runId : String) :
    (store.applyRunRemove id runId).2.Houses sessionId s := by
  obtain ⟨F, s', refines, found⟩ := h
  rcases (store.applyRunRemove_did id runId).refines refines with still | ⟨m, made, moved⟩
  · exact ⟨F, s', still, found⟩
  · obtain rfl := Option.some.inj made
    let g := F.settled F (.setRuns (fun runs => runs.filter (fun r => r.runId ≠ runId)))
    obtain ⟨s'', kept⟩ := Houses.edit (g := .only id g) ⟨s', found⟩
      (Edit.only_keeps (R := fun s' s => s'.muted = s.muted) (fun _ => rfl) (fun _ => rfl) id)
      (Edit.only_keeps (R := fun s' s => s'.soloed = s.soloed) (fun _ => rfl) (fun _ => rfl) id)
      (Edit.only_keeps (R := fun s' s => s'.updatedAt = s.updatedAt) (fun _ => rfl) (fun _ => rfl)
        id)
    exact ⟨_, s'', moved, kept⟩

theorem Houses.sessionRemove (h : store.Houses sessionId s) {id : String} (other : id ≠ sessionId) :
    (store.applySessionRemove id).2.Houses sessionId s := by
  obtain ⟨F, s', refines, found, flags⟩ := h
  rcases (store.applySessionRemove_did id).refines refines with still | ⟨m, made, moved⟩
  · exact ⟨F, s', still, found, flags⟩
  · obtain rfl := Option.some.inj made
    have dropped : (F.drop id).get? sessionId = some s' := by
      rw [Fleet.get?_drop, if_neg other.symm, found]
    obtain ⟨s'', kept⟩ := Houses.edit (g := F.settled (F.drop id) .keep) ⟨s', dropped, flags⟩
      (fun _ => rfl) (fun _ => rfl) (fun _ => rfl)
    exact ⟨_, s'', moved, kept⟩

variable {parseEpochSecs : String → Option Int} {now : String} {grace sessionTtl : Nat}

theorem Houses.reaped (h : store.Houses sessionId s) :
    (store.reapDead parseEpochSecs now grace).2.Houses sessionId s :=
  removeAll_invariant (P := fun store => store.Houses sessionId s)
    (fun _ v kept => kept.runRemove v.1 v.2) _ h

/-- A session that is not older than the time to live is not a victim. -/
theorem Houses.not_victim (h : store.Houses sessionId s)
    (fresh : timestampLt parseEpochSecs s.updatedAt
      (subtract parseEpochSecs now sessionTtl) = false) :
    ∀ id ∈ store.sweepVictims parseEpochSecs now sessionTtl, id ≠ sessionId := by
  rintro id victim rfl
  obtain ⟨F, s', refines, found, -, -, stamp⟩ := h
  simp only [sweepVictims, StateStore.snapshot, refines.snapshot, List.mem_map,
    List.mem_filter] at victim
  obtain ⟨w, ⟨mem, old⟩, same⟩ := victim
  have here := Fleet.get?_of_mem mem
  rw [same, found, Option.some.injEq] at here
  rw [← here, stamp, fresh] at old
  cases old

/-- A pass keeps such a session and its flags. -/
theorem Houses.gc (h : store.Houses sessionId s)
    (fresh : timestampLt parseEpochSecs s.updatedAt
      (subtract parseEpochSecs now sessionTtl) = false) :
    (store.gc parseEpochSecs now grace sessionTtl).2.Houses sessionId s := by
  refine gc_keeps (P := fun store => store.Houses sessionId s) h.reaped (fun after reaped => ?_)
  exact removeAll_keeps (P := fun store => store.Houses sessionId s)
    (fun v victim _ kept => kept.sessionRemove (reaped.not_victim fresh v victim)) reaped

/-! ## A pass where no append fails -/

/-- A removal that no fault is left for does not fail, and leaves none. -/
theorem runRemove_healthy (store : StateStore) (id runId : String)
    (healthy : true ∉ store.log.faults) :
    (∃ events, (store.applyRunRemove id runId).1 = .ok events) ∧
      true ∉ (store.applyRunRemove id runId).2.log.faults := by
  rcases store.applyRunRemove_cases id runId with ⟨-, eq⟩ | ⟨run, -, fault, eq⟩ | ⟨run, -, -, eq⟩
  · rw [eq]
    exact ⟨⟨_, rfl⟩, healthy⟩
  · rw [EventLog.head_healthy healthy] at fault
    cases fault
  · rw [eq]
    refine ⟨⟨_, rfl⟩, ?_⟩
    simp only [pruneDurable_log]
    exact EventLog.push_healthy healthy _

theorem sessionRemove_healthy (store : StateStore) (id : String)
    (healthy : true ∉ store.log.faults) :
    (∃ events, (store.applySessionRemove id).1 = .ok events) ∧
      true ∉ (store.applySessionRemove id).2.log.faults := by
  rcases store.applySessionRemove_cases id with ⟨-, eq⟩ | ⟨-, fault, eq⟩ | ⟨-, -, eq⟩
  · rw [eq]
    exact ⟨⟨_, rfl⟩, healthy⟩
  · rw [EventLog.head_healthy healthy] at fault
    cases fault
  · rw [eq]
    refine ⟨⟨_, rfl⟩, ?_⟩
    simp only [dropSessionReclaim_log]
    exact EventLog.push_healthy healthy _

theorem removeAll_healthy {α : Type}
    {remove : StateStore → α → Except PersistError (List Event) × StateStore}
    (one : ∀ store v, true ∉ store.log.faults →
      (∃ events, (remove store v).1 = .ok events) ∧ true ∉ (remove store v).2.log.faults)
    (victims : List α) : ∀ {store : StateStore}, true ∉ store.log.faults →
      (∃ events, (removeAll remove victims store).1 = .ok events) ∧
        true ∉ (removeAll remove victims store).2.log.faults := by
  induction victims with
  | nil => exact fun healthy => ⟨⟨[], rfl⟩, healthy⟩
  | cons v victims ih =>
    intro store healthy
    obtain ⟨⟨events, first⟩, healthy'⟩ := one store v healthy
    unfold removeAll
    generalize remove store v = outcome at first healthy'
    obtain ⟨result, after⟩ := outcome
    subst first
    obtain ⟨⟨more, rest⟩, healthy''⟩ := ih healthy'
    simp only
    generalize removeAll remove victims after = outcome' at rest healthy''
    obtain ⟨result', store'⟩ := outcome'
    subst rest
    exact ⟨⟨_, rfl⟩, healthy''⟩

theorem reapDead_healthy (healthy : true ∉ store.log.faults) :
    (∃ events, (store.reapDead parseEpochSecs now grace).1 = .ok events) ∧
      true ∉ (store.reapDead parseEpochSecs now grace).2.log.faults :=
  removeAll_healthy (fun store v => store.runRemove_healthy v.1 v.2) _ healthy

/-- The session is not there. -/
def Gone (store : StateStore) (sessionId : String) : Prop :=
  ∃ F, Refines store.engine F ∧ F.get? sessionId = none

theorem Gone.sessionRemove (h : store.Gone sessionId) (id : String) :
    (store.applySessionRemove id).2.Gone sessionId := by
  obtain ⟨F, refines, absent⟩ := h
  rcases (store.applySessionRemove_did id).refines refines with still | ⟨m, made, moved⟩
  · exact ⟨F, still, absent⟩
  · obtain rfl := Option.some.inj made
    refine ⟨_, moved, ?_⟩
    change (F.remove id).get? sessionId = none
    rw [Fleet.remove, Fleet.get?_edit, Fleet.get?_drop, absent]
    split <;> rfl

theorem gone_of_remove (refines : Refines store.engine F) (healthy : true ∉ store.log.faults)
    (id : String) : (store.applySessionRemove id).2.Gone id := by
  rcases store.applySessionRemove_cases id with ⟨absent, eq⟩ | ⟨-, fault, -⟩ | ⟨-, -, eq⟩
  · rw [eq]
    exact ⟨F, refines, by rw [← refines.session, absent]⟩
  · rw [EventLog.head_healthy healthy] at fault
    cases fault
  · rw [eq]
    refine ⟨F.remove id, ?_, ?_⟩
    · simp only [dropSessionReclaim_engine]
      exact (refines.removeSessionEvents id).1
    · rw [Fleet.remove, Fleet.get?_edit, Fleet.get?_drop, if_pos rfl]
      rfl

/-- Every victim of a sweep goes. -/
theorem gone_of_victim (victims : List String) : ∀ {store : StateStore},
    (∃ F, Refines store.engine F) → true ∉ store.log.faults → sessionId ∈ victims →
    (removeAll (fun store sid => store.applySessionRemove sid) victims store).2.Gone sessionId := by
  induction victims with
  | nil => exact fun _ _ mem => by cases mem
  | cons v victims ih =>
    intro store formed healthy mem
    obtain ⟨F, refines⟩ := formed
    obtain ⟨⟨events, first⟩, healthy'⟩ := store.sessionRemove_healthy v healthy
    have formed' := (store.applySessionRemove_did v).wellFormed ⟨F, refines⟩
    have rest : (removeAll (fun store sid => store.applySessionRemove sid) victims
        (store.applySessionRemove v).2).2.Gone sessionId := by
      by_cases own : sessionId = v
      · subst own
        exact removeAll_invariant (P := fun store => store.Gone sessionId)
          (fun _ w gone => gone.sessionRemove w) victims (gone_of_remove refines healthy sessionId)
      · exact ih formed' healthy' ((List.mem_cons.mp mem).resolve_left own)
    rcases removeAll_cons (fun store sid => store.applySessionRemove sid) v victims store with
      ⟨e, failed, -⟩ | ⟨events, -, goes⟩
    · cases first.symm.trans failed
    · rw [goes]
      exact rest

/-- A session that is older than the time to live does not survive the pass. -/
theorem Houses.swept (h : store.Houses sessionId s) (healthy : true ∉ store.log.faults)
    (old : timestampLt parseEpochSecs s.updatedAt
      (subtract parseEpochSecs now sessionTtl) = true) :
    (store.gc parseEpochSecs now grace sessionTtl).2.Gone sessionId := by
  have reaped : (store.reapDead parseEpochSecs now grace).2.Houses sessionId s := h.reaped
  obtain ⟨F, s', refines, found, -, -, stamp⟩ := reaped
  obtain ⟨⟨events, fine⟩, healthy'⟩ : (∃ events, (store.reapDead parseEpochSecs now grace).1 =
      .ok events) ∧ true ∉ (store.reapDead parseEpochSecs now grace).2.log.faults :=
    reapDead_healthy healthy
  have victim : sessionId ∈ (store.reapDead parseEpochSecs now grace).2.sweepVictims
      parseEpochSecs now sessionTtl := by
    obtain ⟨mem, own⟩ := Fleet.get?_eq_some_iff.mp found
    simp only [sweepVictims, StateStore.snapshot, refines.snapshot, List.mem_map, List.mem_filter]
    exact ⟨s', ⟨mem, by rw [stamp, old]⟩, own⟩
  rcases store.gc_cases parseEpochSecs now grace sessionTtl with ⟨e, failed, -⟩ | ⟨more, -, goes⟩
  · cases fine.symm.trans failed
  · rw [goes]
    exact gone_of_victim _ ⟨F, refines⟩ healthy' victim

theorem gc_healthy (healthy : true ∉ store.log.faults) :
    true ∉ (store.gc parseEpochSecs now grace sessionTtl).2.log.faults :=
  gc_keeps (P := fun store => true ∉ store.log.faults) (reapDead_healthy healthy).2
    (fun _ healthy' => (removeAll_healthy sessionRemove_healthy _ healthy').2)

theorem appendUpdated_healthy (sessions : List Session) : ∀ {log : EventLog},
    true ∉ log.faults → true ∉ (appendUpdated sessions log).2.faults := by
  induction sessions with
  | nil => exact fun healthy => healthy
  | cons s sessions ih =>
    intro log healthy
    rw [appendUpdated, EventLog.append_ok _ _ (EventLog.head_healthy healthy)]
    exact ih (EventLog.push_healthy healthy _)

theorem flagChange_healthy (project : MergeEngine → MergeEngine × List Event)
    (healthy : true ∉ store.log.faults) :
    true ∉ (store.applyFlagChange project).2.log.faults := by
  have appended := appendUpdated_healthy
    ((project store.engine).2.filterMap sessionOfUpdated) healthy
  unfold applyFlagChange
  simp only
  split
  · rename_i outcome
    rw [outcome] at appended
    exact appended
  · rename_i outcome
    rw [outcome] at appended
    exact appended

theorem focus_healthy (id : String) (healthy : true ∉ store.log.faults) :
    true ∉ (store.applyFocus id).2.log.faults := by
  unfold applyFocus
  split
  · exact healthy
  · unfold persistSessionSnapshot
    split
    · exact healthy
    · simp only
      rw [EventLog.append_ok _ _ (EventLog.head_healthy healthy)]
      exact EventLog.push_healthy healthy _

theorem command_healthy (iter : IterOrder Session) (command : Command)
    (healthy : true ∉ store.log.faults) :
    true ∉ (store.applyCommand iter command).2.log.faults := by
  cases command with
  | focus version target =>
    simp only [applyCommand]
    split
    · exact healthy
    · exact focus_healthy _ healthy
  | mute version id => exact flagChange_healthy _ healthy
  | unmute version id => exact flagChange_healthy _ healthy
  | solo version id => exact flagChange_healthy _ healthy
  | dismiss version target =>
    cases target with
    | session id => exact (store.sessionRemove_healthy id healthy).2
    | run runId =>
      simp only [applyCommand, applyDismiss]
      split
      · exact (store.runRemove_healthy _ runId healthy).2
      · exact healthy
  | setTags version id tags => exact healthy

end StateStore

/-! ## Following one session -/

/-- The reporter and its Hub, with the time stamp in the last frame of the session that the Hub
took, where the session is there, and with the time of the last whole view it took. -/
structure Beating where
  uplink : Uplink
  stamp : Option String
  beat : Option Nat

namespace Beating

section

variable (parseEpochSecs : String → Option Int) (sessionId : String)

/-- A reporter that has just started, and a Hub over its log. -/
def new (config : ReporterConfig) (log : EventLog) : Beating where
  uplink := .new config log
  stamp := (StateStore.fromLog log).stampOf sessionId
  beat := none

/-- One step; `stamp` and `beat` follow the frames of the session. -/
def step (b : Beating) (s : Uplink.Step) : Beating where
  uplink := b.uplink.step parseEpochSecs s
  stamp :=
    match s with
    | .read =>
      match b.uplink.next with
      | none => b.stamp
      | some frame =>
        if b.uplink.store.takes frame.msg then
          ((frame.shell sessionId).map (fun s => s.updatedAt)).or b.stamp
        else b.stamp
    | .face _ _ | .gc _ _ _ =>
      if ((b.uplink.step parseEpochSecs s).store.engine.session sessionId).isSome then b.stamp
      else none
    | .wait _ | .reporter _ => b.stamp
  beat :=
    match s with
    | .read =>
      if b.uplink.next.any (fun frame => frame.isWhole && (frame.shell sessionId).isSome &&
          b.uplink.store.takes frame.msg) then some b.uplink.clock
      else b.beat
    | _ => b.beat

/-- A pass leaves the session where it is, and its mute and solo flags as they are. -/
def Survives (b : Beating) : Uplink.Step → Prop
  | .gc now grace sessionTtl => ∀ s, b.uplink.store.engine.session sessionId = some s →
      ∃ s', (b.uplink.step parseEpochSecs (.gc now grace sessionTtl)).store.engine.session
        sessionId = some s' ∧ s'.muted = s.muted ∧ s'.soloed = s.soloed
  | _ => True

/-- The stamp that the Hub was last brought is not older than the time to live of the pass. -/
def Fresh (b : Beating) : Uplink.Step → Prop
  | .gc now _ sessionTtl => ∀ stamp ∈ b.stamp,
      timestampLt parseEpochSecs stamp (subtract parseEpochSecs now sessionTtl) = false
  | _ => True

/-- The pass comes at the time it says, and the last heartbeat was within the time to live. -/
def Beats (b : Beating) : Uplink.Step → Bool
  | .gc now _ sessionTtl => parseEpochSecs now = some b.uplink.clock &&
      (!(b.uplink.store.engine.session sessionId).isSome ||
        b.beat.any (fun time => b.uplink.clock < time + sessionTtl))
  | _ => true

end

/-- The Hub has the stamp it was last brought. -/
structure Inv (sessionId : String) (b : Beating) : Prop where
  formed : b.uplink.Formed
  stamp : b.uplink.store.stampOf sessionId = b.stamp

variable {parseEpochSecs : String → Option Int} {sessionId : String} {b : Beating}

theorem Inv.step (h : b.Inv sessionId) (s : Uplink.Step) :
    (b.step parseEpochSecs sessionId s).Inv sessionId := by
  refine ⟨h.formed.step parseEpochSecs s, ?_⟩
  obtain ⟨F, refines⟩ := h.formed.refines
  cases s with
  | wait time => exact h.stamp
  | reporter s => exact h.stamp
  | read =>
    simp only [Beating.step, Uplink.step]
    cases next : b.uplink.next with
    | none => exact h.stamp
    | some frame =>
      have brought := StateStore.stampOf_hear refines (h.formed.next next) sessionId
      rw [h.stamp] at brought
      exact brought
  | face iter command =>
    have left := StateStore.Below.stampOf refines
      (StateStore.Below.command ⟨F, refines, .refl F⟩ iter command) sessionId
    rw [h.stamp] at left
    exact left
  | gc now grace sessionTtl =>
    have left := StateStore.Below.stampOf refines
      (StateStore.Below.gc parseEpochSecs ⟨F, refines, .refl F⟩ now grace sessionTtl) sessionId
    rw [h.stamp] at left
    exact left

theorem Inv.survives (h : b.Inv sessionId) {s : Uplink.Step}
    (fresh : b.Fresh parseEpochSecs s) : b.Survives parseEpochSecs sessionId s := by
  cases s with
  | gc now grace sessionTtl =>
    intro s found
    have stamp : b.stamp = some s.updatedAt := by
      rw [← h.stamp, StateStore.stampOf, found]
      rfl
    obtain ⟨F, refines⟩ := h.formed.refines
    have kept : b.uplink.store.Houses sessionId s :=
      ⟨F, s, refines, by rw [← refines.session, found], rfl, rfl, rfl⟩
    have after : (b.uplink.store.gc parseEpochSecs now grace sessionTtl).2.Houses sessionId s :=
      kept.gc (fresh s.updatedAt (by rw [stamp]; rfl))
    obtain ⟨F', s', refines', found', muted, soloed, -⟩ := after
    exact ⟨s', by rw [← found', ← refines'.session]; rfl, muted, soloed⟩
  | _ => trivial

/-- A pass that finds an older registration sweeps the session, if none of its appends fails. -/
theorem Inv.fresh (h : b.Inv sessionId) (healthy : true ∉ b.uplink.store.log.faults)
    {s : Uplink.Step} (survives : b.Survives parseEpochSecs sessionId s) :
    b.Fresh parseEpochSecs s := by
  cases s with
  | gc now grace sessionTtl =>
    intro stamp brought
    rw [← h.stamp, StateStore.stampOf, Option.mem_def, Option.map_eq_some_iff] at brought
    obtain ⟨s, found, rfl⟩ := brought
    obtain ⟨F, refines⟩ := h.formed.refines
    obtain ⟨s', left, -⟩ := survives s found
    rw [Bool.eq_false_iff]
    intro old
    have here : b.uplink.store.Houses sessionId s :=
      ⟨F, s, refines, by rw [← refines.session, found], rfl, rfl, rfl⟩
    have after : (b.uplink.store.gc parseEpochSecs now grace sessionTtl).2.Gone sessionId :=
      here.swept healthy old
    obtain ⟨F', refines', absent⟩ := after
    rw [← refines'.session] at absent
    cases left.symm.trans absent
  | _ => trivial

theorem Inv.healthy (h : b.Inv sessionId) (healthy : true ∉ b.uplink.store.log.faults)
    (s : Uplink.Step) :
    true ∉ (b.step parseEpochSecs sessionId s).uplink.store.log.faults := by
  cases s with
  | wait time => exact healthy
  | reporter s => exact healthy
  | read =>
    simp only [Beating.step, Uplink.step]
    cases next : b.uplink.next with
    | none => exact healthy
    | some frame =>
      obtain ⟨own, d, reported, msg⟩ := h.formed.next next
      exact b.uplink.store.hear_healthy frame reported msg healthy
  | face iter command => exact StateStore.command_healthy iter command healthy
  | gc now grace sessionTtl => exact StateStore.gc_healthy healthy

theorem inv_new (sessionId : String) (config : ReporterConfig) (log : EventLog) :
    (new sessionId config log).Inv sessionId := ⟨Uplink.formed_new config log, rfl⟩

end Beating

/-- Where each pass finds that the registration the Hub was last brought, by its own delta or again
by a heartbeat, is not older than the time to live, no pass removes the session or changes its mute
and solo flags. Where no append fails, only there. -/
theorem never_swept_iff (parseEpochSecs : String → Option Int) (config : ReporterConfig)
    (log : EventLog) (sessionId : String) (steps : List Uplink.Step) :
    let fresh := Along (Beating.step parseEpochSecs sessionId)
      (fun b s => b.Fresh parseEpochSecs s) (.new sessionId config log) steps
    let survives := Along (Beating.step parseEpochSecs sessionId)
      (fun b s => b.Survives parseEpochSecs sessionId s) (.new sessionId config log) steps
    (fresh → survives) ∧ (true ∉ log.faults → survives → fresh) := by
  have start := Beating.inv_new sessionId config log
  constructor
  · exact Along.of_invariant (P := Beating.Inv sessionId) (q := fun _ => True)
      (fun _ _ h met => h.survives met) (fun _ s _ h _ => h.step s) steps (fun _ _ => trivial) start
  · intro healthy
    exact Along.of_invariant
      (P := fun b => b.Inv sessionId ∧ true ∉ b.uplink.store.log.faults) (q := fun _ => True)
      (fun _ _ h met => h.1.fresh h.2 met)
      (fun _ s _ h _ => ⟨h.1.step s, h.1.healthy h.2 s⟩) steps (fun _ _ => trivial)
      ⟨start, healthy⟩

/-- Reads the instants of one day, as the date library does. -/
def daySecs (iso : String) : Option Int :=
  if iso = "2026-06-08T00:00:00Z" then some 1780876800
  else if iso = "2026-06-08T01:00:00Z" then some 1780880400
  else if iso = "2026-06-09T01:00:00Z" then some 1780966800
  else none

/-- A session is registered once and heartbeats every twelve and a half hours; a pass comes after
the second heartbeat, an hour after the day of the registration. -/
def quietDay : List Uplink.Step :=
  [.wait 1780876800, .reporter (.connect []),
    .reporter (.command "t" (.upsertSession (.plain "s" [])) []), .read,
    .wait 45000, .reporter (.tick 45000 (.asStored _) (fun _ => "t") []), .read,
    .wait 45000, .reporter (.tick 90000 (.asStored _) (fun _ => "t") []), .read,
    .gc "2026-06-09T01:00:00Z" 3600 86400]

theorem heartbeating_session_swept : ¬ ∀ (parseEpochSecs : String → Option Int)
    (config : ReporterConfig) (log : EventLog) (sessionId : String) (steps : List Uplink.Step),
    Along (Beating.step parseEpochSecs sessionId)
      (fun b s => b.Beats parseEpochSecs sessionId s = true) (.new sessionId config log) steps →
    Along (Beating.step parseEpochSecs sessionId)
      (fun b s => b.Survives parseEpochSecs sessionId s) (.new sessionId config log) steps := by
  intro spares
  have spared := spares daySecs ⟨"s", 30, false⟩ (.holding [] []) "s" quietDay (by decide)
  have here := spared.2.2.2.2.2.2.2.2.2.2.1
  obtain ⟨s', left, -⟩ := here _ rfl
  cases left

end VsFleet
