import VsFleet.Extension.Heartbeat
import VsFleet.Hub.Proofs.Unread
import VsFleet.Misc.Runs
import VsFleet.Reporter.Proofs.Backlog

/-!
# A heartbeat between the messages of a reporter

Two Hubs side by side: one reads the reporter and the heartbeats, the other the reporter alone. They
hold the same runs, flags and marks as long as each heartbeat that is logged finds the session
without runs, because then the upsert it makes replaces no runs by none.
-/

namespace VsFleet

/-- The same runs and the same flags of the Hub. -/
structure Session.Alike (s s' : Session) : Prop where
  runs : s.runs = s'.runs
  muted : s.muted = s'.muted
  soloed : s.soloed = s'.soloed
  unread : s.unread = s'.unread

/-- The flags the Hub owns, from another session. -/
def Session.withFlagsOf (session s : Session) : Session :=
  { session with muted := s.muted, soloed := s.soloed, unread := s.unread }

@[simp] theorem Session.withFlagsOf_sessionId (session s : Session) :
    (session.withFlagsOf s).sessionId = session.sessionId := rfl

namespace Session.Alike

variable {s s' : Session}

theorem rollupState (h : s.Alike s') (rolled : s.RolledUp) (rolled' : s'.RolledUp) :
    s.rollupState = s'.rollupState := by rw [rolled.state, rolled'.state, h.runs]

theorem shouldNotify (h : s.Alike s') (rolled : s.RolledUp) (rolled' : s'.RolledUp) (any : Bool) :
    s.shouldNotifySession any = s'.shouldNotifySession any := by
  unfold shouldNotifySession
  rw [h.rollupState rolled rolled', h.muted, h.soloed]

theorem setRuns (h : s.Alike s') (f : List AgentRun → List AgentRun) :
    (Edit.setRuns f s).Alike (Edit.setRuns f s') :=
  ⟨congrArg f h.runs, h.muted, h.soloed, h.unread⟩

theorem settle (h : s.Alike s') (old new : Bool) : (s.settle old new).Alike (s'.settle old new) :=
  ⟨h.runs, h.muted, h.soloed, by rw [settle_unread, settle_unread, h.unread]⟩

end Session.Alike

/-- A session without runs is idle, so it does not notify. -/
theorem Session.RolledUp.silent {s : Session} (h : s.RolledUp) (none : s.runs = []) (any : Bool) :
    s.shouldNotifySession any = false := by
  unfold shouldNotifySession
  rw [h.state, none]
  rfl

namespace Fleet

variable {F F' : Fleet} {s s' : Session} {id : String}

/-- An upsert with the flags of the session it replaces lands the same in fleets that hold the
session alike. -/
theorem landed_congr (session : Session) (found : F.get? session.sessionId = some s)
    (found' : F'.get? session.sessionId = some s') (alike : s.Alike s')
    (solos : F.anySoloed = F'.anySoloed) : F.landed session = F'.landed session := by
  have old : F.notifies s = F'.notifies s' := by
    rw [notifies, notifies, solos]
    exact alike.shouldNotify (rolledUp_of_get? found) (rolledUp_of_get? found') _
  have new : F.notifies session.recomputeRollups = F'.notifies session.recomputeRollups := by
    rw [notifies, notifies, solos]
  rw [landed, landed, found, found', Option.map_some, Option.map_some, old, new]

theorem plainUpsert_withFlagsOf {session : Session} (found : F.get? id = some s)
    (own : session.sessionId = id) : F.PlainUpsert (session.withFlagsOf s) := by
  subst own
  rw [PlainUpsert, Session.withFlagsOf_sessionId, found]
  exact ⟨rfl, rfl, rfl⟩

/-- A session without runs that lands in the place of one without runs keeps its flags. -/
theorem landed_silent {session : Session} (found : F.get? session.sessionId = some s)
    (none : s.runs = []) (none' : session.runs = []) :
    (F.landed (session.withFlagsOf s)).Alike s := by
  have before : F.notifies s = false := (rolledUp_of_get? found).silent none _
  have after : F.notifies (session.withFlagsOf s).recomputeRollups = false :=
    (session.withFlagsOf s).rolledUp_recomputeRollups.silent none' _
  have kept : F.landed (session.withFlagsOf s) = (session.withFlagsOf s).recomputeRollups := by
    rw [landed, Session.withFlagsOf_sessionId, found, Option.map_some, before, after,
      Option.getD_some, Session.settle_self]
  rw [kept]
  exact ⟨none'.trans none.symm, rfl, rfl, rfl⟩

theorem settled_alike (alike : s.Alike s') (rolled : s.RolledUp) (rolled' : s'.RolledUp)
    (solos : F.anySoloed = F'.anySoloed) (f : List AgentRun → List AgentRun) :
    (F.settled F (.setRuns f) s).Alike (F'.settled F' (.setRuns f) s') := by
  have after := alike.setRuns f
  have old : F.notifies s = F'.notifies s' := by
    rw [notifies, notifies, solos]
    exact alike.shouldNotify rolled rolled' _
  have new : F.notifies (Edit.setRuns f s) = F'.notifies (Edit.setRuns f s') := by
    rw [notifies, notifies, solos]
    exact after.shouldNotify ((Edit.setRuns f).rolledUp s rolled)
      ((Edit.setRuns f).rolledUp s' rolled') _
  change ((Edit.setRuns f s).settle _ _).Alike ((Edit.setRuns f s').settle _ _)
  rw [old, new]
  exact after.settle _ _

end Fleet

/-- The engines hold the session alike, under the same solo. -/
def MergeEngine.Alike (sessionId : String) (e e' : MergeEngine) : Prop :=
  ∃ F F' : Fleet, Refines e F ∧ Refines e' F' ∧ F.anySoloed = F'.anySoloed ∧
    ∃ s s', F.get? sessionId = some s ∧ F'.get? sessionId = some s' ∧ s.Alike s'

namespace StateStore

/-- The Hubs hold the session alike, under the same marks. -/
structure Alike (sessionId : String) (store store' : StateStore) : Prop where
  marks : store.reclaim = store'.reclaim
  engines : store.engine.Alike sessionId store'.engine

variable {store store' : StateStore} {sessionId : String} {frame : Frame} {d : Delta}

theorem Alike.refl {F : Fleet} (h : Refines store.engine F)
    (live : (store.engine.session sessionId).isSome) : Alike sessionId store store := by
  rw [h.session] at live
  obtain ⟨s, found⟩ := Option.isSome_iff_exists.mp live
  exact ⟨rfl, F, F, h, h, rfl, s, s, found, found, ⟨rfl, rfl, rfl, rfl⟩⟩

theorem Alike.held (h : Alike sessionId store store') :
    store.held sessionId = store'.held sessionId := by
  obtain ⟨F, F', refines, refines', -, s, s', found, found', alike⟩ := h.engines
  have rolled := Fleet.rolledUp_of_get? found
  have rolled' := Fleet.rolledUp_of_get? found'
  rw [StateStore.held, StateStore.held, refines.session, refines'.session, found, found',
    Option.map_some, Option.map_some, alike.rollupState rolled rolled', rolled.urgency,
    rolled'.urgency, alike.runs, alike.unread]

theorem Alike.live (h : Alike sessionId store store') :
    (store.engine.session sessionId).isSome ∧ (store'.engine.session sessionId).isSome := by
  obtain ⟨F, F', refines, refines', -, s, s', found, found', -⟩ := h.engines
  rw [refines.session, refines'.session, found, found']
  exact ⟨rfl, rfl⟩

theorem Alike.facing (h : Alike sessionId store store') (fails : Bool) :
    Alike sessionId (store.facing fails) (store'.facing fails) := ⟨h.marks, h.engines⟩

/-- Where the session is known, the upsert takes the three flags from it. -/
theorem preserveHubOwnedFields_of_session {session s : Session}
    (found : store.engine.session session.sessionId = some s) :
    store.preserveHubOwnedFields session = session.withFlagsOf s := by
  rw [preserveHubOwnedFields, found]
  rfl

/-- The marks after a message of a reporter depend on the marks before it and on the message. -/
theorem hear_reclaim (own : d.Own sessionId) (msg : frame.msg = d.msg)
    (live : (store.engine.session sessionId).isSome) :
    (store.hear frame).reclaim = match d.stamp with
      | none => store.reclaim
      | some s => (store.reclaim.admitDelta ⟨s.durableId⟩ s.epoch s.seq).2 := by
  unfold hear
  rw [msg]
  cases own with
  | session seq session own =>
    simp only [applyMessage, applySessionUpsert, logAndApply]
    split <;> rfl
  | run seq run stamp =>
    cases stamp with
    | none =>
      simp only [applyMessage]
      rcases store.applyRunUpsert_cases sessionId run with ⟨-, eq⟩ | ⟨-, -, eq⟩ | ⟨-, -, eq⟩ <;>
        rw [eq] <;> rfl
    | some s =>
      simp only [applyMessage]
      rcases store.applyRunUpsertSeq_cases sessionId run ⟨s.durableId⟩ s.epoch s.seq with
        ⟨absent, -⟩ | ⟨-, drops, eq⟩ | ⟨-, -, -, eq⟩ | ⟨-, -, -, eq⟩
      · rw [absent] at live
        cases live
      · rw [Decision.drops, Bool.not_eq_true'] at drops
        simp [eq, Delta.stamp, ReclaimTable.admitDelta, drops]
      · rw [eq]
        rfl
      · rw [eq]
        rfl

/-- A message of the reporter is projected alike. -/
theorem Alike.projected (h : Alike sessionId store store') (own : d.Own sessionId) :
    (store.projected d.msg).Alike sessionId (store'.projected d.msg) := by
  obtain ⟨F, F', refines, refines', solos, s, s', found, found', alike⟩ := h.engines
  cases own with
  | session seq session own =>
    subst own
    have live : store.engine.session session.sessionId = some s := (refines.session _).trans found
    have live' : store'.engine.session session.sessionId = some s' :=
      (refines'.session _).trans found'
    have preserved : store'.preserveHubOwnedFields session = session.withFlagsOf s := by
      rw [preserveHubOwnedFields_of_session live', Session.withFlagsOf, Session.withFlagsOf,
        alike.muted, alike.soloed, alike.unread]
    simp only [StateStore.projected, preserveHubOwnedFields_of_session live, preserved]
    have plain : F.PlainUpsert (session.withFlagsOf s) := Fleet.plainUpsert_withFlagsOf found rfl
    have plain' : F'.PlainUpsert (session.withFlagsOf s) := by
      rw [Fleet.PlainUpsert, Session.withFlagsOf_sessionId, found']
      exact ⟨alike.muted, alike.soloed, alike.unread⟩
    refine ⟨_, _, refines.upsertSession _, refines'.upsertSession _, ?_, _, _,
      Fleet.get?_upsert.trans (if_pos rfl), Fleet.get?_upsert.trans (if_pos rfl), ?_⟩
    · rw [Fleet.anySoloed_upsert plain, Fleet.anySoloed_upsert plain', solos]
    · rw [Fleet.landed_congr (session.withFlagsOf s) found found' alike solos]
      exact ⟨rfl, rfl, rfl, rfl⟩
  | run seq run stamp =>
    refine ⟨_, _, refines.upsertRun sessionId run, refines'.upsertRun sessionId run, ?_, _, _,
      Fleet.get?_revise found _, Fleet.get?_revise found' _,
      Fleet.settled_alike alike (Fleet.rolledUp_of_get? found) (Fleet.rolledUp_of_get? found')
        solos _⟩
    rw [Fleet.anySoloed_revise, Fleet.anySoloed_revise, solos]

theorem Alike.hear (h : Alike sessionId store store') (own : d.Own sessionId)
    (msg : frame.msg = d.msg)
    (faults : store.log.faults.headD false = store'.log.faults.headD false) :
    Alike sessionId (store.hear frame) (store'.hear frame) := by
  have takes : store.takes frame.msg = store'.takes frame.msg := by
    have admits : store.admits = store'.admits := by
      funext s
      rw [StateStore.admits, StateStore.admits, h.marks]
    rw [msg]
    cases own with
    | session seq session own =>
      simp only [StateStore.takes]
      rw [faults]
    | run seq run stamp =>
      simp only [StateStore.takes]
      rw [faults, admits, h.live.1, h.live.2]
  refine ⟨?_, ?_⟩
  · rw [hear_reclaim own msg h.live.1, hear_reclaim own msg h.live.2, h.marks]
  · rw [store.hear_engine frame own msg, store'.hear_engine frame own msg, takes, msg]
    split
    · exact h.projected own
    · exact h.engines

/-- The Hub reads a heartbeat as it would from a reporter. -/
theorem arrive_heartbeat (store : StateStore) (now : String) (fails : Bool) :
    store.arrive sessionId (.heartbeat now fails) =
      (store.facing fails).hear (.whole 0 (heartbeatMessage sessionId now)) := rfl

/-- What a heartbeat upserts: the session without runs. -/
theorem heartbeatMessage_upserts (sessionId now : String) : ∃ session : Session,
    heartbeatMessage sessionId now = .sessionUpsert session ∧ session.sessionId = sessionId ∧
      session.runs = [] := ⟨_, rfl, rfl, rfl⟩

/-- A heartbeat that fails, or that finds no runs, changes nothing the two are compared by. -/
theorem Alike.heartbeat (h : Alike sessionId store store') (now : String) (fails : Bool)
    (harmless : fails = true ∨ ∀ s ∈ store.engine.session sessionId, s.runs = []) :
    Alike sessionId (store.arrive sessionId (.heartbeat now fails)) store' := by
  obtain ⟨F, F', refines, refines', solos, s, s', found, found', alike⟩ := h.engines
  have live : store.engine.session sessionId = some s := (refines.session _).trans found
  obtain ⟨session, upserts, rfl, none'⟩ := heartbeatMessage_upserts sessionId now
  have own : (⟨0, heartbeatMessage session.sessionId now⟩ : Delta).Own session.sessionId := by
    rw [upserts]
    exact .session 0 session rfl
  rw [arrive_heartbeat]
  refine ⟨?_, ?_⟩
  · rw [hear_reclaim own rfl (h.facing fails).live.1]
    exact h.marks
  · rw [hear_engine _ _ own rfl, Frame.msg, upserts]
    cases fails with
    | true => exact h.engines
    | false =>
      have none : s.runs = [] := by
        rcases harmless with failed | none
        · cases failed
        · exact none s live
      have plain := Fleet.plainUpsert_withFlagsOf found rfl
      have quiet := Fleet.landed_silent found none none'
      rw [show (store.facing false).takes (.sessionUpsert session) = true from rfl, if_pos rfl,
        StateStore.projected,
        @preserveHubOwnedFields_of_session (store.facing false) session s live]
      refine ⟨_, F', refines.upsertSession _, refines', ?_, _, s',
        Fleet.get?_upsert.trans (if_pos rfl), found', ?_⟩
      · rw [Fleet.anySoloed_upsert plain, solos]
      · exact ⟨quiet.runs.trans alike.runs, quiet.muted.trans alike.muted,
          quiet.soloed.trans alike.soloed, quiet.unread.trans alike.unread⟩

/-- A heartbeat that is logged leaves the session without runs. -/
theorem runs_heartbeat (store : StateStore) (sessionId now : String) :
    ∃ s, (store.arrive sessionId (.heartbeat now false)).engine.session sessionId = some s ∧
      s.runs = [] := by
  obtain ⟨session, upserts, rfl, none⟩ := heartbeatMessage_upserts sessionId now
  have msg : (Frame.whole 0 (heartbeatMessage session.sessionId now)).msg =
      .sessionUpsert session := upserts
  have taken : (store.facing false).takes (Frame.whole 0
      (heartbeatMessage session.sessionId now)).msg = true := by
    rw [msg]
    rfl
  obtain ⟨s, found, runs⟩ := hear_session _ _ msg taken
  exact ⟨s, found, runs.trans none⟩

end StateStore

/-! ## The two streams -/

/-- The messages of the reporter stream are about its session. -/
def Arrival.Own (sessionId : String) : Arrival → Prop
  | .reporter frame _ => ∃ d : Delta, d.Own sessionId ∧ frame.msg = d.msg
  | .heartbeat _ _ => True

theorem Arrival.Own.delta {sessionId : String} {d : Delta} {fails : Bool} (own : d.Own sessionId) :
    (Arrival.reporter (.delta d) fails).Own sessionId := ⟨d, own, rfl⟩

/-- A heartbeat is not logged, or finds the session without runs. -/
def Arrival.Harmless (sessionId : String) (store : StateStore) : Arrival → Prop
  | .reporter _ _ => True
  | .heartbeat _ fails =>
    fails = true ∨ ∀ s ∈ store.engine.session sessionId, s.runs = []

section

variable {sessionId : String}

theorem StateStore.Alike.arrive {store store' : StateStore} (h : Alike sessionId store store')
    {frame : Frame} {fails : Bool} (own : (Arrival.reporter frame fails).Own sessionId) :
    Alike sessionId (store.arrive sessionId (.reporter frame fails))
      (store'.arrive sessionId (.reporter frame fails)) := by
  obtain ⟨d, own, msg⟩ := own
  exact (h.facing fails).hear own msg rfl

/-- With harmless heartbeats, the Hub holds what it holds without them. -/
theorem alike_of_harmless {store store' : StateStore} (h : store.Alike sessionId store')
    {arrivals : List Arrival} (own : ∀ a ∈ arrivals, a.Own sessionId)
    (harmless : Along (StateStore.arrive sessionId) (Arrival.Harmless sessionId) store arrivals) :
    (arrivals.foldl (StateStore.arrive sessionId) store).Alike sessionId
      ((arrivals.filter Arrival.ofReporter).foldl (StateStore.arrive sessionId) store') := by
  refine Along.purge (R := StateStore.Alike sessionId) ?_ ?_ arrivals h (harmless.and own)
  · intro s t a kept alike ok
    cases a with
    | reporter frame fails => exact alike.arrive ok.1
    | heartbeat now fails => cases kept
  · intro s t a kept alike ok
    cases a with
    | reporter frame fails => cases kept
    | heartbeat now fails => exact alike.heartbeat now fails ok.2

/-- A heartbeat that goes unnoticed at every point was harmless: once logged it leaves no runs, so
there were none. -/
theorem harmless_of_held (arrivals : List Arrival) : ∀ {store store' : StateStore},
    (∀ pre, pre <+: arrivals → (pre.foldl (StateStore.arrive sessionId) store).held sessionId =
      ((pre.filter Arrival.ofReporter).foldl (StateStore.arrive sessionId) store').held sessionId) →
    Along (StateStore.arrive sessionId) (Arrival.Harmless sessionId) store arrivals := by
  induction arrivals with
  | nil => exact fun _ => trivial
  | cons a arrivals ih =>
    intro store store' same
    have later := fun pre (before : pre <+: arrivals) =>
      same (a :: pre) (List.cons_prefix_cons.mpr ⟨rfl, before⟩)
    cases a with
    | reporter frame fails => exact ⟨trivial, ih later⟩
    | heartbeat now fails =>
      refine ⟨?_, ih later⟩
      cases fails with
      | true => exact Or.inl rfl
      | false =>
        right
        intro s live
        have before : store.held sessionId = store'.held sessionId :=
          same [] (List.nil_prefix)
        have after : (store.arrive sessionId (.heartbeat now false)).held sessionId =
            store'.held sessionId := later [] (List.nil_prefix)
        obtain ⟨s', live', none⟩ := store.runs_heartbeat sessionId now
        rw [← before, StateStore.held, StateStore.held, Option.mem_def.mp live, live'] at after
        have runs : s'.runs = s.runs := congrArg Prod.fst (Option.some.inj after)
        exact runs.symm.trans none

end

/-- After every message of an interleaving the Hub holds for the session what it would hold without
the heartbeats, exactly when each heartbeat that is logged finds the session without runs. -/
theorem heartbeats_erase_nothing (parseEpochSecs : String → Option Int) (store : StateStore)
    (reached : store.Reached parseEpochSecs) (sessionId : String)
    (registered : (store.engine.session sessionId).isSome) (arrivals : List Arrival)
    (own : ∀ a ∈ arrivals, a.Own sessionId) :
    (∀ pre, pre <+: arrivals → (pre.foldl (StateStore.arrive sessionId) store).held sessionId =
      ((pre.filter Arrival.ofReporter).foldl (StateStore.arrive sessionId) store).held sessionId) ↔
    Along (StateStore.arrive sessionId) (Arrival.Harmless sessionId) store arrivals := by
  refine ⟨harmless_of_held arrivals, fun harmless pre before => ?_⟩
  obtain ⟨F, refines⟩ := reached.refines
  obtain ⟨post, rfl⟩ := before
  exact (alike_of_harmless (.refl refines registered)
    (fun a ha => own a (List.mem_append_left post ha)) (Along.append.mp harmless).1).held

/-- A window whose session is registered. -/
def windowStore : StateStore :=
  (StateStore.fromLog (.holding [] [])).perform (fun _ => none) (.sessionUpsert (.plain "w" []))

/-- A heartbeat before the first run of a window goes unnoticed. -/
theorem heartbeats_erase_nothing_first :
    let arrivals := [Arrival.heartbeat "2026-06-08T00:00:30Z" false,
      .reporter (.delta ⟨1, .runUpsert "w" (.plain "r" "n" .waiting) none⟩) false]
    (∀ pre, pre <+: arrivals → (pre.foldl (StateStore.arrive "w") windowStore).held "w" =
      ((pre.filter Arrival.ofReporter).foldl (StateStore.arrive "w") windowStore).held "w") ∧
    Along (StateStore.arrive "w") (Arrival.Harmless "w") windowStore arrivals := by
  intro arrivals
  have harmless : Along (StateStore.arrive "w") (Arrival.Harmless "w") windowStore arrivals := by
    refine ⟨Or.inr (fun s live => ?_), trivial, trivial⟩
    have runs : (windowStore.engine.session "w").map (fun s => s.runs.length) = some 0 := by decide
    rw [Option.mem_def.mp live, Option.map_some, Option.some.injEq] at runs
    exact List.length_eq_zero_iff.mp runs
  have own : ∀ a ∈ arrivals, a.Own "w" :=
    List.forall_mem_cons.mpr ⟨trivial, List.forall_mem_singleton.mpr (.delta (.run _ _ _))⟩
  exact ⟨(heartbeats_erase_nothing (fun _ => none) windowStore (.step _ (.opened _)) "w" (by decide)
    arrivals own).mpr harmless, harmless⟩

/-- The heartbeat of a window in which a run waits takes the run away. -/
theorem heartbeat_erases_run :
    ¬ ∀ (store : StateStore), store.Reached (fun _ => none) → ∀ (sessionId : String),
      (store.engine.session sessionId).isSome → ∀ arrivals : List Arrival,
      (∀ a ∈ arrivals, a.Own sessionId) → ∀ pre, pre <+: arrivals →
      (pre.foldl (StateStore.arrive sessionId) store).held sessionId =
        ((pre.filter Arrival.ofReporter).foldl (StateStore.arrive sessionId) store).held
          sessionId := by
  intro same
  have held := same windowStore (.step _ (.opened _)) "w" (by decide)
    [.reporter (.delta ⟨1, .runUpsert "w" (.plain "r" "n" .waiting) none⟩) false,
      .heartbeat "2026-06-08T00:00:30Z" false]
    (List.forall_mem_cons.mpr ⟨.delta (.run _ _ _), List.forall_mem_singleton.mpr trivial⟩) _
    List.prefix_rfl
  have runs := congrArg (fun held => held.map (fun h => h.1.length)) held
  exact absurd runs (by decide)

end VsFleet
