import VsFleet.Misc.Runs
import VsFleet.Reporter.Proofs.Trackers
import VsFleet.Reporter.Proofs.UplinkSteps

/-!
# Whether a removed run stays gone

The Hub removes a dead run by itself, at a dismissal or in a pass; the reporter never forgets one,
and each heartbeat and each registration carries all it knows. The run is back with the first frame
that carries it and is taken, and not before.
-/

namespace VsFleet

/-- The frame carries the run into the session: a whole view that has it, or a delta about it. -/
def Frame.carries (sessionId runId : String) (frame : Frame) : Bool :=
  match frame.msg with
  | .sessionUpsert session =>
    session.sessionId = sessionId && session.runs.any (fun r => r.runId = runId)
  | .runUpsert id run _ => id = sessionId && run.runId = runId
  | _ => false

namespace StateStore

variable {store : StateStore} {F : Fleet}

/-- The Hub holds the run in the session. -/
def holds (store : StateStore) (sessionId runId : String) : Bool :=
  (store.runsOf sessionId).any (fun r => r.runId = runId)

/-- It holds the run in the session as dead. -/
def holdsDead (store : StateStore) (sessionId runId : String) : Bool :=
  (store.runsOf sessionId).any (fun r => r.runId = runId && r.state = .dead)

theorem holds_of_engine {store' : StateStore} (same : store'.engine = store.engine)
    (sessionId runId : String) : store'.holds sessionId runId = store.holds sessionId runId := by
  rw [holds, runsOf, same, holds, runsOf]

theorem Below.holds {store' : StateStore} (refines : Refines store.engine F)
    (h : store'.Below F) {sessionId runId : String} (absent : store.holds sessionId runId = false) :
    store'.holds sessionId runId = false := by
  obtain ⟨F', refines', below⟩ := h
  rw [StateStore.holds, refines.runsOf] at absent
  rw [StateStore.holds, refines'.runsOf]
  rw [List.any_eq_false] at absent ⊢
  intro r mem
  cases found : F'.get? sessionId with
  | none =>
    rw [Fleet.runsIn, found] at mem
    cases mem
  | some s' =>
    rw [Fleet.runsIn_of_get? found] at mem
    obtain ⟨s, before, -, runs⟩ := below sessionId s' found
    rw [Fleet.runsIn_of_get? before] at absent
    exact absent r (runs r mem)

/-- A run that was not there is there after a frame exactly when the frame has it and is taken. -/
theorem holds_hear (refines : Refines store.engine F) {frame : Frame} (reports : frame.Reports)
    {sessionId runId : String} (absent : store.holds sessionId runId = false) :
    (store.hear frame).holds sessionId runId =
      (frame.carries sessionId runId && store.takes frame.msg) := by
  cases taken : store.takes frame.msg with
  | false => rw [holds_of_engine (hear_untaken reports taken), absent, Bool.and_false]
  | true =>
    rw [Bool.and_true]
    rw [holds, refines.runsOf] at absent
    obtain ⟨own, d, reported, msg⟩ := reports
    cases reported with
    | session seq session same =>
      have message : frame.msg = .sessionUpsert session := msg
      rw [holds, (hear_session_refines refines message taken).runsOf, Fleet.runsIn_upsert,
        Frame.carries, message]
      obtain ⟨id, runs⟩ := store.preserveHubOwnedFields_session session
      rw [id, runs]
      by_cases here : session.sessionId = sessionId
      · simp [here]
      · simp only [here, if_false, absent, decide_false, Bool.false_and]
    | run seq run stamp =>
      have message : frame.msg = .runUpsert own run stamp := msg
      rw [holds, (hear_run_refines refines message taken).runsOf, Frame.carries, message]
      by_cases here : sessionId = own
      · subst here
        have live : (store.engine.session sessionId).isSome := by
          rw [message] at taken
          simp only [takes, Bool.and_eq_true] at taken
          exact taken.1.2
        rw [refines.session] at live
        obtain ⟨s, found⟩ := Option.isSome_iff_exists.mp live
        rw [Fleet.runsIn_of_get? found] at absent
        rw [Fleet.runsIn_revise _ found, ← List.isSome_find?, MergeEngine.find?_upsertRunIn]
        by_cases same : run.runId = runId
        · simp [same]
        · rw [if_neg same, List.isSome_find?, absent]
          simp [same]
      · rw [Fleet.runsIn_revise_ne here, absent]
        simp [Ne.symm here]

end StateStore

/-! ## Following one run -/

/-- The command is a new report of the run, and not as dead. -/
def ReporterCommand.revives (runId : String) : ReporterCommand → Bool
  | .upsertRun run => run.runId = runId && run.state ≠ .dead
  | _ => false

/-- The reporter receives such a command in the step. -/
def Link.revives (runId : String) (link : Link) : Link.Step → Bool
  | .refused pending => !link.up && pending.any (fun (_, cmd) => cmd.revives runId)
  | .command _ cmd _ => link.up && cmd.revives runId
  | _ => false

/-- The reporter and its Hub, and whether the Hub has removed the run as dead with no new report of
it since. -/
structure Followed where
  uplink : Uplink
  gone : Bool

namespace Followed

section

variable (parseEpochSecs : String → Option Int) (sessionId runId : String)

/-- One step; the run is gone from its removal as dead on, up to a new report of it. -/
def step (f : Followed) (s : Uplink.Step) : Followed where
  uplink := f.uplink.step parseEpochSecs s
  gone :=
    match s with
    | .reporter s => f.gone && !f.uplink.link.revives runId s
    | .face _ _ | .gc _ _ _ =>
      f.gone || (f.uplink.store.holdsDead sessionId runId &&
        !(f.uplink.step parseEpochSecs s).store.holds sessionId runId)
    | .wait _ | .read => f.gone

/-- After the step a run that is gone is not held. -/
def StaysGone (f : Followed) (s : Uplink.Step) : Prop :=
  (f.step parseEpochSecs sessionId runId s).gone = true →
    (f.step parseEpochSecs sessionId runId s).uplink.store.holds sessionId runId = false

/-- The Hub takes no frame that carries the run while it is gone. -/
def Uncarried (f : Followed) : Uplink.Step → Prop
  | .read => f.gone = true → ∀ frame ∈ f.uplink.next, frame.carries sessionId runId = true →
      f.uplink.store.takes frame.msg = false
  | _ => True

instance (f : Followed) (s : Uplink.Step) :
    Decidable (f.StaysGone parseEpochSecs sessionId runId s) :=
  inferInstanceAs (Decidable (_ → _))

end

/-- What holds while a run that is gone has stayed so. -/
structure Inv (sessionId runId : String) (f : Followed) : Prop where
  formed : f.uplink.Formed
  absent : f.gone = true → f.uplink.store.holds sessionId runId = false

variable {parseEpochSecs : String → Option Int} {sessionId runId : String} {f : Followed}

/-- What the Hub does by itself brings no run back. -/
theorem Inv.below (h : f.Inv sessionId runId) {store : StateStore}
    (below : ∀ F, Refines f.uplink.store.engine F → store.Below F) (gone : f.gone = true) :
    store.holds sessionId runId = false := by
  obtain ⟨F, refines⟩ := h.formed.refines
  exact (below F refines).holds refines (h.absent gone)

/-- Only the reading of a frame can break it, and does so where the frame carries the run. -/
theorem Inv.staysGone_iff (h : f.Inv sessionId runId) (s : Uplink.Step) :
    f.StaysGone parseEpochSecs sessionId runId s ↔ f.Uncarried sessionId runId s := by
  have own : ∀ {store : StateStore} {before : Bool},
      (f.gone = true → store.holds sessionId runId = false) →
      (f.gone || (before && !store.holds sessionId runId)) = true →
      store.holds sessionId runId = false := by
    intro store before still gone
    cases held : store.holds sessionId runId with
    | false => rfl
    | true =>
      rw [held, Bool.not_true, Bool.and_false, Bool.or_false] at gone
      rw [still gone] at held
      cases held
  cases s with
  | wait time => exact iff_of_true h.absent trivial
  | reporter s =>
    refine iff_of_true (fun gone => ?_) trivial
    rw [Followed.step, Bool.and_eq_true] at gone
    exact h.absent gone.1
  | face iter command =>
    exact iff_of_true (own (h.below (fun F refines =>
      StateStore.Below.command ⟨F, refines, .refl F⟩ iter command))) trivial
  | gc now grace sessionTtl =>
    exact iff_of_true (own (h.below (fun F refines =>
      StateStore.Below.gc parseEpochSecs ⟨F, refines, .refl F⟩ now grace sessionTtl))) trivial
  | read =>
    unfold StaysGone
    simp only [Uncarried, Followed.step, Uplink.step]
    cases next : f.uplink.next with
    | none => exact iff_of_true h.absent (fun _ _ none => by cases none)
    | some frame =>
      obtain ⟨F, refines⟩ := h.formed.refines
      refine forall_congr' (fun gone => ?_)
      have back := StateStore.holds_hear refines (h.formed.next next) (h.absent gone)
      simp only [Option.mem_some_iff, forall_eq', back, Bool.and_eq_false_imp]

end Followed

/-- A run that the Hub has removed as dead stays gone until the reporter receives a new report of
it, exactly when meanwhile the Hub takes no frame that carries it. -/
theorem removed_stays_gone_iff (parseEpochSecs : String → Option Int) (config : ReporterConfig)
    (log : EventLog) (sessionId runId : String) (steps : List Uplink.Step) :
    Along (Followed.step parseEpochSecs sessionId runId)
        (fun f s => f.StaysGone parseEpochSecs sessionId runId s) ⟨.new config log, false⟩ steps ↔
      Along (Followed.step parseEpochSecs sessionId runId)
        (fun f s => f.Uncarried sessionId runId s) ⟨.new config log, false⟩ steps :=
  Along.iff_of_invariant (P := Followed.Inv sessionId runId) (q := fun _ => True)
    (fun _ s h => h.staysGone_iff s)
    (fun _ s _ h stays => ⟨h.formed.step parseEpochSecs s, stays⟩) steps
    (fun _ _ => trivial) ⟨Uplink.formed_new config log, nofun⟩

/-- Reads the instants of one evening, as the date library does. -/
def eveningSecs (iso : String) : Option Int :=
  if iso = "2026-06-08T00:00:00Z" then some 1780876800
  else if iso = "2026-06-08T23:00:00Z" then some 1780959600
  else if iso = "2026-06-09T00:00:00Z" then some 1780963200
  else none

/-- A run is reported dead, reaped a day later, and back with the next heartbeat. -/
def reapedAndBack : List Uplink.Step :=
  [.reporter (.connect []), .reporter (.command "t" (.upsertSession (.plain "s" [])) []),
    .reporter (.command "t" (.upsertRun (.plain "r" "n" .dead)) []), .read, .read,
    .gc "2026-06-09T00:00:00Z" 3600 86400,
    .reporter (.tick 10 (.asStored _) (fun _ => "t") []), .read]

theorem removed_run_comes_back : ¬ ∀ (parseEpochSecs : String → Option Int)
    (config : ReporterConfig) (log : EventLog) (sessionId runId : String)
    (steps : List Uplink.Step), Along (Followed.step parseEpochSecs sessionId runId)
      (fun f s => f.StaysGone parseEpochSecs sessionId runId s) ⟨.new config log, false⟩ steps := by
  intro stays
  have stayed := stays eveningSecs ⟨"s", 30, false⟩ (.holding [] []) "s" "r" reapedAndBack
  exact absurd stayed (by decide)

end VsFleet
