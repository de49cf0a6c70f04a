import VsFleet.Hub.Proofs.Marks
import VsFleet.Reporter.Proofs.Backlog
import VsFleet.Reporter.Proofs.Rounds
import VsFleet.Reporter.Uplink

/-!
# What reaches the sessions of a Hub

Only a message of a reporter brings a session, a run or a new time stamp into the fleet; the
commands of the faces and the passes of the Hub leave less or the same. What a frame brings is what
its message says, where the Hub takes it.
-/

namespace VsFleet

open MergeEngine (Mutation)

/-! ## Mutations that bring nothing -/

/-- The mutation brings a session or a run into the fleet. -/
def MergeEngine.Mutation.brings : Mutation → Bool
  | .upsertSession _ | .upsertRun _ _ => true
  | _ => false

/-- The edit keeps the time stamp and brings no run. -/
def Edit.Trims (g : Edit) : Prop :=
  ∀ s, (g s).updatedAt = s.updatedAt ∧ ∀ r ∈ (g s).runs, r ∈ s.runs

theorem Edit.Trims.only {g : Edit} (trims : g.Trims) (id : String) : (Edit.only id g).Trims :=
  Edit.only_keeps (R := fun s' s => s'.updatedAt = s.updatedAt ∧ ∀ r ∈ s'.runs, r ∈ s.runs)
    (fun _ => ⟨rfl, fun _ mem => mem⟩) trims id

namespace Fleet

variable {F F' F'' : Fleet} {id : String}

/-- Every session was there before, with its time stamp and at least its runs. -/
def Below (F' F : Fleet) : Prop := ∀ id s', F'.get? id = some s' → ∃ s, F.get? id = some s ∧
  s'.updatedAt = s.updatedAt ∧ ∀ r ∈ s'.runs, r ∈ s.runs

theorem Below.refl (F : Fleet) : F.Below F := fun _ s found => ⟨s, found, rfl, fun _ mem => mem⟩

theorem Below.trans (h' : F''.Below F') (h : F'.Below F) : F''.Below F := by
  intro id s'' found''
  obtain ⟨s', found', stamp', runs'⟩ := h' id s'' found''
  obtain ⟨s, found, stamp, runs⟩ := h id s' found'
  exact ⟨s, found, stamp'.trans stamp, fun r mem => runs r (runs' r mem)⟩

theorem below_edit {g : Edit} (trims : g.Trims) : (F.edit g).Below F := by
  intro id s' found
  rw [get?_edit] at found
  obtain ⟨s, before, rfl⟩ := Option.map_eq_some_iff.mp found
  exact ⟨s, before, trims s⟩

/-- Settling the unread flags trims nothing more. -/
theorem below_reflag {g : Edit} (trims : g.Trims) : (F.reflag g).Below F := below_edit trims

theorem below_drop (id : String) : (F.drop id).Below F := by
  intro id' s' found
  rw [get?_drop] at found
  split at found
  · cases found
  · exact ⟨s', found, rfl, fun _ mem => mem⟩

theorem below_mutate {m : Mutation} (nothing : m.brings = false) : (F.mutate m).Below F := by
  -- the edits that touch neither the stamp nor the runs
  have flags : ∀ s : Session, s.updatedAt = s.updatedAt ∧ ∀ r ∈ s.runs, r ∈ s.runs :=
    fun _ => ⟨rfl, fun _ mem => mem⟩
  cases m with
  | upsertSession session => cases nothing
  | upsertRun sessionId run => cases nothing
  | removeSessionEvents sessionId => exact Below.trans (below_edit flags) (below_drop sessionId)
  | removeSession sessionId => exact Below.trans (below_edit flags) (below_drop sessionId)
  | removeRun sessionId runId =>
    refine below_edit (Edit.Trims.only (fun s => ⟨rfl, fun r mem => ?_⟩) sessionId)
    exact List.mem_of_mem_filter mem
  | applyMute sessionId => exact below_reflag (Edit.Trims.only (g := .mute) flags sessionId)
  | applyUnmute sessionId => exact below_reflag (Edit.Trims.only (g := .unmute) flags sessionId)
  | applySolo sessionId =>
    change (F.solo sessionId).Below F
    unfold solo
    split
    · exact below_reflag flags
    · exact .refl F
  | applyFocus sessionId => exact below_edit (Edit.Trims.only (g := .read) flags sessionId)

end Fleet

/-- The frame has a message of a reporter. -/
def Frame.Reports (frame : Frame) : Prop :=
  ∃ (sessionId : String) (d : Delta), d.Own sessionId ∧ frame.msg = d.msg

/-! ## What the Hub does by itself -/

namespace StateStore

variable {store : StateStore} {F : Fleet}

/-- Refines a fleet below the given one. -/
def Below (F : Fleet) (store : StateStore) : Prop := ∃ F', Refines store.engine F' ∧ F'.Below F

theorem Below.did {e : MergeEngine} (h : ∃ F', Refines e F' ∧ F'.Below F) {e' : MergeEngine}
    {m : Option Mutation} {result : Except PersistError (List Event)} (did : Did e m result e')
    (nothing : ∀ m' ∈ m, m'.brings = false) : ∃ F', Refines e' F' ∧ F'.Below F := by
  obtain ⟨F', h', below⟩ := h
  rcases did.refines h' with same | ⟨m', made, moved⟩
  · exact ⟨F', same, below⟩
  · exact ⟨_, moved, (Fleet.below_mutate (nothing m' made)).trans below⟩

theorem brings_command (iter : IterOrder Session) (command : Command) :
    ∀ m ∈ store.mutationOf iter (.command command), m.brings = false := by
  intro m made
  cases command with
  | focus version target =>
    obtain ⟨sid, -, rfl⟩ := Option.map_eq_some_iff.mp made
    rfl
  | dismiss version target =>
    cases target with
    | session sessionId =>
      obtain rfl := Option.some.inj made
      rfl
    | run runId =>
      obtain ⟨sid, -, rfl⟩ := Option.map_eq_some_iff.mp made
      rfl
  | setTags version sessionId tags => cases made
  | _ =>
    obtain rfl := Option.some.inj made
    rfl

theorem Below.command (h : store.Below F) (iter : IterOrder Session) (command : Command) :
    (store.applyCommand iter command).2.Below F :=
  Below.did h (store.applyMessage_did iter (.command command)) (brings_command iter command)

theorem Below.gc (parseEpochSecs : String → Option Int) (h : store.Below F) (now : String)
    (grace sessionTtl : Nat) : (store.gc parseEpochSecs now grace sessionTtl).2.Below F := by
  refine gc_keeps (P := fun store => store.Below F) ?_ (fun after reaped => ?_)
  · refine removeAll_invariant (P := fun store => store.Below F) ?_ _ h
    intro store v h'
    refine Below.did h' (store.applyRunRemove_did v.1 v.2) ?_
    rintro m ⟨⟩
    rfl
  · refine removeAll_invariant (P := fun store => store.Below F) ?_ _ reaped
    intro store v h'
    refine Below.did h' (store.applySessionRemove_did v) ?_
    rintro m ⟨⟩
    rfl

/-! ## What a frame brings -/

theorem hear_untaken {frame : Frame} (reports : frame.Reports)
    (untaken : store.takes frame.msg = false) : (store.hear frame).engine = store.engine := by
  obtain ⟨sessionId, d, own, msg⟩ := reports
  rw [store.hear_engine frame own msg, untaken]
  rfl

theorem hear_session_refines (h : Refines store.engine F) {frame : Frame} {session : Session}
    (msg : frame.msg = .sessionUpsert session) (taken : store.takes frame.msg = true) :
    Refines (store.hear frame).engine (F.upsert (store.preserveHubOwnedFields session)) := by
  rw [store.hear_engine frame (Delta.Own.session 0 session rfl) msg, if_pos taken, msg]
  exact h.upsertSession _

theorem hear_run_refines (h : Refines store.engine F) {frame : Frame} {sessionId : String}
    {run : AgentRun} {stamp : Option SeqStamp} (msg : frame.msg = .runUpsert sessionId run stamp)
    (taken : store.takes frame.msg = true) : Refines (store.hear frame).engine
      (F.revise sessionId (fun runs => (MergeEngine.upsertRunIn runs run).1)) := by
  rw [store.hear_engine frame (Delta.Own.run 0 run stamp) msg, if_pos taken, msg]
  exact h.upsertRun _ _

end StateStore

/-- What a driver sends are messages of a reporter. -/
theorem Link.reports_kept : Kept (fun heard issued _ => (∀ frame ∈ heard, frame.Reports) ∧
    ∀ d ∈ issued, ∃ sessionId, d.Own sessionId) where
  buffer _ h := h
  now _ h := h
  liveness _ h := h
  register {heard issued core} session h := by
    refine ⟨h.1, fun d mem => ?_⟩
    rcases List.mem_append.mp mem with old | new
    · exact h.2 d old
    · rw [List.mem_singleton.mp new]
      exact ⟨session.sessionId, .session _ session rfl⟩
  report {heard issued core} run h := by
    refine ⟨h.1, fun d mem => ?_⟩
    rcases List.mem_append.mp mem with old | new
    · exact h.2 d old
    · rw [List.mem_singleton.mp new]
      exact ⟨core.config.sessionId, .run _ run _⟩
  hear {heard issued core frame} h offered := by
    refine ⟨fun f mem => ?_, h.2⟩
    rcases List.mem_append.mp mem with old | new
    · exact h.1 f old
    · rw [List.mem_singleton.mp new]
      cases offered with
      | @delta d known =>
        obtain ⟨sessionId, own⟩ := h.2 d known
        exact ⟨sessionId, d, own, rfl⟩
      | @whole upto msg view =>
        obtain ⟨session, -, rfl⟩ := Option.map_eq_some_iff.mp view
        exact ⟨session.sessionId, ⟨0, _⟩, .session 0 { session with runs := core.runsInOrder } rfl,
          rfl⟩

namespace Uplink

/-- The driver sends messages of a reporter and the store of the Hub is a fleet. -/
structure Formed (u : Uplink) : Prop where
  sound : u.link.Sound
  reports : (∀ frame ∈ u.link.heard, frame.Reports) ∧
    ∀ d ∈ u.link.issued, ∃ sessionId, d.Own sessionId
  refines : ∃ F, Refines u.store.engine F

variable {u : Uplink}

theorem formed_new (config : ReporterConfig) (log : EventLog) : (new config log).Formed where
  sound := Link.sound_new config
  reports := by simp [new, Link.new]
  refines := log.restored_refines

theorem Formed.next (h : u.Formed) {frame : Frame} (next : u.next = some frame) :
    frame.Reports := h.reports.1 frame (List.mem_of_getElem? next)

theorem Formed.step (h : u.Formed) (parseEpochSecs : String → Option Int) (s : Step) :
    (u.step parseEpochSecs s).Formed := by
  obtain ⟨F, refines⟩ := h.refines
  cases s with
  | wait time => exact { h with }
  | reporter s =>
    have reports : u.link.With (fun heard issued _ => (∀ frame ∈ heard, frame.Reports) ∧
        ∀ d ∈ issued, ∃ sessionId, d.Own sessionId) := ⟨h.sound, h.reports⟩
    have round := reports.step Link.reports_kept s
    exact ⟨round.1.1, round.1.2, h.refines⟩
  | read =>
    simp only [Uplink.step]
    cases u.next with
    | none => exact h
    | some frame => exact ⟨h.sound, h.reports,
        (u.store.applyMessage_did (.asStored Session) frame.msg).wellFormed h.refines⟩
  | face iter command =>
    exact ⟨h.sound, h.reports,
      (u.store.applyMessage_did iter (.command command)).wellFormed h.refines⟩
  | gc now grace sessionTtl =>
    obtain ⟨F', refines', -⟩ :=
      StateStore.Below.gc parseEpochSecs ⟨F, refines, .refl F⟩ now grace sessionTtl
    exact ⟨h.sound, h.reports, F', refines'⟩

end Uplink

end VsFleet
