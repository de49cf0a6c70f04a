import VsFleet.Hub.Proofs.Unread

/-!
# At most one session is soloed

A mute and an unmute take the solo flag away, and a solo takes it from every other session. The
store keeps the flags of a session it holds, so the only way past these is a session that is new to
the Hub and brings its flags with it.
-/

namespace VsFleet

open MergeEngine (Mutation)

namespace Fleet

/-- At most one session is soloed, and none is both muted and soloed. -/
structure Exclusive (F : Fleet) : Prop where
  sole : ∀ s ∈ F.sessions, ∀ w ∈ F.sessions, s.soloed = true → w.soloed = true →
    s.sessionId = w.sessionId
  apart : ∀ s ∈ F.sessions, s.muted = true → s.soloed = false

/-- The flags of a session leave the fleet it is put into exclusive. -/
structure Fits (F : Fleet) (session : Session) : Prop where
  sole : session.soloed = true → ∀ s ∈ F.sessions, s.soloed = true →
    s.sessionId = session.sessionId
  apart : session.muted = true → session.soloed = false

variable {F : Fleet}

theorem exclusive_empty : Fleet.empty.Exclusive := ⟨by simp [empty], by simp [empty]⟩

/-- The edit sets no solo flag, and leaves the mute flag of a session it leaves soloed. -/
def Tame (g : Edit) : Prop :=
  ∀ s, (g s).soloed = true → s.soloed = true ∧ (g s).muted = s.muted

theorem Tame.only {g : Edit} (tame : Tame g) (id : String) : Tame (.only id g) := by
  intro s
  unfold Edit.only
  simp only
  split
  · exact tame s
  · exact fun solo => ⟨solo, rfl⟩

/-- No session is both muted and soloed. -/
def Apart (F : Fleet) : Prop := ∀ s ∈ F.sessions, s.muted = true → s.soloed = false

theorem Apart.edit (h : F.Apart) {g : Edit} (tame : Tame g) : (F.edit g).Apart := by
  intro s' hs' muted
  obtain ⟨s, hs, rfl⟩ := List.mem_map.mp hs'
  rw [Bool.eq_false_iff]
  intro solo
  have before := h s hs ((tame s solo).2.symm.trans muted)
  rw [(tame s solo).1] at before
  cases before

theorem Apart.drop (h : F.Apart) (id : String) : (F.drop id).Apart :=
  fun s hs => h s (KeyedList.mem_erase.mp hs).1

theorem apart_solo (F : Fleet) (id : String) : (F.reflag (.solo id)).Apart := by
  intro s' hs' muted
  obtain ⟨s, hs, rfl⟩ := List.mem_map.mp hs'
  have soloed : (F.settled (F.edit (.solo id)) (.solo id) s).soloed =
      decide (s.sessionId = id) := rfl
  have cleared : (F.settled (F.edit (.solo id)) (.solo id) s).muted =
      if s.sessionId = id then false else s.muted := rfl
  rw [soloed, decide_eq_false_iff_not]
  intro own
  rw [cleared, if_pos own] at muted
  cases muted

theorem Apart.upsert (h : F.Apart) {session : Session}
    (apart : session.muted = true → session.soloed = false) : (F.upsert session).Apart := by
  intro s hs
  rcases KeyedList.mem_upsert.mp hs with rfl | ⟨hs, -⟩
  · exact apart
  · exact h s hs

/-- Of the mutations only an upsert can bring both flags together. -/
theorem Apart.mutate (h : F.Apart) (m : Mutation) (apart : ∀ session,
    m = .upsertSession session → session.muted = true → session.soloed = false) :
    (F.mutate m).Apart := by
  cases m with
  | upsertSession session => exact h.upsert (apart session rfl)
  | removeSessionEvents id => exact (h.drop id).edit (fun s solo => ⟨solo, rfl⟩)
  | removeSession id => exact (h.drop id).edit (fun s solo => ⟨solo, rfl⟩)
  | upsertRun id run => exact h.edit (Tame.only (fun s solo => ⟨solo, rfl⟩) id)
  | removeRun id runId => exact h.edit (Tame.only (fun s solo => ⟨solo, rfl⟩) id)
  | applyMute id => exact h.edit (Tame.only (g := .mute) (fun s solo => by cases solo) id)
  | applyUnmute id => exact h.edit (Tame.only (fun s solo => by cases solo) id)
  | applySolo id =>
    rw [Fleet.mutate, Fleet.solo]
    split
    · exact F.apart_solo id
    · exact h
  | applyFocus id => exact h.edit (Tame.only (fun s solo => ⟨solo, rfl⟩) id)

theorem Exclusive.edit (h : F.Exclusive) {g : Edit} (tame : Tame g) : (F.edit g).Exclusive := by
  refine ⟨?_, Apart.edit h.apart tame⟩
  intro s' hs' w' hw'
  obtain ⟨s, hs, rfl⟩ := List.mem_map.mp hs'
  obtain ⟨w, hw, rfl⟩ := List.mem_map.mp hw'
  intro solo solo'
  rw [Edit.sessionId_act, Edit.sessionId_act]
  exact h.sole s hs w hw (tame s solo).1 (tame w solo').1

/-- The settling of a flag change leaves the two flags as the edit set them. -/
theorem Exclusive.reflag (h : F.Exclusive) {g : Edit} (tame : Tame g) : (F.reflag g).Exclusive :=
  h.edit (g := F.settled (F.edit g) g) tame

theorem Exclusive.drop (h : F.Exclusive) (id : String) : (F.drop id).Exclusive :=
  ⟨fun s hs w hw => h.sole s (KeyedList.mem_erase.mp hs).1 w (KeyedList.mem_erase.mp hw).1,
    Apart.drop h.apart id⟩

theorem exclusive_solo (F : Fleet) (id : String) : (F.reflag (.solo id)).Exclusive := by
  have flags : ∀ s, (F.settled (F.edit (.solo id)) (.solo id) s).soloed =
      decide (s.sessionId = id) := fun _ => rfl
  refine ⟨?_, F.apart_solo id⟩
  intro s' hs' w' hw'
  obtain ⟨s, hs, rfl⟩ := List.mem_map.mp hs'
  obtain ⟨w, hw, rfl⟩ := List.mem_map.mp hw'
  rw [flags, flags, decide_eq_true_iff, decide_eq_true_iff, Edit.sessionId_act,
    Edit.sessionId_act]
  exact fun own own' => own.trans own'.symm

theorem exclusive_upsert_iff (h : F.Exclusive) (session : Session) :
    (F.upsert session).Exclusive ↔ F.Fits session := by
  constructor
  · intro h'
    have there : F.landed session ∈ (F.upsert session).sessions :=
      KeyedList.mem_upsert.mpr (Or.inl rfl)
    have flags : (F.landed session).soloed = session.soloed ∧
        (F.landed session).muted = session.muted := ⟨rfl, rfl⟩
    constructor
    · intro soloed s hs solo
      by_contra other
      exact other (h'.sole s (KeyedList.mem_upsert.mpr (Or.inr ⟨hs, other⟩))
        (F.landed session) there solo (flags.1.trans soloed))
    · intro muted
      exact flags.1.symm.trans (h'.apart _ there (flags.2.trans muted))
  · intro fits
    constructor
    · intro s hs w hw solo solo'
      rcases KeyedList.mem_upsert.mp hs with rfl | ⟨hs, other⟩
      · rcases KeyedList.mem_upsert.mp hw with rfl | ⟨hw, other'⟩
        · rfl
        · exact (fits.sole solo w hw solo').symm
      · rcases KeyedList.mem_upsert.mp hw with rfl | ⟨hw, other'⟩
        · exact fits.sole solo' s hs solo
        · exact h.sole s hs w hw solo solo'
    · exact Apart.upsert h.apart fits.apart

/-- Of the mutations only an upsert can break the exclusivity. -/
theorem Exclusive.mutate (h : F.Exclusive) (m : Mutation)
    (fits : ∀ session, m = .upsertSession session → F.Fits session) : (F.mutate m).Exclusive := by
  cases m with
  | upsertSession session => exact (exclusive_upsert_iff h session).mpr (fits session rfl)
  | removeSessionEvents id => exact (h.drop id).edit (fun s solo => ⟨solo, rfl⟩)
  | removeSession id => exact (h.drop id).edit (fun s solo => ⟨solo, rfl⟩)
  | upsertRun id run => exact h.edit (Tame.only (fun s solo => ⟨solo, rfl⟩) id)
  | removeRun id runId => exact h.edit (Tame.only (fun s solo => ⟨solo, rfl⟩) id)
  | applyMute id => exact h.reflag (Tame.only (fun s solo => by cases solo) id)
  | applyUnmute id => exact h.reflag (Tame.only (fun s solo => by cases solo) id)
  | applySolo id =>
    rw [Fleet.mutate, Fleet.solo]
    split
    · exact F.exclusive_solo id
    · exact h
  | applyFocus id => exact h.edit (Tame.only (fun s solo => ⟨solo, rfl⟩) id)

/-- Exclusivity in the words of a snapshot. -/
theorem exclusive_iff : F.Exclusive ↔ (F.sessions.filter (fun s => s.soloed)).length ≤ 1 ∧
    ∀ s ∈ F.sessions, ¬ (s.muted = true ∧ s.soloed = true) := by
  have distinct := F.distinct.sublist
    ((List.filter_sublist (p := fun s : Session => s.soloed)).map (fun s => s.sessionId))
  have mem : ∀ s, s ∈ F.sessions.filter (fun s => s.soloed) ↔
      s ∈ F.sessions ∧ s.soloed = true := fun s => List.mem_filter
  generalize F.sessions.filter (fun s => s.soloed) = soloed at distinct mem
  constructor
  · intro h
    constructor
    · cases soloed with
      | nil => exact Nat.zero_le 1
      | cons s rest =>
        cases rest with
        | nil => exact Nat.le_refl 1
        | cons w rest =>
          exfalso
          have hs := (mem s).mp (by simp)
          have hw := (mem w).mp (by simp)
          have same := h.sole s hs.1 w hw.1 hs.2 hw.2
          simp [same] at distinct
    · rintro s hs ⟨muted, solo⟩
      rw [h.apart s hs muted] at solo
      cases solo
  · rintro ⟨few, apart⟩
    constructor
    · intro s hs w hw solo solo'
      have hs := (mem s).mpr ⟨hs, solo⟩
      have hw := (mem w).mpr ⟨hw, solo'⟩
      cases soloed with
      | nil => cases hs
      | cons v rest =>
        have none : rest = [] := List.length_eq_zero_iff.mp (by simpa using few)
        subst none
        rw [List.mem_singleton.mp hs, List.mem_singleton.mp hw]
    · intro s hs muted
      rw [Bool.eq_false_iff]
      exact fun solo => apart s hs ⟨muted, solo⟩

end Fleet

/-! ## The run of messages -/

namespace StateStore

variable (store : StateStore)

/-- At most one session is soloed, and none is both muted and soloed. -/
def AtMostOneSolo : Prop :=
  (store.snapshot.filter (fun s => s.soloed)).length ≤ 1 ∧
  ∀ s ∈ store.snapshot, ¬ (s.muted = true ∧ s.soloed = true)

/-- A session new to the Hub is not both muted and soloed, and not soloed where another is. -/
def SoloArrival (arrival : IterOrder Session × ClientMessage) : Prop :=
  match arrival.2 with
  | .sessionUpsert session => store.engine.session session.sessionId = none →
    store.log.faults.headD false = false →
    ¬ (session.muted = true ∧ session.soloed = true) ∧
    (session.soloed = true → ∀ s ∈ store.snapshot, s.soloed = false)
  | _ => True

variable {store}

theorem atMostOneSolo_iff {F : Fleet} (h : Refines store.engine F) :
    store.AtMostOneSolo ↔ F.Exclusive := by
  rw [Fleet.exclusive_iff, ← h.snapshot]
  rfl

theorem receive_refines {F : Fleet} (h : Refines store.engine F)
    (arrival : IterOrder Session × ClientMessage) :
    ∃ F', Refines (store.receive arrival).engine F' :=
  (store.applyMessage_did arrival.1 arrival.2).wellFormed ⟨F, h⟩

theorem applySessionUpsert_atMostOneSolo_iff {F : Fleet} (h : Refines store.engine F)
    (exclusive : F.Exclusive) (session : Session) :
    (store.applySessionUpsert session).2.AtMostOneSolo ↔
      (store.engine.session session.sessionId = none → store.log.faults.headD false = false →
        ¬ (session.muted = true ∧ session.soloed = true) ∧
        (session.soloed = true → ∀ s ∈ store.snapshot, s.soloed = false)) := by
  rw [applySessionUpsert]
  cases fault : store.log.faults.headD false with
  | true =>
    rw [logAndApply_failed store _ fault]
    refine iff_of_true ((atMostOneSolo_iff (F := F) h).mpr exclusive) (fun _ works => ?_)
    cases works
  | false =>
    rw [logAndApply_ok store _ fault]
    refine (atMostOneSolo_iff (h.upsertSession (store.preserveHubOwnedFields session))).trans ?_
    rw [Fleet.exclusive_upsert_iff exclusive, snapshot, h.snapshot]
    unfold preserveHubOwnedFields
    rw [h.session]
    cases held : F.get? session.sessionId with
    | none =>
      have new : ∀ s ∈ F.sessions, s.sessionId ≠ session.sessionId := by
        intro s hs same
        rw [← same, Fleet.get?_of_mem hs] at held
        cases held
      constructor
      · intro fits _ _
        refine ⟨?_, fun solo s hs => ?_⟩
        · rintro ⟨muted, solo⟩
          rw [fits.apart muted] at solo
          cases solo
        · rw [Bool.eq_false_iff]
          exact fun other => new s hs (fits.sole solo s hs other)
      · intro arrives
        obtain ⟨apart, sole⟩ := arrives rfl rfl
        refine ⟨fun solo s hs other => ?_, fun muted => ?_⟩
        · rw [sole solo s hs] at other
          cases other
        · rw [Bool.eq_false_iff]
          exact fun solo => apart ⟨muted, solo⟩
    | some existing =>
      -- The session keeps the flags it has in the fleet.
      obtain ⟨hs, own⟩ := Fleet.get?_eq_some_iff.mp held
      refine iff_of_true ⟨fun solo s hs' other => ?_, exclusive.apart existing hs⟩
        (fun absent => by cases absent)
      exact (exclusive.sole s hs' existing hs other solo).trans own

/-- Over an exclusive store a message leaves an exclusive one exactly where a new session fits. -/
theorem receive_atMostOneSolo_iff {F : Fleet} (h : Refines store.engine F)
    (exclusive : F.Exclusive) (arrival : IterOrder Session × ClientMessage) :
    (store.receive arrival).AtMostOneSolo ↔ store.SoloArrival arrival := by
  obtain ⟨iter, msg⟩ := arrival
  by_cases upsert : ∃ session, msg = .sessionUpsert session
  · obtain ⟨session, rfl⟩ := upsert
    exact applySessionUpsert_atMostOneSolo_iff h exclusive session
  · have arrives : store.SoloArrival (iter, msg) := by
      unfold SoloArrival
      split
      · rename_i session eq
        exact absurd ⟨session, eq⟩ upsert
      · trivial
    refine (iff_true_right arrives).mpr ?_
    rcases (store.applyMessage_did iter msg).refines h with h' | ⟨m, hm, h'⟩
    · exact (atMostOneSolo_iff h').mpr exclusive
    · refine (atMostOneSolo_iff h').mpr (exclusive.mutate m (fun session put => ?_))
      subst put
      obtain ⟨sent, eq, -⟩ := mutationOf_upsertSession hm
      exact absurd ⟨sent, eq⟩ upsert

/-- The store of an exclusive fleet. -/
def ExclusiveStore (store : StateStore) : Prop := ∃ F, Refines store.engine F ∧ F.Exclusive

theorem after_refines (faults : List Bool) (msgs : List (IterOrder Session × ClientMessage))
    (k : Nat) : ∃ F, Refines (after faults msgs k).engine F :=
  List.foldlRecOn (msgs.take k) receive (motive := fun store => ∃ F, Refines store.engine F)
    ⟨.empty, Refines.new⟩ (fun _ ⟨_, h⟩ arrival _ => receive_refines h arrival)

end StateStore

/-- In every run of messages over a Hub opened empty, at most one session is ever soloed, and none
both muted and soloed, exactly where no new session brings such flags with it. -/
theorem at_most_one_solo_iff (faults : List Bool)
    (msgs : List (IterOrder Session × ClientMessage)) :
    (∀ k ≤ msgs.length, (StateStore.after faults msgs k).AtMostOneSolo) ↔
      Along StateStore.receive StateStore.SoloArrival (.opened faults) msgs := by
  constructor
  · intro sole
    rw [Along.iff_take]
    intro k hk
    obtain ⟨F, h⟩ := StateStore.after_refines faults msgs k
    have now := (StateStore.atMostOneSolo_iff h).mp (sole k (Nat.le_of_lt hk))
    have next := sole (k + 1) hk
    rw [StateStore.after_succ hk] at next
    exact (StateStore.receive_atMostOneSolo_iff h now msgs[k]).mp next
  · intro arrives k _
    rw [← List.take_append_drop k msgs, Along.append] at arrives
    have kept : ∀ store arrival, StateStore.ExclusiveStore store → store.SoloArrival arrival →
        (store.receive arrival).ExclusiveStore := by
      rintro store arrival ⟨F, h, exclusive⟩ fits
      obtain ⟨F', h'⟩ := StateStore.receive_refines h arrival
      exact ⟨F', h', (StateStore.atMostOneSolo_iff h').mp
        ((StateStore.receive_atMostOneSolo_iff h exclusive arrival).mpr fits)⟩
    obtain ⟨F, h, exclusive⟩ := arrives.1.invariant kept _ _
      ⟨.empty, Refines.new, Fleet.exclusive_empty⟩
    exact (StateStore.atMostOneSolo_iff h).mpr exclusive

/-- Two sessions arrive soloed. -/
theorem two_soloed_arrivals : ¬ ∀ (faults : List Bool)
    (msgs : List (IterOrder Session × ClientMessage)), ∀ k ≤ msgs.length,
    (StateStore.after faults msgs k).AtMostOneSolo := by
  intro sole
  have few := (sole [] ([ClientMessage.sessionUpsert { Session.plain "a" [] with soloed := true },
    .sessionUpsert { Session.plain "b" [] with soloed := true }].map
      (fun msg => (IterOrder.asStored Session, msg))) 2 (by decide)).1
  revert few
  decide

end VsFleet
