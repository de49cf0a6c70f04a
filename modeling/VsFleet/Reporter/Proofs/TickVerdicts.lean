import VsFleet.Misc.Pass
import VsFleet.Reporter.Proofs.ShellSteps

/-!
# What a tick does to each session

A tick first hands verdicts to the sessions whose call is about to fire, and then fires those that
are still armed. Both loops visit each session once and touch no other, so the machine of a session
after the tick depends on its machine before and on its own transcript.
-/

namespace VsFleet

/-- The iteration order of a walk over the inferring sessions. -/
abbrev SessionOrder := IterOrder (Sigma fun _ : String => AdapterSession ClaudeInferMachine)

/-! ## One machine -/

namespace ClaudeInferMachine

variable (fromStr : String → Option Json) (readToString : String → Option String)
  (m : ClaudeInferMachine) (nowMs : Nat)

/-- The verdict of a transcript on the call the machine is armed for. -/
def verdictOn (blob : String) : Corroboration :=
  match m.armedToolUseId with
  | some id => corroborateJsonlFor (transcript fromStr blob) id
  | none => corroborateJsonl (transcript fromStr blob)

/-- The transcript of the call is there, can be read, and says that the call has its result. -/
def Resolved : Prop :=
  ∃ blob, m.armedTranscriptPath.bind readToString = some blob ∧
    m.verdictOn fromStr blob = .resolved

/-- The machine after the look at its transcript. -/
def vetoed : ClaudeInferMachine :=
  match m.armedTranscriptPath.bind readToString with
  | some blob => (m.corroborate (m.verdictOn fromStr blob)).2
  | none => m

variable {fromStr readToString m nowMs}

theorem vetoed_of_resolved (h : m.Resolved fromStr readToString) :
    m.vetoed fromStr readToString = (m.corroborate .resolved).2 := by
  obtain ⟨blob, read, resolved⟩ := h
  simp only [vetoed, read, resolved]

theorem vetoed_of_not_resolved (h : ¬ m.Resolved fromStr readToString) :
    m.vetoed fromStr readToString = m := by
  unfold vetoed
  split
  · rename_i blob read
    cases verdict : m.verdictOn fromStr blob with
    | resolved => exact absurd ⟨blob, read, verdict⟩ h
    | stuck | unknown => rfl
  · rfl

/-- A verdict that the call has its result takes the machine out of its alarm, and never into it. -/
theorem corroborate_resolved (m : ClaudeInferMachine) :
    (m.corroborate .resolved).2.armedSince = none ∧
      ((m.corroborate .resolved).2.core.state = .waiting → m.core.state = .waiting) := by
  simp only [corroborate]
  split
  · exact ⟨rfl, fun waits => by cases waits⟩
  · exact ⟨rfl, id⟩

theorem tick_of_due (due : m.debounceElapsed nowMs = true) :
    (m.tick nowMs).2 = m.fireInference.2 := by
  rw [tick, if_pos due]

theorem tick_of_not_due (early : m.debounceElapsed nowMs = false) : (m.tick nowMs).2 = m := by
  rw [tick, early]
  rfl

theorem not_due_of_disarmed (disarmed : m.armedSince = none) : m.debounceElapsed nowMs = false := by
  rw [debounceElapsed, disarmed]

end ClaudeInferMachine

/-! ## The two loops -/

/-- The machine of a session is replaced. -/
def AdapterSession.over {M : Type} (session : AdapterSession M) (f : M → M) : AdapterSession M :=
  { session with machine := f session.machine }

theorem AdapterCore.lookup_withExisting {M : Type} [RunMachine M] (a : AdapterCore M)
    (iso id : String) (f : M → Transition × M) (id' : String) :
    (a.withExisting iso id f).2.sessions.lookup id' =
      if id' = id then (a.sessions.lookup id').map (fun s => s.over (fun m => (f m).2))
      else a.sessions.lookup id' := by
  cases found : a.sessions.lookup id with
  | none =>
    simp only [withExisting, found]
    split
    · rename_i same
      rw [same, found]
      rfl
    · rfl
  | some session =>
    rw [withExisting_of_some found]
    by_cases same : id' = id
    · subst same
      rw [AList.lookup_insert, if_pos rfl, found]
      rfl
    · rw [AList.lookup_insert_ne same, if_neg same]

namespace ClaudeInferAdapter

variable (adapter : ClaudeInferAdapter) (iter : SessionOrder) (nowMs : Nat)

theorem ids_nodup : (adapter.core.ids iter).Nodup := by
  have keys : adapter.core.sessions.entries.keys.Nodup := adapter.core.sessions.nodupKeys
  exact ((iter.isPerm _).map _).nodup_iff.mpr keys

theorem mem_ids (id : String) :
    id ∈ adapter.core.ids iter ↔ (adapter.core.sessions.lookup id).isSome := by
  rw [AList.lookup_isSome, AdapterCore.ids, ((iter.isPerm _).map _).mem_iff]
  rfl

theorem pendingFires_nodup : ((adapter.pendingFires iter nowMs).map (fun p => p.1)).Nodup := by
  have keys : adapter.core.sessions.entries.keys.Nodup := adapter.core.sessions.nodupKeys
  rw [pendingFires, List.map_map]
  refine List.Nodup.sublist (List.filter_sublist.map _) ?_
  exact ((iter.isPerm _).map _).nodup_iff.mpr keys

/-- What is about to fire, with the transcript of its call. -/
theorem mem_pendingFires {p : String × Option String} :
    p ∈ adapter.pendingFires iter nowMs ↔ ∃ s, adapter.core.sessions.lookup p.1 = some s ∧
      s.machine.debounceElapsed nowMs = true ∧ p.2 = s.machine.armedTranscriptPath := by
  simp only [pendingFires, List.mem_map, List.mem_filter,
    (iter.isPerm adapter.core.sessions.entries).mem_iff]
  constructor
  · rintro ⟨⟨id, s⟩, ⟨entry, due⟩, rfl⟩
    exact ⟨s, AList.mem_lookup_iff.mpr entry, due, rfl⟩
  · rintro ⟨s, found, due, path⟩
    exact ⟨⟨p.1, s⟩, ⟨AList.mem_lookup_iff.mp found, due⟩, by rw [← path]⟩

/-- Every machine is fed the tick once. -/
theorem lookup_tick (iso : String → String) (id : String) :
    (adapter.tick iter iso nowMs).2.core.sessions.lookup id =
      (adapter.core.sessions.lookup id).map (fun s => s.over (fun m => (m.tick nowMs).2)) := by
  have own : ∀ (acc : List ReporterCommand × ClaudeInferAdapter) (sid k : String),
      (tickOne iso nowMs acc sid).2.core.sessions.lookup k =
        if k = sid then
          (acc.2.core.sessions.lookup k).map (fun s => s.over (fun m => (m.tick nowMs).2))
        else acc.2.core.sessions.lookup k := by
    intro acc sid k
    exact acc.2.core.lookup_withExisting (iso sid) sid (fun m => m.tick nowMs) k
  have distinct : ((adapter.core.ids iter).map (fun sid => sid)).Nodup := by
    rw [List.map_id']
    exact adapter.ids_nodup iter
  obtain ⟨visited, others⟩ := entry_foldl (fun sid => sid)
    (fun acc : List ReporterCommand × ClaudeInferAdapter => fun k => acc.2.core.sessions.lookup k)
    (fun _ => Option.map (fun s => s.over (fun m => (m.tick nowMs).2))) own distinct ([], adapter)
  by_cases tracked : id ∈ adapter.core.ids iter
  · exact visited id tracked
  · have untouched := others id (by rwa [List.map_id'])
    rw [mem_ids, Option.not_isSome_iff_eq_none] at tracked
    rw [tracked] at untouched ⊢
    exact untouched

end ClaudeInferAdapter

namespace Receiver

variable (fromStr : String → Option Json) (readToString : String → Option String)

/-- One look at a transcript concerns one session. -/
theorem lookup_vetoOne (vetoIso : String → String)
    (acc : List ReporterCommand × ClaudeInferAdapter) (p : String × Option String) (k : String) :
    (vetoOne fromStr readToString vetoIso acc p).2.core.sessions.lookup k =
      if k = p.1 then (acc.2.core.sessions.lookup k).map (fun s => s.over (fun m =>
        match p.2.bind readToString with
        | some blob => (m.corroborate (m.verdictOn fromStr blob)).2
        | none => m))
      else acc.2.core.sessions.lookup k := by
  unfold vetoOne
  cases p.2.bind readToString with
  | none =>
    have same : ∀ o : Option (AdapterSession ClaudeInferMachine),
        o.map (fun s => s.over (fun m => m)) = o := by
      intro o
      cases o <;> rfl
    rw [same, ite_self]
  | some blob =>
    simp only [ClaudeInferAdapter.corroborateBlob]
    cases found : acc.2.core.sessions.lookup p.1 with
    | none =>
      by_cases own : k = p.1
      · rw [if_pos own, own, found]
        rfl
      · rw [if_neg own]
    | some session =>
      have moved := acc.2.core.lookup_withExisting (vetoIso p.1) p.1
        (fun m => m.corroborate (session.machine.verdictOn fromStr blob)) k
      refine moved.trans ?_
      by_cases own : k = p.1
      · rw [if_pos own, if_pos own, own, found]
        rfl
      · rw [if_neg own, if_neg own]

/-- The look at the transcripts reaches every session whose call is about to fire. -/
theorem lookup_vetoes (receiver : Receiver) (iter : SessionOrder) (vetoIso : String → String)
    (nowMs : Nat) (id : String) :
    ((receiver.infer.pendingFires iter nowMs).foldl (vetoOne fromStr readToString vetoIso)
      ([], receiver.infer)).2.core.sessions.lookup id =
      (receiver.infer.core.sessions.lookup id).map (fun s => s.over (fun m =>
        if m.debounceElapsed nowMs then m.vetoed fromStr readToString else m)) := by
  obtain ⟨visited, others⟩ := entry_foldl (fun p : String × Option String => p.1)
    (fun acc : List ReporterCommand × ClaudeInferAdapter => fun k => acc.2.core.sessions.lookup k)
    (fun p => Option.map (fun s => s.over (fun m => match p.2.bind readToString with
      | some blob => (m.corroborate (m.verdictOn fromStr blob)).2
      | none => m)))
    (lookup_vetoOne fromStr readToString vetoIso) (receiver.infer.pendingFires_nodup iter nowMs)
    ([], receiver.infer)
  cases found : receiver.infer.core.sessions.lookup id with
  | none =>
    have absent : id ∉ (receiver.infer.pendingFires iter nowMs).map (fun p => p.1) := by
      intro mem
      obtain ⟨p, pending, rfl⟩ := List.mem_map.mp mem
      obtain ⟨s, there, -⟩ := (receiver.infer.mem_pendingFires iter nowMs).mp pending
      cases found.symm.trans there
    exact (others id absent).trans found
  | some s =>
    cases due : s.machine.debounceElapsed nowMs with
    | true =>
      have pending := (receiver.infer.mem_pendingFires iter nowMs
        (p := (id, s.machine.armedTranscriptPath))).mpr ⟨s, found, due, rfl⟩
      refine (visited _ pending).trans ?_
      dsimp only
      rw [found]
      simp [AdapterSession.over, due, ClaudeInferMachine.vetoed]
    | false =>
      have absent : id ∉ (receiver.infer.pendingFires iter nowMs).map (fun p => p.1) := by
        intro mem
        obtain ⟨p, pending, rfl⟩ := List.mem_map.mp mem
        obtain ⟨t, there, late, -⟩ := (receiver.infer.mem_pendingFires iter nowMs).mp pending
        cases found.symm.trans there
        cases due.symm.trans late
      refine (others id absent).trans (found.trans ?_)
      simp [AdapterSession.over, due]

/-- What the tick makes of one machine. -/
theorem lookup_tickAt (receiver : Receiver) (iter : SessionOrder) (vetoIso iso : String → String)
    (nowMs : Nat) (id : String) :
    (receiver.tickAt fromStr readToString iter vetoIso iso nowMs).2.infer.core.sessions.lookup id =
      (receiver.infer.core.sessions.lookup id).map (fun s => s.over (fun m =>
        ((if m.debounceElapsed nowMs then m.vetoed fromStr readToString else m).tick nowMs).2)) := by
  have ticked := ClaudeInferAdapter.lookup_tick ((receiver.infer.pendingFires iter nowMs).foldl
    (vetoOne fromStr readToString vetoIso) ([], receiver.infer)).2 iter nowMs iso id
  refine ticked.trans ?_
  rw [lookup_vetoes, Option.map_map]
  rfl

/-- A tick turns to waiting exactly the sessions whose call has been pending for the window and is
not known to have its result, disarms the due ones whose call is known to have it, and leaves every
other session alone, whatever the order of the visits. -/
theorem tick_exact (receiver : Receiver) (iter : SessionOrder) (vetoIso iso : String → String)
    (nowMs : Nat) :
    let after := (receiver.tickAt fromStr readToString iter vetoIso iso nowMs).2
    after.claude = receiver.claude ∧ after.codex = receiver.codex ∧
    (∀ id, receiver.infer.core.sessions.lookup id = none →
      after.infer.core.sessions.lookup id = none) ∧
    (∀ id s, receiver.infer.core.sessions.lookup id = some s →
      ∃ s', after.infer.core.sessions.lookup id = some s' ∧ s'.runId = s.runId ∧
        (s.machine.debounceElapsed nowMs = true ∧ ¬ s.machine.Resolved fromStr readToString →
          s'.machine = s.machine.fireInference.2) ∧
        (s.machine.debounceElapsed nowMs = true ∧ s.machine.Resolved fromStr readToString →
          s'.machine = (s.machine.corroborate .resolved).2 ∧ s'.machine.armedSince = none) ∧
        (s.machine.debounceElapsed nowMs = false → s'.machine = s.machine) ∧
        (s.machine.core.state ≠ .waiting → (s'.machine.core.state = .waiting ↔
          s.machine.debounceElapsed nowMs = true ∧
            ¬ s.machine.Resolved fromStr readToString))) ∧
    ∀ (iter' : SessionOrder) (vetoIso' iso' : String → String) (id : String),
      (receiver.tickAt fromStr readToString iter' vetoIso' iso' nowMs).2.infer.core.sessions.lookup
        id = after.infer.core.sessions.lookup id := by
  intro after
  have settled := lookup_tickAt fromStr readToString receiver iter vetoIso iso nowMs
  refine ⟨rfl, rfl, fun id absent => ?_, fun id s found => ?_, fun iter' vetoIso' iso' id => ?_⟩
  · rw [settled, absent]
    rfl
  · have moved := settled id
    rw [found, Option.map_some] at moved
    refine ⟨_, moved, rfl, ?_⟩
    dsimp only [AdapterSession.over]
    cases due : s.machine.debounceElapsed nowMs with
    | false =>
      rw [if_neg Bool.false_ne_true, ClaudeInferMachine.tick_of_not_due due]
      refine ⟨fun h => absurd h.1 Bool.false_ne_true, fun h => absurd h.1 Bool.false_ne_true,
        fun _ => rfl, fun awake => ?_⟩
      exact iff_of_false awake (fun h => Bool.false_ne_true h.1)
    | true =>
      rw [if_pos rfl]
      by_cases resolved : s.machine.Resolved fromStr readToString
      · obtain ⟨disarmed, quiet⟩ := s.machine.corroborate_resolved
        rw [ClaudeInferMachine.vetoed_of_resolved resolved, ClaudeInferMachine.tick_of_not_due
          (ClaudeInferMachine.not_due_of_disarmed disarmed)]
        refine ⟨fun h => absurd resolved h.2, fun _ => ⟨rfl, disarmed⟩,
          fun early => absurd early.symm Bool.false_ne_true, fun awake => ?_⟩
        exact iff_of_false (fun waits => awake (quiet waits)) (fun h => h.2 resolved)
      · rw [ClaudeInferMachine.vetoed_of_not_resolved resolved, ClaudeInferMachine.tick_of_due due]
        refine ⟨fun _ => rfl, fun h => absurd h.2 resolved,
          fun early => absurd early.symm Bool.false_ne_true, fun _ => ?_⟩
        exact iff_of_true rfl ⟨rfl, resolved⟩
  · rw [lookup_tickAt, settled]

end Receiver

end VsFleet
