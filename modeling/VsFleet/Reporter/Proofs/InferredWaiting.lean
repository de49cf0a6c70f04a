import VsFleet.Reporter.Proofs.Honesty

/-!
# When a waiting is inferred

The inferring machine is in one of three phases: nothing is pending, a tool call is pending since it
was armed, or the call has been pending for so long that the run counts as waiting. The phase can be
read off the history: it is decided by what came after the last tool call.
-/

namespace VsFleet

namespace InferEvent

/-- The time the event carries. -/
def time : InferEvent → Option Nat
  | .hook _ nowMs => some nowMs
  | .tick nowMs => some nowMs
  | .corroborate _ => none

/-- The time at which the event arms the machine of a session. -/
def arms (id : String) : InferEvent → Option Nat
  | .hook ev nowMs => if ev.sessionId = id ∧ ev.kind = .preToolUse then some nowMs else none
  | _ => none

/-- The event puts an end to whatever was pending. -/
def Cancels (id : String) : InferEvent → Prop
  | .hook ev _ => ev.sessionId = id ∧ ev.kind ∈ [ClaudeHookKind.preToolUse, .userPromptSubmit,
      .stop, .postToolUse, .sessionEnd]
  | .corroborate verdict => verdict = .resolved
  | .tick _ => False

instance decidableCancels (id : String) : ∀ e : InferEvent, Decidable (e.Cancels id)
  | .hook _ _ => inferInstanceAs (Decidable (_ ∧ _))
  | .corroborate verdict => inferInstanceAs (Decidable (verdict = .resolved))
  | .tick _ => inferInstanceAs (Decidable False)

theorem cancels_of_arms {id : String} {e : InferEvent} {a : Nat} (h : e.arms id = some a) :
    e.Cancels id := by
  cases e with
  | hook ev nowMs =>
    simp only [arms] at h
    split at h
    · rename_i own
      exact ⟨own.1, by simp [own.2]⟩
    · cases h
  | tick nowMs => cases h
  | corroborate verdict => cases h

end InferEvent

/-- What the machine makes of its history. -/
inductive Phase where
  | quiet
  | armed (since : Nat)
  | fired
  deriving DecidableEq, Repr

namespace Phase

/-- A call that has been pending for long enough at a tick counts as waiting. -/
def wait (debounceMs : Nat) : Phase → InferEvent → Phase
  | .armed a, .tick nowMs => if nowMs - a ≥ debounceMs then .fired else .armed a
  | p, _ => p

/-- What one event does to the phase of the machine of a session. -/
def step (id : String) (debounceMs : Nat) (p : Phase) (e : InferEvent) : Phase :=
  match e.arms id with
  | some a => .armed a
  | none => if e.Cancels id then .quiet else p.wait debounceMs e

/-- Some tick of the history comes late enough for a call armed at `a`. -/
def Elapses (debounceMs a : Nat) (events : List InferEvent) : Prop :=
  ∃ nowMs, .tick nowMs ∈ events ∧ nowMs - a ≥ debounceMs

variable {id : String} {debounceMs : Nat}

theorem step_arms {p : Phase} {e : InferEvent} {a : Nat} (h : e.arms id = some a) :
    p.step id debounceMs e = .armed a := by
  simp only [step, h]

/-- An event that does not cancel does not arm, and only a tick moves the phase. -/
theorem step_of_not_cancels {p : Phase} {e : InferEvent} (h : ¬ e.Cancels id) :
    p.step id debounceMs e = p.wait debounceMs e := by
  have none : e.arms id = none := by
    cases armed : e.arms id with
    | none => rfl
    | some a => exact absurd (InferEvent.cancels_of_arms armed) h
  simp only [step, none, if_neg h]

theorem foldl_fired (events : List InferEvent) (kept : ∀ e ∈ events, ¬ e.Cancels id) :
    events.foldl (step id debounceMs) .fired = .fired := by
  induction events with
  | nil => rfl
  | cons e events ih =>
    rw [List.foldl_cons, step_of_not_cancels (kept e (by simp))]
    exact ih (fun e he => kept e (List.mem_cons_of_mem _ he))

/-- A call that nothing cancels fires at the first tick that comes late enough. -/
theorem foldl_armed (a : Nat) (events : List InferEvent) (kept : ∀ e ∈ events, ¬ e.Cancels id) :
    (Elapses debounceMs a events ∧ events.foldl (step id debounceMs) (.armed a) = .fired) ∨
      (¬ Elapses debounceMs a events ∧
        events.foldl (step id debounceMs) (.armed a) = .armed a) := by
  induction events with
  | nil => exact Or.inr ⟨by simp [Elapses], rfl⟩
  | cons e events ih =>
    have rest := ih (fun e he => kept e (List.mem_cons_of_mem _ he))
    have late : ∀ x, Elapses debounceMs a (x :: events) ↔
        (∃ nowMs, x = .tick nowMs ∧ nowMs - a ≥ debounceMs) ∨ Elapses debounceMs a events := by
      intro x
      simp only [Elapses, List.mem_cons, or_and_right, exists_or, eq_comm]
    rw [List.foldl_cons, step_of_not_cancels (kept e (by simp)), late]
    cases e with
    | tick nowMs =>
      simp only [wait]
      split
      · rename_i elapsed
        refine Or.inl ⟨Or.inl ⟨nowMs, rfl, elapsed⟩, ?_⟩
        exact foldl_fired events (fun e he => kept e (List.mem_cons_of_mem _ he))
      · rename_i early
        have no : ¬ ∃ n, InferEvent.tick nowMs = .tick n ∧ n - a ≥ debounceMs := by
          rintro ⟨n, same, elapsed⟩
          cases same
          exact early elapsed
        simpa only [no, false_or] using rest
    | hook ev nowMs => simpa [wait] using rest
    | corroborate verdict => simpa [wait] using rest

/-- Something is pending only after a call that nothing has cancelled. -/
theorem exists_arm (events : List InferEvent)
    (pending : events.foldl (step id debounceMs) .quiet ≠ .quiet) :
    ∃ before e a after, events = before ++ e :: after ∧ e.arms id = some a ∧
      ∀ e ∈ after, ¬ e.Cancels id := by
  induction events using List.reverseRecOn with
  | nil => exact absurd rfl pending
  | append_singleton events e ih =>
    cases armed : e.arms id with
    | some a => exact ⟨events, e, a, [], rfl, armed, by simp⟩
    | none =>
      rw [List.foldl_append] at pending
      by_cases cancels : e.Cancels id
      · simp [step, armed, cancels] at pending
      · have earlier : events.foldl (step id debounceMs) .quiet ≠ .quiet := by
          intro quiet
          rw [quiet, List.foldl_cons, step_of_not_cancels cancels] at pending
          exact pending rfl
        obtain ⟨before, b, a, after, rfl, hb, kept⟩ := ih earlier
        refine ⟨before, b, a, after ++ [e], by simp, hb, fun x hx => ?_⟩
        rcases List.mem_append.mp hx with hx | hx
        · exact kept x hx
        · rw [List.mem_singleton.mp hx]
          exact cancels

/-- A waiting is pending exactly where the last call was not cancelled and a tick came late enough
after it. -/
theorem fired_iff (events : List InferEvent) :
    events.foldl (step id debounceMs) .quiet = .fired ↔
      ∃ before e a after, events = before ++ e :: after ∧ e.arms id = some a ∧
        Elapses debounceMs a after ∧ ∀ e ∈ after, ¬ e.Cancels id := by
  constructor
  · intro fired
    obtain ⟨before, e, a, after, rfl, armed, kept⟩ := exists_arm events (by rw [fired]; decide)
    refine ⟨before, e, a, after, rfl, armed, ?_, kept⟩
    rw [List.foldl_append, List.foldl_cons, step_arms armed] at fired
    rcases foldl_armed a after kept with ⟨elapses, -⟩ | ⟨-, still⟩
    · exact elapses
    · cases still.symm.trans fired
  · rintro ⟨before, e, a, after, rfl, armed, elapses, kept⟩
    rw [List.foldl_append, List.foldl_cons, step_arms armed]
    rcases foldl_armed a after kept with ⟨-, fired⟩ | ⟨early, -⟩
    · exact fired
    · exact absurd elapses early

end Phase

namespace ClaudeInferMachine

/-- The machine is in a phase of its history. -/
def InPhase (m : ClaudeInferMachine) : Phase → Prop
  | .quiet => m.armedSince = none ∧ m.inferredWaiting = false ∧ m.core.state ≠ .waiting
  | .armed since => m.armedSince = some since ∧ m.inferredWaiting = false ∧ m.core.state = .working
  | .fired => m.armedSince = none ∧ m.inferredWaiting = true ∧ m.core.state = .waiting

/-- A machine that an event has quieted. -/
theorem inPhase_of_cancels {m : ClaudeInferMachine} {p : Phase} {e : InferEvent} {id : String}
    {debounceMs : Nat} (arms : e.arms id = none) (cancels : e.Cancels id)
    (quiet : m.InPhase .quiet) : m.InPhase (p.step id debounceMs e) := by
  simpa only [Phase.step, arms, if_pos cancels] using quiet

/-- A machine that an event has left where it was. -/
theorem inPhase_of_not_cancels {m m' : ClaudeInferMachine} {p : Phase} {e : InferEvent}
    {id : String} {debounceMs : Nat} (h : m.InPhase p) (spared : ¬ e.Cancels id)
    (waits : p.wait debounceMs e = p)
    (same : m'.armedSince = m.armedSince ∧ m'.inferredWaiting = m.inferredWaiting ∧
      m'.core.state = m.core.state) : m'.InPhase (p.step id debounceMs e) := by
  rw [Phase.step_of_not_cancels spared, waits]
  obtain ⟨armed, waiting, state⟩ := same
  cases p <;> simpa only [InPhase, armed, waiting, state] using h

/-- A machine that is not in the quiet phase is not dead. -/
theorem InPhase.not_dead {m : ClaudeInferMachine} {p : Phase} (h : m.InPhase p)
    (pending : p ≠ .quiet) : m.core.state ≠ .dead := by
  cases p with
  | quiet => exact absurd rfl pending
  | armed since => rw [h.2.2]; decide
  | fired => rw [h.2.2]; decide

/-- A hook moves the machine as it moves the phase. -/
theorem apply_inPhase {m : ClaudeInferMachine} {p : Phase} (h : m.InPhase p)
    (ev : ClaudeHookEvent) (nowMs : Nat) :
    (m.apply ev nowMs).2.InPhase (p.step m.core.nativeId m.debounceMs (.hook ev nowMs)) := by
  have waits : p.wait m.debounceMs (.hook ev nowMs) = p := by cases p <;> rfl
  by_cases own : ev.sessionId = m.core.nativeId
  · simp only [apply, own, ne_eq, not_true_eq_false, if_false]
    cases kind : ev.kind with
    | preToolUse =>
      have arms : InferEvent.arms m.core.nativeId (.hook ev nowMs) = some nowMs := by
        simp [InferEvent.arms, own, kind]
      rw [Phase.step_arms arms]
      exact ⟨rfl, rfl, rfl⟩
    | userPromptSubmit =>
      exact inPhase_of_cancels (by simp [InferEvent.arms, kind])
        (by simp [InferEvent.Cancels, own, kind]) ⟨rfl, rfl, State.noConfusion⟩
    | stop =>
      refine inPhase_of_cancels (by simp [InferEvent.arms, kind])
        (by simp [InferEvent.Cancels, own, kind]) ?_
      dsimp only
      split
      · exact ⟨rfl, rfl, State.noConfusion⟩
      · exact ⟨rfl, rfl, State.noConfusion⟩
    | sessionEnd =>
      exact inPhase_of_cancels (by simp [InferEvent.arms, kind])
        (by simp [InferEvent.Cancels, own, kind]) ⟨rfl, rfl, State.noConfusion⟩
    | postToolUse =>
      refine inPhase_of_cancels (by simp [InferEvent.arms, kind])
        (by simp [InferEvent.Cancels, own, kind]) ?_
      dsimp only
      split
      · exact ⟨rfl, rfl, State.noConfusion⟩
      · -- what has not fired does not wait
        rename_i resolved
        refine ⟨rfl, rfl, ?_⟩
        change (m.core.note ev.cwd ev.toolName).state ≠ .waiting
        rw [Core.note_state]
        cases p with
        | quiet => exact h.2.2
        | armed since => rw [h.2.2]; decide
        | fired => exact absurd h.2.1 resolved
    | sessionStart =>
      have spared : ¬ InferEvent.Cancels m.core.nativeId (.hook ev nowMs) := by
        simp [InferEvent.Cancels, kind]
      dsimp only
      split
      · rename_i dead
        rw [Core.note_state] at dead
        have quiet : p = .quiet := by
          by_contra pending
          exact h.not_dead pending dead
        subst quiet
        rw [Phase.step_of_not_cancels spared, waits]
        exact ⟨rfl, rfl, State.noConfusion⟩
      · exact inPhase_of_not_cancels h spared waits ⟨rfl, rfl, Core.note_state ..⟩
    | subagentStop =>
      exact inPhase_of_not_cancels h (by simp [InferEvent.Cancels, kind]) waits
        ⟨rfl, rfl, Core.note_state ..⟩
    | preCompact =>
      exact inPhase_of_not_cancels h (by simp [InferEvent.Cancels, kind]) waits
        ⟨rfl, rfl, Core.note_state ..⟩
    | other name =>
      exact inPhase_of_not_cancels h (by simp [InferEvent.Cancels, kind]) waits
        ⟨rfl, rfl, Core.note_state ..⟩
  · simp only [apply, if_pos own]
    exact inPhase_of_not_cancels h (by simp [InferEvent.Cancels, own]) waits ⟨rfl, rfl, rfl⟩

/-- Every event moves the machine as it moves the phase. -/
theorem step_inPhase {m : ClaudeInferMachine} {p : Phase} (h : m.InPhase p) (e : InferEvent) :
    (m.step e).InPhase (p.step m.core.nativeId m.debounceMs e) := by
  cases e with
  | hook ev nowMs => exact apply_inPhase h ev nowMs
  | tick nowMs =>
    rw [Phase.step_of_not_cancels (by simp [InferEvent.Cancels])]
    simp only [step, respond, tick, debounceElapsed]
    cases p with
    | quiet => simpa [Phase.wait, h.1] using h
    | fired => simpa [Phase.wait, h.1] using h
    | armed since =>
      simp only [Phase.wait, h.1, decide_eq_true_eq]
      split
      · exact ⟨rfl, rfl, rfl⟩
      · exact h
  | corroborate verdict =>
    simp only [step, respond, corroborate]
    cases verdict with
    | resolved =>
      refine inPhase_of_cancels rfl rfl ?_
      dsimp only
      split
      · exact ⟨rfl, rfl, State.noConfusion⟩
      · rename_i resolved
        refine ⟨rfl, rfl, ?_⟩
        change m.core.state ≠ .waiting
        cases p with
        | quiet => exact h.2.2
        | armed since => rw [h.2.2]; decide
        | fired => exact absurd h.2.1 resolved
    | stuck =>
      refine inPhase_of_not_cancels h (by simp [InferEvent.Cancels]) ?_ ⟨rfl, rfl, rfl⟩
      cases p <;> rfl
    | unknown =>
      refine inPhase_of_not_cancels h (by simp [InferEvent.Cancels]) ?_ ⟨rfl, rfl, rfl⟩
      cases p <;> rfl

theorem step_debounceMs (m : ClaudeInferMachine) (e : InferEvent) :
    (m.step e).debounceMs = m.debounceMs := by
  cases e with
  | hook ev nowMs =>
    simp only [step, respond, apply]
    split
    · rfl
    · split
      case h_3 | h_5 | h_6 => split <;> rfl
      all_goals rfl
  | tick nowMs =>
    simp only [step, respond, tick]
    split <;> rfl
  | corroborate verdict =>
    simp only [step, respond, corroborate]
    split
    · split <;> rfl
    all_goals rfl

/-- Over a whole history the machine is in the phase that the history leads to. -/
theorem foldl_inPhase (id : String) (debounceMs : Nat) (events : List InferEvent) :
    (events.foldl step (.withDebounceMs id debounceMs)).InPhase
      (events.foldl (Phase.step id debounceMs) .quiet) := by
  suffices (events.foldl step (.withDebounceMs id debounceMs)).core.nativeId = id ∧
      (events.foldl step (.withDebounceMs id debounceMs)).debounceMs = debounceMs ∧
      (events.foldl step (.withDebounceMs id debounceMs)).InPhase
        (events.foldl (Phase.step id debounceMs) .quiet) from this.2.2
  induction events using List.reverseRecOn with
  | nil => exact ⟨rfl, rfl, rfl, rfl, State.noConfusion⟩
  | append_singleton events e ih =>
    obtain ⟨own, window, phase⟩ := ih
    simp only [List.foldl_append, List.foldl_cons, List.foldl_nil]
    obtain ⟨edge, move, -⟩ := step_moves (events.foldl step (.withDebounceMs id debounceMs)) e
    refine ⟨move.nativeId.trans own, (step_debounceMs _ e).trans window, ?_⟩
    have moved := step_inPhase phase e
    rwa [own, window] at moved

end ClaudeInferMachine

namespace InferEvent

/-- The times of a history never decrease. -/
def Ordered (events : List InferEvent) : Prop := (events.filterMap time).Pairwise (· ≤ ·)

instance (events : List InferEvent) : Decidable (Ordered events) :=
  inferInstanceAs (Decidable (List.Pairwise _ _))

/-- In an ordered history a tick after a call is not earlier than it. -/
theorem Ordered.le_tick {before after : List InferEvent} {ev : ClaudeHookEvent} {a nowMs : Nat}
    (ordered : Ordered (before ++ .hook ev a :: after)) (h : .tick nowMs ∈ after) : a ≤ nowMs := by
  rw [Ordered, List.filterMap_append, List.pairwise_append] at ordered
  have later := ordered.2.1
  have here : InferEvent.time (.hook ev a) = some a := rfl
  rw [List.filterMap_cons_some here, List.pairwise_cons] at later
  exact later.1 nowMs (List.mem_filterMap.mpr ⟨.tick nowMs, h, rfl⟩)

end InferEvent

/-- The machine waits exactly where a late tick came after the last tool call and nothing has
cancelled it; what does not cancel moves nothing; and an armed machine works and shows no stamp. -/
theorem inferred_waiting_law (id : String) (debounceMs : Nat) (events : List InferEvent)
    (ordered : InferEvent.Ordered events) :
    let m := events.foldl ClaudeInferMachine.step (.withDebounceMs id debounceMs)
    (m.core.state = .waiting ↔ ∃ before ev a after, events = before ++ .hook ev a :: after ∧
      ev.sessionId = id ∧ ev.kind = .preToolUse ∧
      (∃ nowMs, .tick nowMs ∈ after ∧ a + debounceMs ≤ nowMs) ∧ ∀ e ∈ after, ¬ e.Cancels id) ∧
    (∀ ev nowMs, ev.kind = .subagentStop ∨ ev.kind = .preCompact ∨
        (∃ name, ev.kind = .other name) ∨ (ev.kind = .sessionStart ∧ m.core.state ≠ .dead) →
      (m.step (.hook ev nowMs)).armedSince = m.armedSince ∧
        (m.step (.hook ev nowMs)).inferredWaiting = m.inferredWaiting ∧
        (m.step (.hook ev nowMs)).core.state = m.core.state) ∧
    ∀ a, m.armedSince = some a →
      m.core.state = .working ∧ ∀ runId iso, (m.toRun runId iso).waitingSince = none := by
  intro m
  have phase := ClaudeInferMachine.foldl_inPhase id debounceMs events
  refine ⟨?_, ?_, ?_⟩
  · have waits : m.core.state = .waiting ↔
        events.foldl (Phase.step id debounceMs) .quiet = .fired := by
      change m.InPhase _ at phase
      cases now : events.foldl (Phase.step id debounceMs) .quiet with
      | quiet =>
        rw [now] at phase
        exact iff_of_false phase.2.2 Phase.noConfusion
      | armed since =>
        rw [now] at phase
        exact iff_of_false (by rw [phase.2.2]; decide) Phase.noConfusion
      | fired =>
        rw [now] at phase
        exact iff_of_true phase.2.2 rfl
    rw [waits, Phase.fired_iff]
    constructor
    · rintro ⟨before, e, a, after, rfl, arms, ⟨nowMs, late, elapsed⟩, kept⟩
      cases e with
      | tick nowMs => cases arms
      | corroborate verdict => cases arms
      | hook ev at' =>
        simp only [InferEvent.arms] at arms
        split at arms
        · rename_i call
          rw [Option.some.injEq] at arms
          subst arms
          have order := ordered.le_tick late
          exact ⟨before, ev, at', after, rfl, call.1, call.2, ⟨nowMs, late, by omega⟩, kept⟩
        · cases arms
    · rintro ⟨before, ev, a, after, rfl, own, call, ⟨nowMs, late, elapsed⟩, kept⟩
      exact ⟨before, .hook ev a, a, after, rfl, by simp [InferEvent.arms, own, call],
        ⟨nowMs, late, by omega⟩, kept⟩
  · intro ev nowMs spares
    simp only [ClaudeInferMachine.step, ClaudeInferMachine.respond, ClaudeInferMachine.apply]
    split
    · exact ⟨rfl, rfl, rfl⟩
    · rcases spares with kind | kind | ⟨name, kind⟩ | ⟨kind, live⟩
      · simp only [kind]
        exact ⟨trivial, trivial, Core.note_state ..⟩
      · simp only [kind]
        exact ⟨trivial, trivial, Core.note_state ..⟩
      · simp only [kind]
        exact ⟨trivial, trivial, Core.note_state ..⟩
      · have awake : (m.core.note ev.cwd ev.toolName).state ≠ .dead := by
          rwa [Core.note_state]
        simp only [kind, if_neg awake]
        exact ⟨trivial, trivial, Core.note_state ..⟩
  · intro a armed
    have working : m.core.state = .working := by
      change m.InPhase _ at phase
      cases now : events.foldl (Phase.step id debounceMs) .quiet with
      | armed since =>
        rw [now] at phase
        exact phase.2.2
      | quiet =>
        rw [now] at phase
        cases phase.1.symm.trans armed
      | fired =>
        rw [now] at phase
        cases phase.1.symm.trans armed
    refine ⟨working, fun runId iso => ?_⟩
    change (if m.core.state = .waiting then some iso else none) = none
    rw [working]
    rfl

/-- A call at 100 ms and a tick right at the end of its window. -/
theorem inferred_waiting_law_at_window :
    ([.hook (.plain "s" .preToolUse) 100, .tick 1600].foldl ClaudeInferMachine.step
      (.withDebounceMs "s" 1500)).core.state = .waiting :=
  (inferred_waiting_law "s" 1500 [.hook (.plain "s" .preToolUse) 100, .tick 1600]
    (by decide)).1.mpr ⟨[], .plain "s" .preToolUse, 100, [.tick 1600], rfl, rfl, rfl,
      ⟨1600, by simp, by decide⟩, by decide⟩

end VsFleet
