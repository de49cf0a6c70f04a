import VsFleet.Reporter.Panics

/-!
# Where the receiver panics

An adapter finds the session that it has just put into its map, so only the slice of a line for the
log is left: it panics where the cut is inside a character.
-/

namespace VsFleet

/-! ## Slices -/

@[simp] theorem byteLen_nil : byteLen [] = 0 := rfl

@[simp] theorem byteLen_cons (c : Char) (text : List Char) :
    byteLen (c :: text) = c.utf8Size + byteLen text := rfl

theorem byteLen_eq_zero {text : List Char} (none : byteLen text = 0) : text = [] := by
  cases text with
  | nil => rfl
  | cons c text =>
    have size := c.utf8Size_pos
    rw [byteLen_cons] at none
    omega

/-- A slice is the beginning of its length in bytes. -/
theorem sliceTo_eq_some_iff (text : List Char) : ∀ {max : Nat} {cut : List Char},
    sliceTo text max = some cut ↔ cut <+: text ∧ byteLen cut = max := by
  induction text with
  | nil =>
    intro max cut
    rw [List.prefix_nil]
    cases max with
    | zero =>
      rw [sliceTo, Option.some.injEq, eq_comm]
      exact ⟨fun none => ⟨none, none ▸ rfl⟩, fun h => h.1⟩
    | succ max => simp +contextual [sliceTo]
  | cons c text ih =>
    intro max cut
    cases max with
    | zero =>
      rw [sliceTo, Option.some.injEq]
      constructor
      · rintro rfl
        exact ⟨List.nil_prefix, rfl⟩
      · rintro ⟨-, none⟩
        exact (byteLen_eq_zero none).symm
    | succ max =>
      rw [sliceTo]
      cases cut with
      | nil => split <;> simp
      | cons d cut =>
        rw [List.cons_prefix_cons, byteLen_cons]
        split
        · rename_i fits
          rw [Option.map_eq_some_iff]
          constructor
          · rintro ⟨rest, sliced, same⟩
            obtain ⟨rfl, rfl⟩ := List.cons.inj same
            obtain ⟨front, length⟩ := ih.mp sliced
            exact ⟨⟨rfl, front⟩, by omega⟩
          · rintro ⟨⟨rfl, front⟩, length⟩
            exact ⟨cut, ih.mpr ⟨front, by omega⟩, rfl⟩
        · rename_i wide
          simp only [reduceCtorEq, false_iff, not_and, and_imp]
          rintro rfl - length
          omega

/-- The log line of a text would be cut inside a character. -/
def CutInside (s : String) : Prop :=
  120 < byteLen (trim s.toList) ∧ ∀ front, front <+: trim s.toList → byteLen front ≠ 120

theorem truncate_isSome_iff (s : String) : (truncate s).isSome = true ↔ ¬ CutInside s := by
  rw [truncate]
  split
  · rename_i short
    exact iff_of_true rfl (fun inside => absurd inside.1 (Nat.not_lt.mpr short))
  · rename_i long
    rw [Option.isSome_map, Option.isSome_iff_exists, CutInside, not_and]
    constructor
    · rintro ⟨front, sliced⟩ - inside
      obtain ⟨begins, length⟩ := (sliceTo_eq_some_iff _).mp sliced
      exact inside front begins length
    · intro boundary
      obtain ⟨front, ends⟩ := not_forall.mp (boundary (Nat.lt_of_not_le long))
      obtain ⟨begins, length⟩ := Classical.not_imp.mp ends
      exact ⟨front, (sliceTo_eq_some_iff _).mpr ⟨begins, not_not.mp length⟩⟩

/-! ## The adapters -/

/-- The session is there when an adapter looks it up. -/
theorem AdapterCore.tryApplyAndCommands_eq {M : Type} [RunMachine M] (core : AdapterCore M)
    (iso id : String) (make : M) (apply : M → Transition × M) :
    core.tryApplyAndCommands iso id make apply =
      some (core.applyAndCommands iso id make apply) := by
  have inserted : (core.ensure id make).2.sessions.lookup id = some (core.ensure id make).1 := by
    unfold ensure
    split
    · assumption
    · exact AList.lookup_insert _
  simp only [tryApplyAndCommands, inserted, Option.bind_eq_bind, Option.bind_some, tryCommandsFor,
    AList.lookup_insert, Option.map_some, applyAndCommands, commandsFor]
  split
  · rfl
  · split <;> rfl

theorem ClaudeAdapter.tryIngest_eq (adapter : ClaudeAdapter) (iso : String)
    (ev : ClaudeHookEvent) : adapter.tryIngest iso ev = some (adapter.ingest iso ev) := by
  rw [tryIngest, AdapterCore.tryApplyAndCommands_eq]
  rfl

theorem ClaudeInferAdapter.tryIngest_eq (adapter : ClaudeInferAdapter) (iso : String)
    (ev : ClaudeHookEvent) (nowMs : Nat) :
    adapter.tryIngest iso ev nowMs = some (adapter.ingest iso ev nowMs) := by
  rw [tryIngest, AdapterCore.tryApplyAndCommands_eq]
  rfl

theorem CodexAdapter.tryIngest_eq (adapter : CodexAdapter) (iso : String) (ev : CodexHookEvent) :
    adapter.tryIngest iso ev = some (adapter.ingest iso ev) := by
  rw [tryIngest, AdapterCore.tryApplyAndCommands_eq]
  rfl

/-! ## The receiver -/

namespace Receiver

theorem dropLogged_cases (receiver : Receiver) (debug : Bool) (frame : String) :
    (receiver.dropLogged debug frame = some receiver.dropUnparseable ∧
      ¬ (debug = true ∧ CutInside frame)) ∨
    (receiver.dropLogged debug frame = none ∧ debug = true ∧ CutInside frame) := by
  cases debug with
  | false => exact Or.inl ⟨rfl, fun logs => Bool.false_ne_true logs.1⟩
  | true =>
    have cuts := truncate_isSome_iff frame
    simp only [dropLogged, if_true]
    cases cut : truncate frame with
    | none =>
      rw [cut] at cuts
      refine Or.inr ⟨rfl, trivial, not_not.mp (fun outside => ?_)⟩
      exact Bool.false_ne_true (cuts.mpr outside)
    | some text =>
      rw [cut] at cuts
      exact Or.inl ⟨rfl, fun logs => cuts.mp rfl logs.2⟩

end Receiver

/-- An agent's parser takes a body. -/
def Agent.accepts (agent : Agent) (fromStr : String → Option Json) (body : String) : Bool :=
  match agent with
  | .claude => (ClaudeHookEvent.parse fromStr body).isOk
  | .codex => (CodexHookEvent.parse fromStr body).isOk

/-- A line that an agent's parser drops, of which the log line is cut inside a character. -/
def DropCutInside (fromStr : String → Option Json) (line : String) : Prop :=
  ∃ agent body, parseFrame line = some (agent, body) ∧ agent.accepts fromStr body = false ∧
    CutInside body

/-- Only the empty line is no frame, and it is short. -/
theorem not_cutInside_of_parseFrame {line : String} (empty : parseFrame line = none) :
    ¬ CutInside line := by
  have none : trim line.toList = [] := by
    unfold parseFrame at empty
    dsimp only at empty
    split at empty
    · exact List.isEmpty_iff.mp ‹_›
    · split at empty
      · split at empty <;> cases empty
      · cases empty
  rintro ⟨long, -⟩
  rw [none] at long
  exact absurd long (by decide)

namespace Receiver

variable (receiver : Receiver) (debug : Bool) (fromStr : String → Option Json)
  (iso inferIso : String) (nowMs : Nat)

theorem dispatch_of_refused {agent : Agent} {body : String}
    (refused : agent.accepts fromStr body = false) :
    receiver.dispatch fromStr iso inferIso agent body nowMs = receiver.dropUnparseable := by
  cases agent with
  | claude =>
    rw [dispatch]
    cases parsed : ClaudeHookEvent.parse fromStr body with
    | ok ev => simp [Agent.accepts, parsed, Except.isOk, Except.toBool] at refused
    | error e => rfl
  | codex =>
    rw [dispatch]
    cases parsed : CodexHookEvent.parse fromStr body with
    | ok ev => simp [Agent.accepts, parsed, Except.isOk, Except.toBool] at refused
    | error e => rfl

/-- A body is dispatched, or dropped with a log line. -/
theorem tryDispatch_eq (agent : Agent) (body : String) :
    receiver.tryDispatch debug fromStr iso inferIso agent body nowMs =
      if agent.accepts fromStr body then
        some (receiver.dispatch fromStr iso inferIso agent body nowMs)
      else receiver.dropLogged debug body := by
  cases agent with
  | claude =>
    rw [tryDispatch, dispatch, Agent.accepts]
    cases parsed : ClaudeHookEvent.parse fromStr body with
    | ok ev =>
      dsimp only
      rw [receiver.claude.tryIngest_eq, receiver.infer.tryIngest_eq]
      rfl
    | error e => rfl
  | codex =>
    rw [tryDispatch, dispatch, Agent.accepts]
    cases parsed : CodexHookEvent.parse fromStr body with
    | ok ev =>
      dsimp only
      rw [receiver.codex.tryIngest_eq]
      rfl
    | error e => rfl

theorem tryDispatch_cases (agent : Agent) (body : String) :
    (receiver.tryDispatch debug fromStr iso inferIso agent body nowMs =
        some (receiver.dispatch fromStr iso inferIso agent body nowMs) ∧
      ¬ (debug = true ∧ agent.accepts fromStr body = false ∧ CutInside body)) ∨
    (receiver.tryDispatch debug fromStr iso inferIso agent body nowMs = none ∧
      debug = true ∧ agent.accepts fromStr body = false ∧ CutInside body) := by
  rw [tryDispatch_eq]
  cases accepted : agent.accepts fromStr body with
  | true => exact Or.inl ⟨rfl, fun h => Bool.false_ne_true h.2.1.symm⟩
  | false =>
    rw [receiver.dispatch_of_refused fromStr iso inferIso nowMs accepted,
      if_neg Bool.false_ne_true]
    rcases receiver.dropLogged_cases debug body with ⟨ok, outside⟩ | ⟨panic, logs, inside⟩
    · exact Or.inl ⟨ok, fun h => outside ⟨h.1, h.2.2⟩⟩
    · exact Or.inr ⟨panic, logs, rfl, inside⟩

/-- A line panics just where the log takes what is dropped, the parser of its agent drops it, and
the log line would be cut inside a character; any other is taken as it should be. -/
theorem process_returns_iff (line : String) :
    (receiver.tryProcessAt debug fromStr iso inferIso line nowMs =
        some (receiver.processAt fromStr iso inferIso line nowMs) ↔
      ¬ (debug = true ∧ DropCutInside fromStr line)) ∧
    (receiver.tryProcessAt debug fromStr iso inferIso line nowMs = none ↔
      debug = true ∧ DropCutInside fromStr line) := by
  have decided : (receiver.tryProcessAt debug fromStr iso inferIso line nowMs =
        some (receiver.processAt fromStr iso inferIso line nowMs) ∧
      ¬ (debug = true ∧ DropCutInside fromStr line)) ∨
      (receiver.tryProcessAt debug fromStr iso inferIso line nowMs = none ∧
        debug = true ∧ DropCutInside fromStr line) := by
    unfold tryProcessAt processAt DropCutInside
    dsimp only
    cases framed : parseFrame line with
    | none =>
      have short := not_cutInside_of_parseFrame framed
      rcases Receiver.dropLogged_cases { receiver with frames := receiver.frames + 1 } debug line
        with ⟨ok, -⟩ | ⟨-, -, inside⟩
      · refine Or.inl ⟨ok, ?_⟩
        rintro ⟨-, agent, body, none, -⟩
        cases none
      · exact absurd inside short
    | some frame =>
      obtain ⟨agent, body⟩ := frame
      rcases Receiver.tryDispatch_cases { receiver with frames := receiver.frames + 1 } debug
        fromStr iso inferIso nowMs agent body with ⟨ok, outside⟩ | ⟨panic, logs, inside⟩
      · refine Or.inl ⟨ok, ?_⟩
        rintro ⟨logs, _, _, same, inside⟩
        cases same
        exact outside ⟨logs, inside⟩
      · exact Or.inr ⟨panic, logs, agent, body, rfl, inside⟩
  rcases decided with ⟨ok, outside⟩ | ⟨panic, inside⟩
  · rw [ok]
    exact ⟨iff_of_true rfl outside, iff_of_false (Option.some_ne_none _) outside⟩
  · rw [panic]
    exact ⟨iff_of_false (Option.some_ne_none _).symm (fun outside => outside inside),
      iff_of_true rfl inside⟩

end Receiver

/-- A line of 121 bytes with a character of two bytes at its end. -/
def accentedLine : String := String.ofList ('x' :: List.replicate 60 'é')

/-- It is no JSON, so it is dropped, and logging the drop panics. -/
theorem accented_panics : ¬ ∀ (receiver : Receiver) (debug : Bool)
    (fromStr : String → Option Json) (iso inferIso line : String) (nowMs : Nat),
    (receiver.tryProcessAt debug fromStr iso inferIso line nowMs).isSome = true := by
  intro returns
  have fine := returns .new true (fun _ => none) "" "" accentedLine 0
  have text : accentedLine.toList = 'x' :: List.replicate 60 'é' := String.toList_ofList
  have framed : parseFrame accentedLine = some (.claude, accentedLine) := by
    rw [parseFrame, text]
    rfl
  have cut : truncate accentedLine = none := by
    rw [truncate, text]
    rfl
  rw [Receiver.tryProcessAt, framed] at fine
  simp [Receiver.tryDispatch, ClaudeHookEvent.parse, Receiver.dropLogged, cut] at fine

end VsFleet
