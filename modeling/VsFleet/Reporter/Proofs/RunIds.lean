import VsFleet.Reporter.Proofs.ShellSteps

/-!
# One run id a session

The hook adapter and the inferring one count the Claude sessions each for itself. They see a session
for the first time in the same frame, so they mint the same id for it; the id names the session, and
no later step changes it.
-/

namespace VsFleet

namespace AdapterCore

variable {M : Type} {a : AdapterCore M} {r : String}

/-- A run id that was minted tells its session. -/
theorem Serves.runIdOf_injective {agent : String} {ok : String → M → Prop} (h : a.Serves agent ok)
    {id id' : String} (first : a.runIdOf id = some r) (second : a.runIdOf id' = some r) :
    id = id' := by
  obtain ⟨s, found, rfl⟩ := Option.map_eq_some_iff.mp first
  obtain ⟨t, found', same⟩ := Option.map_eq_some_iff.mp second
  obtain ⟨n, minted⟩ := h.minted id s found
  obtain ⟨n', minted'⟩ := h.minted id' t found'
  exact mint_injective (minted.symm.trans (same.symm.trans minted'))

theorem runIdOf_ensure (id : String) (make : M) {id' : String} (known : a.runIdOf id' = some r) :
    (a.ensure id make).2.runIdOf id' = some r := by
  rcases a.ensure_cases id make with ⟨session, -, eq⟩ | ⟨absent, eq⟩
  · rw [eq]
    exact known
  · have other : id' ≠ id := by
      rintro rfl
      simp [runIdOf, absent] at known
    rw [eq, runIdOf, AList.lookup_insert_ne other]
    exact known

/-- A session has a run id once it is ensured. -/
theorem isSome_runIdOf_ensure (id : String) (make : M) :
    ((a.ensure id make).2.runIdOf id).isSome := by
  rcases a.ensure_cases id make with ⟨session, found, eq⟩ | ⟨-, eq⟩
  · rw [eq, runIdOf, found]
    rfl
  · rw [eq, runIdOf, AList.lookup_insert]
    rfl

theorem runIdOf_withExisting [RunMachine M] (iso id : String) (f : M → Transition × M)
    (id' : String) : (a.withExisting iso id f).2.runIdOf id' = a.runIdOf id' :=
  runId_withExisting iso id'

end AdapterCore

namespace Shell

/-- A step of the shell leaves every run id where it is. -/
theorem runIdOf_step {fromStr : String → Option Json} {shell : Shell} (s : Step) {id r : String}
    (known : shell.receiver.claude.core.runIdOf id = some r) :
    (shell.step fromStr s).receiver.claude.core.runIdOf id = some r := by
  cases s with
  | frame iso inferIso line nowMs =>
    by_cases claude : ∃ body ev, parseFrame line = some (.claude, body) ∧
        ClaudeHookEvent.parse fromStr body = .ok ev
    · obtain ⟨body, ev, framed, parsed⟩ := claude
      obtain ⟨⟨hooks, inferring⟩, rfl, rfl, hooks', -⟩ :=
        step_claude shell iso inferIso nowMs framed parsed
      rw [hooks', AdapterCore.runIdOf_withExisting]
      exact AdapterCore.runIdOf_ensure _ _ known
    · by_cases codex : ∃ body ev, parseFrame line = some (.codex, body) ∧
          CodexHookEvent.parse fromStr body = .ok ev
      · obtain ⟨body, ev, framed, parsed⟩ := codex
        obtain ⟨threads, rfl, hooks, -⟩ := step_codex shell iso inferIso nowMs framed parsed
        rwa [hooks]
      · have dropped := step_dropped shell iso inferIso nowMs
          (fun body ev framed parsed => claude ⟨body, ev, framed, parsed⟩)
          (fun body ev framed parsed => codex ⟨body, ev, framed, parsed⟩)
        rwa [dropped.1]
  | tick readToString iter vetoIso iso nowMs => exact known
  | reap elapsed iter iso => exact known

/-- The session of a hook frame that was understood has a run id after it. -/
theorem isSome_runIdOf_claude {fromStr : String → Option Json} {line body : String}
    {ev : ClaudeHookEvent} (shell : Shell) (iso inferIso : String) (nowMs : Nat)
    (framed : parseFrame line = some (.claude, body))
    (parsed : ClaudeHookEvent.parse fromStr body = .ok ev) :
    ((shell.step fromStr (.frame iso inferIso line nowMs)).receiver.claude.core.runIdOf
      ev.sessionId).isSome := by
  obtain ⟨⟨hooks, inferring⟩, rfl, rfl, hooks', -⟩ :=
    step_claude shell iso inferIso nowMs framed parsed
  rw [hooks', AdapterCore.runIdOf_withExisting]
  exact AdapterCore.isSome_runIdOf_ensure _ _

/-- Along every run of frames and ticks the two Claude adapters give each session the same run id,
no two sessions share one, and an id once given stays. -/
theorem run_ids_agree (fromStr : String → Option Json) (config : ReporterConfig)
    (steps more : List Step) :
    let receiver := (steps.foldl (Shell.step fromStr) (new config)).receiver
    let later := ((steps ++ more).foldl (Shell.step fromStr) (new config)).receiver
    (∀ id, receiver.claude.core.runIdOf id = receiver.infer.core.runIdOf id) ∧
    (∀ id id' r, receiver.claude.core.runIdOf id = some r →
      receiver.claude.core.runIdOf id' = some r → id = id') ∧
    ∀ id r, receiver.claude.core.runIdOf id = some r →
      later.claude.core.runIdOf id = some r ∧ later.infer.core.runIdOf id = some r := by
  intro receiver later
  have matched := matched_foldl fromStr config steps
  have matched' := matched_foldl fromStr config (steps ++ more)
  refine ⟨matched.paired, fun id id' r => matched.hooks.runIdOf_injective, fun id r known => ?_⟩
  have kept : later.claude.core.runIdOf id = some r := by
    have keeps : ∀ (shell : Shell) s, shell.receiver.claude.core.runIdOf id = some r →
        (shell.step fromStr s).receiver.claude.core.runIdOf id = some r := by
      intro shell s
      exact runIdOf_step s
    have reached := foldl_invariant
      (fun shell : Shell => shell.receiver.claude.core.runIdOf id = some r) keeps more _ known
    rwa [← List.foldl_append] at reached
  exact ⟨kept, (matched'.paired id).symm.trans kept⟩

/-- What Claude sends at the end of a turn of the session `s`, for worked cases. -/
def stopText (said : String) : String :=
  "\x7b\"hook_event_name\":\"Stop\",\"session_id\":\"s\",\"last_assistant_message\":\"" ++ said ++
    "\"\x7d"

/-- The JSON of that text, and of no other. -/
def readStop (said text : String) : Option Json :=
  if text = stopText said then
    some (.object [("hook_event_name", .string "Stop"), ("session_id", .string "s"),
      ("last_assistant_message", .string said)])
  else none

/-- The frame with that text. -/
def stopFrame (said : String) : Step := .frame "" "" ("claude " ++ stopText said) 0

/-- The first frame of a session gives it its id in both adapters, and a second one leaves it. -/
theorem run_ids_agree_stop :
    let shell := [stopFrame "Done."].foldl (Shell.step (readStop "Done.")) (new (.new "w"))
    let later := ([stopFrame "Done."] ++ [stopFrame "Done."]).foldl
      (Shell.step (readStop "Done.")) (new (.new "w"))
    ∃ r, shell.receiver.claude.core.runIdOf "s" = some r ∧
      shell.receiver.infer.core.runIdOf "s" = some r ∧
      later.receiver.claude.core.runIdOf "s" = some r ∧
      later.receiver.infer.core.runIdOf "s" = some r := by
  intro shell later
  obtain ⟨agree, -, stays⟩ :=
    run_ids_agree (readStop "Done.") (.new "w") [stopFrame "Done."] [stopFrame "Done."]
  have framed : parseFrame ("claude " ++ stopText "Done.") = some (.claude, stopText "Done.") := by
    decide
  have parsed : ClaudeHookEvent.parse (readStop "Done.") (stopText "Done.") =
      .ok { ClaudeHookEvent.plain "s" .stop with lastMessage := some "Done." } := by decide
  obtain ⟨r, known⟩ := Option.isSome_iff_exists.mp
    (isSome_runIdOf_claude (new (.new "w")) "" "" 0 framed parsed)
  exact ⟨r, known, (agree "s").symm.trans known, stays "s" r known⟩

end Shell

end VsFleet
