import VsFleet.Host.Supervisor

/-!
# What a failed spawn leaves

A call of `spawn_local` that fails leaves the tables as they were. The processes are another
matter: nothing terminates a reporter that is running when a later step fails.
-/

namespace VsFleet

/-- An error of the call leaves nothing behind: every process it launched has ended, and the tables
are as before. -/
def FailsClean (env : SpawnEnv) (o : SpawnOutcomes) (folderOverride : Option String)
    (sup : ServerSupervisor) : Prop :=
  ∀ e call, spawnLocal env o folderOverride ⟨sup, []⟩ = (.error e, call) →
    (∀ child ∈ call.running, o.ended child.role = true) ∧
      call.supervisor.children = sup.children ∧ call.supervisor.servers = sup.servers

namespace SpawnOutcomes

/-- The steps before the launch of the reporter succeed. -/
structure OpensFolder (o : SpawnOutcomes) (env : SpawnEnv) (folderOverride : Option String)
    (id : String) : Prop where
  port : ∃ port, o.freePort = .ok port
  cwd : o.createSpawnCwd = .ok ()
  folder : o.folderExists (o.folder env id folderOverride) = true ∨ o.createFolder = .ok ()

/-- The steps behind it succeed. -/
structure StartsEditor (o : SpawnOutcomes) : Prop where
  tmpDir : o.createTmpDir = .ok ()
  resolved : o.editorResolved = true
  settingsDir : o.createSettingsDir = .ok ()
  settings : o.writeSettings = .ok ()
  extensionsDir : o.createExtensionsDir = .ok ()
  vsix : o.findFleetBridgeVsix.isSome
  extension : ∃ out, o.installExtension = .ok out ∧ out.success = true
  editor : o.spawnEditor = .ok ()

/-- No reporter is running when a step fails: a step before its launch fails, or it is not launched,
or it ends by itself, or the steps behind it succeed. -/
def Contained (o : SpawnOutcomes) (env : SpawnEnv) (folderOverride : Option String)
    (id : String) : Prop :=
  ¬ o.OpensFolder env folderOverride id ∨ o.spawnReporter ≠ .ok () ∨ o.ended .reporter = true ∨
    o.StartsEditor

end SpawnOutcomes

variable {env : SpawnEnv} {o : SpawnOutcomes} {folderOverride : Option String} {call : SpawnCall}

/-- The supervisor with the next number drawn. -/
def ServerSupervisor.drawn (sup : ServerSupervisor) : ServerSupervisor := sup.allocateServerId.2

/-- The id the next spawn draws. -/
def ServerSupervisor.nextId (sup : ServerSupervisor) : String := sup.allocateServerId.1.2

section

open SpawnM

/-- A call draws its id first. -/
theorem openFolder_eq (env : SpawnEnv) (o : SpawnOutcomes) (folderOverride : Option String)
    (sup : ServerSupervisor) (running : List Child) :
    openFolder env o folderOverride ⟨sup, running⟩ = (do
      let port ← step o.freePort
      step o.createSpawnCwd
      unless o.folderExists (o.folder env sup.nextId folderOverride) do
        step o.createFolder
      return (sup.counter, sup.nextId, port, o.folder env sup.nextId folderOverride) :
        SpawnM (Nat × String × Nat × String)) ⟨sup.drawn, running⟩ := rfl

end

/-- Up to the agent-state pipeline nothing is launched. -/
theorem openFolder_cases (env : SpawnEnv) (o : SpawnOutcomes) (folderOverride : Option String)
    (sup : ServerSupervisor) (running : List Child) :
    (o.OpensFolder env folderOverride sup.nextId ∧ ∃ port, o.freePort = .ok port ∧
      openFolder env o folderOverride ⟨sup, running⟩ =
        (.ok (sup.counter, sup.nextId, port, o.folder env sup.nextId folderOverride),
          ⟨sup.drawn, running⟩)) ∨
    (¬ o.OpensFolder env folderOverride sup.nextId ∧ ∃ e,
      openFolder env o folderOverride ⟨sup, running⟩ = (.error e, ⟨sup.drawn, running⟩)) := by
  rw [openFolder_eq]
  cases port : o.freePort with
  | error e => exact .inr ⟨fun h => by simpa [port] using h.port, e, rfl⟩
  | ok p =>
    cases cwd : o.createSpawnCwd with
    | error e => exact .inr ⟨fun h => by simpa [cwd] using h.cwd, e, rfl⟩
    | ok =>
      cases there : o.folderExists (o.folder env sup.nextId folderOverride) with
      | true => exact .inl ⟨⟨⟨p, port⟩, cwd, .inl there⟩, p, rfl, rfl⟩
      | false =>
        cases create : o.createFolder with
        | ok => exact .inl ⟨⟨⟨p, port⟩, cwd, .inr create⟩, p, rfl, rfl⟩
        | error e =>
          exact .inr ⟨fun h => by simpa [there, create] using h.folder, e, rfl⟩

/-- An install that succeeds has found the extension, and its command has succeeded. -/
theorem installFleetBridge_eq_ok {editor : String} :
    o.installFleetBridge editor = .ok () ↔
      o.createExtensionsDir = .ok () ∧ o.findFleetBridgeVsix.isSome ∧
        ∃ out, o.installExtension = .ok out ∧ out.success = true := by
  unfold SpawnOutcomes.installFleetBridge
  cases o.createExtensionsDir with
  | error e => exact iff_of_false (fun h => by cases h) (fun h => by cases h.1)
  | ok =>
    cases o.findFleetBridgeVsix with
    | none => exact iff_of_false (fun h => by cases h) (fun h => by cases h.2.1)
    | some vsix =>
      cases o.installExtension with
      | error e => exact iff_of_false (fun h => by cases h) (fun ⟨_, _, _, h, _⟩ => by cases h)
      | ok out =>
        obtain ⟨success, stdout, stderr⟩ := out
        simp only [Except.ok.injEq, Option.isSome_some, true_and, exists_eq_left']
        cases success with
        | true => exact iff_of_true rfl rfl
        | false => exact iff_of_false (fun h => by cases h) (fun h => by cases h)

/-- From the editor on an error leaves the call as it is; without one the server is in both
tables. -/
theorem startEditor_cases (env : SpawnEnv) (o : SpawnOutcomes) (n : Nat) (id : String) (port : Nat)
    (folder : String) (children : List Child) (call : SpawnCall) :
    (o.StartsEditor ∧ startEditor env o n id port folder children call =
      (.ok (spawnedSession n id port folder),
        ⟨(call.supervisor.track id (children ++ [⟨id, .editor⟩])).pushServer
          (spawnedSession n id port folder), call.running ++ [⟨id, .editor⟩]⟩)) ∨
    (¬ o.StartsEditor ∧ ∃ e,
      startEditor env o n id port folder children call = (.error e, call)) := by
  unfold startEditor SpawnOutcomes.writeSpawnedServerSettings
  cases tmpDir : o.createTmpDir with
  | error e => exact .inr ⟨fun h => by simpa [tmpDir] using h.tmpDir, e, rfl⟩
  | ok =>
    cases resolved : o.editorResolved with
    | false => exact .inr ⟨fun h => by simpa [resolved] using h.resolved, _, rfl⟩
    | true =>
      cases dir : o.createSettingsDir with
      | error e => exact .inr ⟨fun h => by simpa [dir] using h.settingsDir, e, rfl⟩
      | ok =>
        cases settings : o.writeSettings with
        | error e => exact .inr ⟨fun h => by simpa [settings] using h.settings, e, rfl⟩
        | ok =>
          cases bridge : o.installFleetBridge env.editor with
          | error e =>
            refine .inr ⟨fun h => ?_, e, rfl⟩
            rw [installFleetBridge_eq_ok.mpr ⟨h.extensionsDir, h.vsix, h.extension⟩] at bridge
            cases bridge
          | ok =>
            obtain ⟨extensionsDir, vsix, extension⟩ := installFleetBridge_eq_ok.mp bridge
            cases editor : o.spawnEditor with
            | error e => exact .inr ⟨fun h => by simpa [editor] using h.editor, e, rfl⟩
            | ok =>
              exact .inl ⟨⟨tmpDir, resolved, dir, settings, extensionsDir, vsix, extension, editor⟩,
                rfl⟩

/-! ## The whole call -/

/-- The call with the reporter in it, if one was launched. -/
def SpawnOutcomes.reporters (o : SpawnOutcomes) (id : String) : List Child :=
  match o.spawnReporter with
  | .ok () => [⟨id, .reporter⟩]
  | .error _ => []

theorem SpawnM.bind_of_ok {α β : Type} {m : SpawnM α} {f : α → SpawnM β} {a : α}
    {call call' : SpawnCall} (ran : m call = (.ok a, call')) : (m >>= f) call = f a call' := by
  simp only [bind, ExceptT.bind, ExceptT.mk, StateT.bind, ran]
  rfl

theorem SpawnM.bind_of_error {α β : Type} {m : SpawnM α} {f : α → SpawnM β} {e : IoError}
    {call call' : SpawnCall} (ran : m call = (.error e, call')) :
    (m >>= f) call = (.error e, call') := by
  simp only [bind, ExceptT.bind, ExceptT.mk, StateT.bind, ran]
  rfl

/-- A call that gets as far as the editor has its reporter among its processes. -/
theorem spawnLocal_eq {n port : Nat} {id folder : String} {call' : SpawnCall}
    (opened : openFolder env o folderOverride call = (.ok (n, id, port, folder), call')) :
    spawnLocal env o folderOverride call =
      startEditor env o n id port folder (o.reporters id)
        { call' with running := call'.running ++ o.reporters id } := by
  unfold spawnLocal
  rw [SpawnM.bind_of_ok opened]
  unfold SpawnOutcomes.reporters
  cases o.spawnReporter with
  | ok => rfl
  | error e =>
    rw [List.append_nil]
    rfl

theorem spawnLocal_error {e : IoError} {call' : SpawnCall}
    (opened : openFolder env o folderOverride call = (.error e, call')) :
    spawnLocal env o folderOverride call = (.error e, call') :=
  SpawnM.bind_of_error opened

theorem mem_reporters {id : String} {child : Child} :
    child ∈ o.reporters id ↔ o.spawnReporter = .ok () ∧ child = ⟨id, .reporter⟩ := by
  unfold SpawnOutcomes.reporters
  cases o.spawnReporter <;> simp

/-- What a call leaves: its id is drawn, the reporter is running if a step behind its launch failed,
and a server that was spawned is in both tables. -/
theorem spawnLocal_cases (env : SpawnEnv) (o : SpawnOutcomes) (folderOverride : Option String)
    (sup : ServerSupervisor) :
    (∃ e, ¬ o.OpensFolder env folderOverride sup.nextId ∧
      spawnLocal env o folderOverride ⟨sup, []⟩ = (.error e, ⟨sup.drawn, []⟩)) ∨
    (∃ e, o.OpensFolder env folderOverride sup.nextId ∧ ¬ o.StartsEditor ∧
      spawnLocal env o folderOverride ⟨sup, []⟩ = (.error e, ⟨sup.drawn, o.reporters sup.nextId⟩)) ∨
    (∃ port, o.freePort = .ok port ∧ o.StartsEditor ∧ spawnLocal env o folderOverride ⟨sup, []⟩ =
      (.ok (spawnedSession sup.counter sup.nextId port (o.folder env sup.nextId folderOverride)),
        ⟨(sup.drawn.track sup.nextId (o.reporters sup.nextId ++ [⟨sup.nextId, .editor⟩])).pushServer
          (spawnedSession sup.counter sup.nextId port (o.folder env sup.nextId folderOverride)),
          o.reporters sup.nextId ++ [⟨sup.nextId, .editor⟩]⟩)) := by
  rcases openFolder_cases env o folderOverride sup [] with ⟨opens, port, free, opened⟩ |
    ⟨fails, e, opened⟩
  · rw [spawnLocal_eq opened]
    rcases startEditor_cases env o sup.counter sup.nextId port
      (o.folder env sup.nextId folderOverride) (o.reporters sup.nextId)
      ⟨sup.drawn, [] ++ o.reporters sup.nextId⟩ with ⟨starts, started⟩ | ⟨fails, e, started⟩
    · exact .inr (.inr ⟨port, free, starts, started⟩)
    · exact .inr (.inl ⟨e, opens, fails, started⟩)
  · exact .inl ⟨e, fails, spawnLocal_error opened⟩

/-- A failed call leaves the tables as they were. -/
theorem spawnLocal_error_tables {sup : ServerSupervisor} {e : IoError} {call : SpawnCall}
    (failed : spawnLocal env o folderOverride ⟨sup, []⟩ = (.error e, call)) :
    call.supervisor.children = sup.children ∧ call.supervisor.servers = sup.servers := by
  rcases spawnLocal_cases env o folderOverride sup with ⟨_, _, eq⟩ | ⟨_, _, _, eq⟩ |
    ⟨_, _, _, eq⟩
  all_goals
    rw [failed] at eq
    cases eq
  · exact ⟨rfl, rfl⟩
  · exact ⟨rfl, rfl⟩

/-- A failed call leaves nothing behind exactly where no step fails over a running reporter. -/
theorem spawnLocal_failsClean_iff (env : SpawnEnv) (o : SpawnOutcomes)
    (folderOverride : Option String) (sup : ServerSupervisor) :
    FailsClean env o folderOverride sup ↔ o.Contained env folderOverride sup.nextId := by
  constructor
  · intro clean
    by_contra leaks
    obtain ⟨opens, launched, running, fails⟩ :
        o.OpensFolder env folderOverride sup.nextId ∧ o.spawnReporter = .ok () ∧
          o.ended .reporter ≠ true ∧ ¬ o.StartsEditor := by
      simpa [SpawnOutcomes.Contained] using leaks
    rcases spawnLocal_cases env o folderOverride sup with ⟨_, not, _⟩ | ⟨e, _, _, eq⟩ |
      ⟨_, _, starts, -⟩
    · exact not opens
    · exact running ((clean e _ eq).1 _ (mem_reporters.mpr ⟨launched, rfl⟩))
    · exact fails starts
  · intro contained e call failed
    refine ⟨fun child mem => ?_, spawnLocal_error_tables failed⟩
    rcases spawnLocal_cases env o folderOverride sup with ⟨_, _, eq⟩ | ⟨_, opens, fails, eq⟩ |
      ⟨_, _, _, eq⟩
    all_goals
      rw [failed] at eq
      cases eq
    · cases mem
    · obtain ⟨launched, rfl⟩ := mem_reporters.mp mem
      rcases contained with not | not | ended | starts
      · exact absurd opens not
      · exact absurd launched not
      · exact ended
      · exact absurd starts fails

/-- Every step succeeds but the search for the editor, which is not installed. -/
def editorMissing : SpawnOutcomes where
  freePort := .ok 49152
  createSpawnCwd := .ok ()
  gitClone := false
  folderExists := fun _ => true
  createFolder := .ok ()
  spawnReporter := .ok ()
  createTmpDir := .ok ()
  editorResolved := false
  createSettingsDir := .ok ()
  writeSettings := .ok ()
  createExtensionsDir := .ok ()
  findFleetBridgeVsix := some "/opt/fleet/fleet-bridge.vsix"
  installExtension := .ok ⟨true, "", ""⟩
  spawnEditor := .ok ()
  ended := fun _ => false

/-- Without an editor the call fails and its reporter stays. -/
theorem editorMissing_leaves_reporter :
    ¬ FailsClean ⟨"/home/u/.fleet/mux", none, "/home/u", "code"⟩ editorMissing none (.new "1f-2a") :=
  fun clean => absurd ((clean _ _ rfl).1 ⟨"server-1f-2a-1", .reporter⟩ (List.mem_singleton.mpr rfl))
    (by decide)

end VsFleet
