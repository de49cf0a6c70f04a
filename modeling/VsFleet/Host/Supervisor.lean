import VsFleet.Host.Bridge
import VsFleet.Reporter.Payload

/-!
# The server supervisor

The servers Fleet spawns on this machine and closes (`fleet-host/src/spawn.rs`). `spawn_local`
launches a reporter and an editor for each; the supervisor has the handles of the processes in one
table and the rows of the rail in another, each behind a lock of its own. A command that is waited
for has ended before the next step, a dropped handle leaves its process running, and no lock is
poisoned. The command lines, the environments and the contents of the files written are left out.
-/

namespace VsFleet

/-- `std::io::Error`: one of the system, or a message of Fleet under a kind. -/
inductive IoError where
  | os (code : Int)
  | notFound (message : String)
  | other (message : String)
  deriving DecidableEq, Repr

/-- The two processes of a local server. -/
inductive ChildRole where
  | reporter
  | editor
  deriving DecidableEq, Repr

/-- `Child`: a process launched for a server. -/
structure Child where
  server : String
  role : ChildRole
  deriving DecidableEq, Repr

/-- `ServerSupervisor` (`spawn.rs:65-81`). The two addresses and the token only go into the
environments of the processes. -/
structure ServerSupervisor where
  children : HashMap String (List Child)
  containers : HashMap String String
  servers : List MuxSession
  counter : Nat
  launchId : String

namespace ServerSupervisor

/-- `new_with_launch_id` (`spawn.rs:107-126`). -/
def new (launchId : String) : ServerSupervisor := ⟨∅, ∅, [], 1, launchId⟩

/-- The id of the server of a number. -/
def serverId (launchId : String) (n : Nat) : String := "server-" ++ launchId ++ "-" ++ toString n

/-- `allocate_server_id` (`spawn.rs:557-560`). -/
def allocateServerId (sup : ServerSupervisor) : (Nat × String) × ServerSupervisor :=
  ((sup.counter, serverId sup.launchId sup.counter), { sup with counter := sup.counter + 1 })

/-- The insert into the table of the processes (`spawn.rs:353`). -/
def track (sup : ServerSupervisor) (id : String) (group : List Child) : ServerSupervisor :=
  { sup with children := sup.children.insert id group }

/-- The push onto the list of the servers (`spawn.rs:354`). -/
def pushServer (sup : ServerSupervisor) (server : MuxSession) : ServerSupervisor :=
  { sup with servers := sup.servers ++ [server] }

end ServerSupervisor

/-! ## Spawning -/

/-- `server_label` (`spawn.rs:839-841`). -/
def serverLabel (n : Nat) : String := "server-" ++ toString n

/-- `EDITOR_MISSING_MESSAGE` (`spawn.rs:1138`). -/
def editorMissingMessage : String :=
  "VS Code not found — local sessions need a VS Code install with the `code` CLI " ++
    "(remote sessions are unaffected)"

/-- `Path::join` with a plain name. -/
def joinPath (base name : String) : String :=
  if base.isEmpty || base.endsWith "/" then base ++ name else base ++ "/" ++ name

/-- A byte that `query_escape` leaves. -/
def queryPlain (byte : Nat) : Bool :=
  (65 ≤ byte && byte ≤ 90) || (97 ≤ byte && byte ≤ 122) || (48 ≤ byte && byte ≤ 57) ||
    byte == 45 || byte == 95 || byte == 46 || byte == 126 || byte == 47

/-- `query_escape` (`spawn.rs:1989-2000`). -/
def queryEscape (value : String) : String :=
  String.ofList ((value.toList.flatMap String.utf8EncodeChar).flatMap (fun b =>
    let byte := b.toNat
    if queryPlain byte then [Char.ofNat byte]
    else ['%', (Nat.digitChar (byte / 16)).toUpper, (Nat.digitChar (byte % 16)).toUpper]))

/-- The row of a server that was spawned (`spawn.rs:346-352`). -/
def spawnedSession (n : Nat) (id : String) (port : Nat) (folder : String) : MuxSession where
  id
  label := serverLabel n
  url := "http://127.0.0.1:" ++ toString port ++ "/?folder=" ++ queryEscape folder
  owned := true
  renamed := false

/-- What a spawn reads of the environment: the base directory, `FLEET_SPAWN_REPO`, the default
folder and the editor found. -/
structure SpawnEnv where
  base : String
  spawnRepo : Option String
  defaultFolder : String
  editor : String

/-- `Output` of a command that was waited for. -/
structure CommandOutput where
  success : Bool
  stdout : String
  stderr : String

/-- What each step of a call that may fail comes to, and which of its processes end by themselves
before the call returns. -/
structure SpawnOutcomes where
  freePort : Except IoError Nat
  createSpawnCwd : Except IoError Unit
  gitClone : Bool
  folderExists : String → Bool
  createFolder : Except IoError Unit
  spawnReporter : Except IoError Unit
  createTmpDir : Except IoError Unit
  editorResolved : Bool
  createSettingsDir : Except IoError Unit
  writeSettings : Except IoError Unit
  createExtensionsDir : Except IoError Unit
  findFleetBridgeVsix : Option String
  installExtension : Except IoError CommandOutput
  spawnEditor : Except IoError Unit
  ended : ChildRole → Bool

namespace SpawnOutcomes

/-- The choice of the folder (`spawn.rs:245-266`). -/
def folder (o : SpawnOutcomes) (env : SpawnEnv) (id : String) : Option String → String
  | some folder => folder
  | none =>
    match env.spawnRepo with
    | some spec =>
      if (trim spec.toList).isEmpty then env.defaultFolder
      else if o.gitClone then joinPath env.base ("ws-" ++ id)
      else env.defaultFolder
    | none => env.defaultFolder

/-- `write_spawned_server_settings` (`spawn.rs:1543-1576`). -/
def writeSpawnedServerSettings (o : SpawnOutcomes) : Except IoError Unit := do
  o.createSettingsDir
  o.writeSettings

/-- `install_fleet_bridge` (`spawn.rs:1484-1522`). -/
def installFleetBridge (o : SpawnOutcomes) (editor : String) : Except IoError Unit := do
  o.createExtensionsDir
  let _vsix ← match o.findFleetBridgeVsix with
    | some vsix => pure vsix
    | none => throw (.notFound
        "fleet-bridge VSIX not found (set FLEET_BRIDGE_VSIX or bundle fleet-bridge.vsix)")
  let out ← o.installExtension
  if out.success then return ()
  let stderr := trim out.stderr.toList
  let detail := if stderr.isEmpty then trim out.stdout.toList else stderr
  throw (.other ("failed to install fleet-bridge extension with `" ++ editor ++ "`: " ++
    String.ofList detail))

end SpawnOutcomes

/-- A call of `spawn_local`: the supervisor, and the processes the call has launched and that it
has not terminated. -/
structure SpawnCall where
  supervisor : ServerSupervisor
  running : List Child

/-- A computation of the call. -/
abbrev SpawnM := ExceptT IoError (StateM SpawnCall)

namespace SpawnM

/-- The `?` on a step that leaves the call as it is. -/
def step {α : Type} (outcome : Except IoError α) : SpawnM α := ExceptT.mk (pure outcome)

/-- A turn of the supervisor. -/
def turn {α : Type} (f : ServerSupervisor → α × ServerSupervisor) : SpawnM α :=
  modifyGet (fun call => ((f call.supervisor).1, { call with supervisor := (f call.supervisor).2 }))

/-- `spawn_fleet_child` (`spawn.rs:843-849`). -/
def spawnFleetChild (child : Child) (outcome : Except IoError Unit) : SpawnM Child := do
  step outcome
  modify (fun call => { call with running := call.running ++ [child] })
  return child

end SpawnM

section

open SpawnM

/-- `spawn_local` up to the agent-state pipeline (`spawn.rs:237-270`): the number and the id of the
server, its port and its folder. -/
def openFolder (env : SpawnEnv) (o : SpawnOutcomes) (folderOverride : Option String) :
    SpawnM (Nat × String × Nat × String) := do
  let (n, id) ← turn ServerSupervisor.allocateServerId
  let port ← step o.freePort
  step o.createSpawnCwd
  let folder := o.folder env id folderOverride
  unless o.folderExists folder do
    step o.createFolder
  return (n, id, port, folder)

/-- `spawn_local` from the editor on (`spawn.rs:289-355`). -/
def startEditor (env : SpawnEnv) (o : SpawnOutcomes) (n : Nat) (id : String) (port : Nat)
    (folder : String) (children : List Child) : SpawnM MuxSession := do
  step o.createTmpDir
  unless o.editorResolved do
    throw (.notFound editorMissingMessage)
  step o.writeSpawnedServerSettings
  step (o.installFleetBridge env.editor)
  let child ← spawnFleetChild ⟨id, .editor⟩ o.spawnEditor
  let server := spawnedSession n id port folder
  turn (fun sup => ((), sup.track id (children ++ [child])))
  turn (fun sup => ((), sup.pushServer server))
  return server

/-- `spawn_local` (`spawn.rs:232-356`). The `claude` shim, whose errors are only warned of, goes
into the environment of the editor. -/
def spawnLocal (env : SpawnEnv) (o : SpawnOutcomes) (folderOverride : Option String) :
    SpawnM MuxSession := do
  let (n, id, port, folder) ← openFolder env o folderOverride
  -- a reporter that does not start is only warned of
  let children ← tryCatch
    (do return [← spawnFleetChild ⟨id, .reporter⟩ o.spawnReporter]) (fun _ => return [])
  startEditor env o n id port folder children

end

end VsFleet
