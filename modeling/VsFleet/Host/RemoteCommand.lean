import VsFleet.Host.ClaudeShim
import VsFleet.Host.PhoneHome
import VsFleet.Host.Supervisor

/-!
# A server behind ssh

The command that an ssh deploy runs on the other machine (`fleet-host/src/spawn.rs`): it prepares
the workspace, starts the reporter and then the editor, with the variables every spawned server has.
-/

namespace VsFleet

/-- `launch_id` (`spawn.rs:831-837`), of a process id and a time. -/
def launchId (pid nanos : Nat) : String :=
  String.ofList (Nat.toDigits 16 pid) ++ "-" ++ String.ofList (Nat.toDigits 16 nanos)

/-- `trim_end_matches(".git")`, on the characters from the back. -/
def trimGit : List Char → List Char
  | 't' :: 'i' :: 'g' :: '.' :: rest => trimGit rest
  | text => text

/-- `resolve_repo` (`spawn.rs:1911-1921`). -/
def resolveRepo (spec : String) : String :=
  let s := trim spec.toList
  if "://".toList <:+: s ∨ "git@".toList <+: s then String.ofList s
  else if "gl:".toList <+: s then
    "https://gitlab.com/" ++ String.ofList (trimGit (s.drop 3).reverse).reverse ++ ".git"
  else
    let r := if "gh:".toList <+: s then s.drop 3 else s
    "https://github.com/" ++ String.ofList (trimGit r.reverse).reverse ++ ".git"

/-- `serve_web_args` (`spawn.rs:1824-1837`). -/
def serveWebArgs (host : String) (port : UInt16) (serverData defaultFolder : String) :
    List String :=
  ["serve-web", "--host", host, "--port", toString port.toNat, "--without-connection-token",
    "--accept-server-license-terms", "--server-data-dir", serverData, "--default-folder",
    defaultFolder]

/-- The variables of the editor on the other machine (`spawn.rs:717-728`). -/
def remoteEnv (id label : String) (rCs rBridge : UInt16) (bridgeToken : String) :
    List (String × String) :=
  fleetEnv ("/tmp/fleet-reporter-" ++ id ++ ".sock") id label
    ("ws://127.0.0.1:" ++ toString rBridge.toNat) none
    ("http://127.0.0.1:" ++ toString rCs.toNat ++ "/") bridgeToken ".fleet"

/-- Its arguments (`spawn.rs:716`). -/
def remoteArgs (id : String) (rCs : UInt16) : List String :=
  serveWebArgs "127.0.0.1" rCs (".fleet/cs-userdata-" ++ id) (".fleet/ws-" ++ id)

/-- What prepares the workspace (`spawn.rs:736-744`). -/
def wsPrep (remoteWs : String) (spawnRepo : Option String) : String :=
  match spawnRepo.filter (fun spec : String => trim spec.toList ≠ []) with
  | some spec => "git clone --depth 1 " ++ shq (resolveRepo spec) ++ " " ++ shq remoteWs ++
      " 2>/dev/null || mkdir -p " ++ shq remoteWs ++ ";"
  | none => "mkdir -p " ++ shq remoteWs ++ ";"

/-- `ssh_remote_command` (`spawn.rs:700-763`). -/
def sshRemoteCommand (id label : String) (rCs rHub rBridge : UInt16)
    (bridgeToken remoteEditor remoteReporter : String) (spawnRepo : Option String) : String :=
  let remoteWs := ".fleet/ws-" ++ id
  let remoteSock := "/tmp/fleet-reporter-" ++ id ++ ".sock"
  let remoteUserdata := ".fleet/cs-userdata-" ++ id
  let envStr := " ".intercalate
    ((remoteEnv id label rCs rBridge bridgeToken).map (fun v => v.1 ++ "=" ++ shq v.2))
  let argsStr := " ".intercalate ((remoteArgs id rCs).map shq)
  wsPrep remoteWs spawnRepo ++ " mkdir -p " ++ shq remoteUserdata ++ " 2>/dev/null; rm -f " ++
    shq remoteSock ++ "; " ++ shq remoteReporter ++ " --serve --ws ws://127.0.0.1:" ++
    toString rHub.toNat ++ " --socket " ++ shq remoteSock ++ " --session-id " ++ id ++
    " >/tmp/fleet-rep-" ++ id ++ ".log 2>&1 & " ++
    "RPID=$!; trap 'kill $RPID 2>/dev/null' EXIT INT TERM; " ++
    "env " ++ envStr ++ " " ++ shq remoteEditor ++ " " ++ argsStr ++ "; kill $RPID 2>/dev/null"

/-- The operands of `env`: the assignments in front, and the command that is run with them. -/
def envOperands : List (List Char) → List (String × String) × List (List Char)
  | [] => ([], [])
  | word :: words =>
    if '=' ∈ word then
      let (vars, command) := envOperands words
      ((String.ofList (word.takeWhile (fun c => c ≠ '=')),
        String.ofList ((word.dropWhile (fun c => c ≠ '=')).drop 1)) :: vars, command)
    else ([], word :: words)

end VsFleet
