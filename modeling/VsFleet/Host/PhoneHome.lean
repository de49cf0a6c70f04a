import VsFleet.FleetBridge.Extension
import VsFleet.Host.Connections
import VsFleet.Reporter.Payload

/-!
# Phoning home

How a server gets into the registry (`fleet-host/src/bridge.rs`): the token that Fleet keeps in a
file over its restarts, the environment that carries it to a server (`fleet-host/src/spawn.rs`), the
hello of the extension there, and the door: a connection that has sent no accepted hello reaches
nothing behind it.
-/

namespace VsFleet

/-! ## The token -/

/-- `char::is_ascii_hexdigit`. -/
def isAsciiHexdigit (c : Char) : Bool :=
  ('0' ≤ c && c ≤ '9') || ('A' ≤ c && c ≤ 'F') || ('a' ≤ c && c ≤ 'f')

/-- `is_launch_token` (`bridge.rs:312-314`); `len` counts bytes. -/
def isLaunchToken (token : String) : Bool :=
  token.utf8ByteSize = 32 && token.toList.all isAsciiHexdigit

/-- A digit of `{b:02x}`. -/
def lowerHexDigit (n : Nat) : Char := if n < 10 then Char.ofNat (48 + n) else Char.ofNat (87 + n)

/-- `encode_token` (`bridge.rs:357-364`). -/
def encodeToken (bytes : List UInt8) : String :=
  String.ofList (bytes.flatMap (fun b =>
    [lowerHexDigit (b.toNat / 16), lowerHexDigit (b.toNat % 16)]))

/-- `mix_fallback_entropy` (`bridge.rs:344-354`), with the text of pid, time and thread. -/
def mixFallbackEntropy (bytes : Vector UInt8 16) (fallback : List UInt8) : Vector UInt8 16 :=
  fallback.zipIdx.foldl (fun bytes (b, idx) =>
    let i := Fin.ofNat 16 idx
    bytes.set i (bytes.get i ^^^ b) i.isLt) bytes

/-- `token_from_entropy` (`bridge.rs:326-331`). -/
def tokenFromEntropy (bytes : Vector UInt8 16) (fromUrandom : Bool) (fallback : List UInt8) :
    String :=
  encodeToken (if fromUrandom then bytes else mixFallbackEntropy bytes fallback).toList

/-- One start of Fleet: whether the token file can be read as text, where a fresh token would come
from, and what a write that fails leaves of the file (`none` where it succeeds). -/
structure Boot where
  readable : Bool
  entropy : Vector UInt8 16
  fromUrandom : Bool
  fallback : List UInt8
  failedWrite : Option (Option String)

/-- `launch_token` (`bridge.rs:317-321`). -/
def Boot.launchToken (boot : Boot) : String :=
  tokenFromEntropy boot.entropy boot.fromUrandom boot.fallback

/-- The token of a file that can be read (`bridge.rs:272-278`). -/
def tokenOfFile (raw : String) : Option String :=
  let token := String.ofList (trim raw.toList)
  if isLaunchToken token then some token else none

/-- `launch_token_from_path` (`bridge.rs:271-290`), with the file after it; `write_launch_token`
(`bridge.rs:293-310`) puts a line feed behind the token. -/
def launchTokenFromPath (file : Option String) (boot : Boot) : String × Option String :=
  match (if boot.readable then file else none).bind tokenOfFile with
  | some token => (token, file)
  | none =>
    let token := boot.launchToken
    (token, match boot.failedWrite with
      | none => some (token ++ "\n")
      | some left => left)

/-! ## The environment -/

/-- `fleet_env` (`spawn.rs:1871-1896`). -/
def fleetEnv (reporterSocket id label bridgeUrl : String) (bridgeSocket : Option String)
    (serverUrl bridgeToken bridgeLogDir : String) : List (String × String) :=
  [("FLEET_REPORTER_SOCKET", reporterSocket), ("FLEET_SESSION_ID", id),
    ("FLEET_BRIDGE_URL", bridgeUrl), ("FLEET_BRIDGE_TOKEN", bridgeToken),
    ("FLEET_BRIDGE_LOG_DIR", bridgeLogDir), ("FLEET_SERVER_ID", id),
    ("FLEET_SERVER_LABEL", label), ("FLEET_SERVER_URL", serverUrl)] ++
  match bridgeSocket.filter (fun s => s ≠ "") with
  | some socket => [("FLEET_BRIDGE_SOCKET", socket)]
  | none => []

/-- A variable of a process: of the settings made one after the other the last counts. -/
def envVar (vars : List (String × String)) (name : String) : Option String :=
  (vars.reverse.find? (fun v => v.1 = name)).map Prod.snd

namespace FleetBridge

/-- What the extension reads of the variables of its process. -/
def BridgeEnv.ofVars (vars : List (String × String)) : BridgeEnv where
  bridgeSocket := envVar vars "FLEET_BRIDGE_SOCKET"
  bridgeUrl := envVar vars "FLEET_BRIDGE_URL"
  serverId := envVar vars "FLEET_SERVER_ID"
  serverUrl := envVar vars "FLEET_SERVER_URL"
  serverLabel := envVar vars "FLEET_SERVER_LABEL"
  bridgeToken := envVar vars "FLEET_BRIDGE_TOKEN"

/-- The text of a hello, as it is read. -/
def Registration.json (r : Registration) : Json :=
  .object [("type", .string "hello"), ("server_id", .string r.serverId), ("url", .string r.url),
    ("label", .string r.label), ("caps", .array (r.caps.map Json.string)),
    ("token", .string r.token)]

end FleetBridge

/-! ## The door -/

/-- `Hello` (`bridge.rs:259-263`). -/
structure Hello where
  serverId : String
  url : String
  label : String
  deriving DecidableEq, Repr

/-- `HelloDecision` (`bridge.rs:663-667`). -/
inductive HelloDecision where
  | accept (hello : Hello)
  | reject (serverId : Option String)
  | ignore
  deriving DecidableEq, Repr

/-- `parse_hello` (`bridge.rs:669-697`). -/
def parseHello (v : Json) (expectedToken : String) : HelloDecision :=
  if (v.get? "type").bind Json.asString ≠ some "hello" then .ignore
  else
    match (v.get? "server_id").bind Json.asString with
    | none => .ignore
    | some id =>
      let token := ((v.get? "token").bind Json.asString).getD ""
      if expectedToken ≠ "" ∧ token ≠ expectedToken then .reject (some id)
      else .accept ⟨id, ((v.get? "url").bind Json.asString).getD "",
        ((v.get? "label").bind Json.asString).getD id⟩

/-- What the socket of a connection delivers before its hello is accepted: a text, with what it
parses to, another frame, or its end. -/
inductive DoorRead where
  | text (v : Option Json)
  | other
  | gone

/-- The connections in front of the door, each still waiting or not, the host behind it, and the
texts of the accepted hellos. -/
structure Door where
  waiting : List Bool
  host : BridgeHost
  accepted : List Json

/-- A connection is accepted by the listener, reads before its hello, or the host takes a step that
is not one. -/
inductive DoorStep where
  | dial
  | read (place : Nat) (frame : DoorRead)
  | inside (step : BridgeHostStep)

namespace Door

/-- A door nobody has knocked at. -/
def new : Door := ⟨[], .new, []⟩

/-- A turn of the hello loop of `run_bridge_connection` (`bridge.rs:606-625`), or of what comes
after it. -/
def step (expectedToken : String) (door : Door) : DoorStep → Door
  | .dial => { door with waiting := door.waiting ++ [true] }
  | .read place frame =>
    if door.waiting[place]?.getD false then
      match frame with
      | .text (some v) =>
        match parseHello v expectedToken with
        | .accept hello =>
          { waiting := door.waiting.set place false
            host := door.host.step (.hello hello.serverId hello.url hello.label)
            accepted := door.accepted ++ [v] }
        | .reject _ => { door with waiting := door.waiting.set place false }
        | .ignore => door
      | .text none | .other => door
      | .gone => { door with waiting := door.waiting.set place false }
    else door
  | .inside (.hello _ _ _) => door
  | .inside step => { door with host := door.host.step step }

end Door

end VsFleet
