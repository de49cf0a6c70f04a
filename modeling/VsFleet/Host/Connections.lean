import VsFleet.Host.Bridge
import VsFleet.Misc.Json

/-!
# The bridge connections

The connections behind the registry (`fleet-host/src/bridge.rs`): each registers the sender of a
channel of its own, passes on what it receives for as long as its loop runs, and stays registered
for a grace period after that. A command goes to the newest connection of its server.
-/

namespace VsFleet

/-- Where `run_bridge_connection` is: between the hello and the loop, in the loop, in the grace
period after it, past its `unregister`. -/
inductive ConnPhase where
  | hello
  | running (generation : Nat)
  | grace (generation : Nat)
  | over
  deriving DecidableEq, Repr

/-- A connection: whether the receiver of its channel is still there, and the frames its sender has
taken. -/
structure BridgeConn where
  serverId : String
  phase : ConnPhase
  receiving : Bool
  frames : List Json

/-- The channel takes a frame. -/
def BridgeConn.take (conn : BridgeConn) (frame : Json) : BridgeConn :=
  { conn with frames := conn.frames ++ [frame] }

/-- The registry, whose senders are places among the connections, with the connections. -/
structure BridgeHost where
  bridge : Bridge Nat
  conns : List BridgeConn

/-- What happens at the host: a connection says hello, draws its generation and registers, a message
comes in or it leaves, and the calls on the registry. -/
inductive BridgeHostStep where
  | hello (id url label : String)
  | register (place : Nat)
  | inbound (conn : Nat)
  | leave (conn : Nat)
  | hangUp (conn : Nat)
  | unregister (conn : Nat)
  | rename (id label : String)
  | forget (id : String)
  | reapStale (iter : IterOrder (Sigma fun _ : String => ServerConnSet Nat)) (delay : String → Nat)
      (timeout : Nat)
  | elapse (duration : Nat)
  | sendCommand (serverId command : String)

namespace BridgeHost

/-- A host that has just started. -/
def new : BridgeHost := ⟨.new, []⟩

/-- The frame of a command, whose text is sent. -/
def commandFrame (command : String) : Json :=
  .object [("id", .string command), ("type", .string "command")]

/-- The newest connection of a server. -/
def newest (h : BridgeHost) (serverId : String) : Option Nat :=
  (h.bridge.registry.inner.lookup serverId).bind (fun c => c.conns.getLast?.map Prod.snd)

/-- `send_command` (`bridge.rs:95-114`): a send succeeds as long as the receiver is there. -/
def sendCommand (h : BridgeHost) (serverId command : String) : Bool × BridgeHost :=
  match h.newest serverId with
  | some tx =>
    match h.conns[tx]? with
    | some conn =>
      if conn.receiving then
        (true, { h with conns := h.conns.set tx (conn.take (commandFrame command)) })
      else (false, h)
    | none => (false, h)
  | none => (false, h)

/-- A turn of a caller of the registry. -/
def turn (h : BridgeHost) (step : BridgeStep Nat) : BridgeHost :=
  { h with bridge := (h.bridge.step step).1 }

/-- The steps of the connections (`run_bridge_connection`, `bridge.rs:571-663`) and of the host. A
connection hangs up, when it drops its receiver, at some time after its loop. -/
def step (h : BridgeHost) : BridgeHostStep → BridgeHost
  | .hello id url label =>
    let tx := h.conns.length
    let h := h.turn (.draw id tx url label)
    { h with conns := h.conns ++ [⟨id, .hello, true, []⟩] }
  | .register place =>
    match h.bridge.registering[place]? with
    | none => h
    | some c =>
      let h := h.turn (.register place)
      { h with conns := h.conns.modify c.tx (fun conn =>
          { conn with phase := .running c.generation }) }
  | .inbound n =>
    match h.conns[n]? with
    | some ⟨serverId, .running _, _, _⟩ => h.turn (.touch serverId)
    | _ => h
  | .leave n =>
    { h with conns := h.conns.modify n (fun conn =>
        match conn.phase with
        | .running generation => { conn with phase := .grace generation }
        | _ => conn) }
  | .hangUp n =>
    { h with conns := h.conns.modify n (fun conn =>
        match conn.phase with
        | .grace _ | .over => { conn with receiving := false }
        | _ => conn) }
  | .unregister n =>
    match h.conns[n]? with
    | some ⟨serverId, .grace generation, receiving, frames⟩ =>
      let h := h.turn (.unregister serverId generation)
      { h with conns := h.conns.set n ⟨serverId, .over, receiving, frames⟩ }
    | _ => h
  | .rename id label => h.turn (.rename id label)
  | .forget id => h.turn (.forget id)
  | .reapStale iter delay timeout => h.turn (.reapStale iter delay timeout)
  | .elapse duration => h.turn (.elapse duration)
  | .sendCommand serverId command => (h.sendCommand serverId command).2

/-- A run of the host from its start. -/
def run (steps : List BridgeHostStep) : BridgeHost := steps.foldl step new

end BridgeHost

end VsFleet
