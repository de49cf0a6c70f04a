import VsFleet.Hub.Server
import VsFleet.HostCore.View
import VsFleet.Misc.Broadcast

/-!
# The connections of the Hub

The task that serves one connection and the broadcast channel it reads (`fleet-hub/src/server.rs`).
The events of every commit go to one channel of bounded capacity; the task of a subscribed
connection takes them from there one by one and sends them on the socket. The tasks, the commits
and the publications interleave freely. A send that fails closes the connection.
-/

namespace VsFleet

/-- `BROADCAST_CAPACITY` (`server.rs:39`). -/
def broadcastCapacity : Nat := 1024

/-- The task of a connection: its receiver `rx`, whether its client has subscribed, and the frames
it sent on the socket. -/
structure Connection where
  rx : Nat
  subscribed : Bool
  frames : List Event
  opened : Bool

namespace Connection

/-- `handle_client_message` (`server.rs:500-515`) for a subscribe, with the reply sent: the snapshot
and the receiver are taken in one section. -/
def handleSubscribe (published : List Session) (tail : Nat) (c : Connection) : Connection :=
  if c.opened then
    { c with rx := tail, subscribed := true, frames := c.frames ++ [.ofSnapshot published] }
  else c

/-- `forward_broadcast` (`server.rs:528-546`) on what the receiver reads. The channel is never
closed: the task holds a sender itself. -/
def forwardBroadcast (sent : List Event) (c : Connection) : Connection :=
  if c.opened && c.subscribed then
    match recv broadcastCapacity sent c.rx with
    | none => c
    | some (.value ev, rx) => { c with rx, frames := c.frames ++ [ev] }
    | some (.lagged _, rx) => { c with rx }
  else c

/-- The list a face holds that has read all frames of the connection. -/
def shown (c : Connection) : List Session :=
  let face := InboxModel.new.applyAll c.frames
  OrderedMap.values face.sessions face.order

end Connection

/-- The Hub with its channel, as all that was broadcast, and its connections. -/
structure HubServer where
  hub : HubState
  sent : List Event
  connections : List Connection

/-- What interleaves: a commit up to the publish lock, its publish section, and the tasks of the
connections. -/
inductive ServeStep where
  | commit (closure : Closure)
  | publish
  | accept
  | subscribe (i : Nat)
  | forward (i : Nat)
  | close (i : Nat)

namespace HubServer

/-- A server over a store, with no face connected. -/
def fromStore (store : StateStore) : HubServer := ⟨.fromStore store, [], []⟩

/-- One step of `serve_ws_connection` (`server.rs:421-490`) of a connection, or of a commit. -/
def step (parseEpochSecs : String → Option Int) (server : HubServer) : ServeStep → HubServer
  | .commit closure => { server with hub := server.hub.step parseEpochSecs (.commit closure) }
  | .publish =>
    { server with
      hub := server.hub.step parseEpochSecs .publish
      sent := server.sent ++ (server.hub.pending.map Prod.fst).getD [] }
  | .accept =>
    { server with connections := server.connections ++ [⟨server.sent.length, false, [], true⟩] }
  | .subscribe i =>
    { server with
      connections := server.connections.modify i
        (Connection.handleSubscribe server.hub.published server.sent.length) }
  | .forward i =>
    { server with
      connections := server.connections.modify i (Connection.forwardBroadcast server.sent) }
  | .close i =>
    { server with
      connections := server.connections.modify i (fun c => { c with opened := false }) }

end HubServer

end VsFleet
