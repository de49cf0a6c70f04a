import VsFleet.Hub.Server
import VsFleet.Reporter.Core

/-!
# The reporter driver

The loop around the core (`Reporter::run`, `fleet-reporter/src/reporter.rs`): connect, register,
flush the backlog, then serve commands and ticks until a send fails. What a connection does to each
send is an argument. A connection keeps the order of its frames, so a frame is lost only with
every later frame of the same connection. The driver reads nothing back from the Hub; what it leaves
behind is the list of frames the Hub reads. A shutdown seen while the link is down, after which one
last flush is due, is outside the model.
-/

namespace VsFleet

/-- What becomes of one send: handed to the transport and read by the Hub, handed over and lost, or
failed, in which case the Hub may have read the frame all the same. -/
inductive Sending where
  | arrives
  | lost
  | failed (arrives : Bool)
  deriving DecidableEq, Repr

/-- A frame on the wire: the whole view of a registration or a heartbeat, with the number of the
last delta issued before it, or a delta. -/
inductive Frame where
  | whole (upto : Nat) (msg : ClientMessage)
  | delta (d : Delta)

/-- The message in a frame. -/
def Frame.msg : Frame → ClientMessage
  | .whole _ msg => msg
  | .delta d => d.msg

/-- The last delta whose content the frame reflects. -/
def Frame.upto : Frame → Nat
  | .whole upto _ => upto
  | .delta d => d.seq

/-- The driver, with the frames the Hub has read and every delta the core has issued. `cut` says
that a frame of the connection was lost. -/
structure Link where
  core : ReporterCore
  up : Bool
  cut : Bool
  heard : List Frame
  issued : List Delta

namespace Link

/-- A driver that has just started. -/
def new (config : ReporterConfig) : Link := ⟨.new config, false, false, [], []⟩

/-- The core has moved on by one delta at most; what it enqueued counts as issued. -/
def absorb (link : Link) (core : ReporterCore) : Link :=
  { link with
    core := core
    issued := link.issued ++
      core.buffer.queue.filter (fun d => link.core.buffer.nextSeq ≤ d.seq) }

/-- `conn.send`. -/
def send (link : Link) (sending : Sending) (frame : Frame) : Bool × Link :=
  let heard := if link.cut then link.heard else link.heard ++ [frame]
  match sending with
  | .arrives => (true, { link with heard })
  | .lost => (true, { link with cut := true })
  | .failed true => (false, { link with up := false, heard })
  | .failed false => (false, { link with up := false })

/-- The loop of `flush`, with the unsent tail. -/
def flushLoop : List Delta → List Sending → Link → List Delta × Link
  | [], _, link => ([], link)
  | d :: ds, net, link =>
    match link.send (net.headD .arrives) (.delta d) with
    | (true, link) => flushLoop ds net.tail link
    | (false, link) => (d :: ds, link)

/-- `flush` (`reporter.rs:631-644`). -/
def flush (link : Link) (net : List Sending) : Link :=
  let (batch, core) := link.core.drain
  let (unsent, link) := flushLoop batch net { link with core }
  if unsent.isEmpty then link else { link with core := link.core.requeueUnsent unsent }

/-- A whole view is sent where there is one and then the backlog is flushed: the start of a
connection and the end of a tick. -/
def sync (link : Link) (view : Option ClientMessage) (net : List Sending) : Link :=
  match view with
  | none => link.flush net
  | some msg =>
    match link.send (net.headD .arrives) (.whole link.core.lastSeq msg) with
    | (true, link) => link.flush net.tail
    | (false, link) => link

/-- `pump_pending` (`reporter.rs:618-626`). -/
def pumpPending (link : Link) (pending : List (String × ReporterCommand)) : Link :=
  pending.foldl (fun link (iso, cmd) => link.absorb (link.core.apply iso cmd).2) link

/-- `reap_timeouts` of the core, one report at a time. -/
def reap (link : Link) (iso : String → String) (runIds : List String) : Link :=
  runIds.foldl (fun link id => link.absorb (link.core.reapOne iso id)) link

/-- What can happen to the driver: a refused connect, with the commands that came in meanwhile; a
connect; a command and a tick on a connection. -/
inductive Step where
  | refused (pending : List (String × ReporterCommand))
  | connect (net : List Sending)
  | command (iso : String) (cmd : ReporterCommand) (net : List Sending)
  | tick (elapsed : Nat) (iter : IterOrder (Sigma fun _ : String => LivenessTracker))
      (iso : String → String) (net : List Sending)

/-- One round of `run` (`reporter.rs:482-581`), with `on_tick` (`reporter.rs:591-613`). -/
def step (link : Link) : Step → Link
  | .refused pending => if link.up then link else link.pumpPending pending
  | .connect net =>
    if link.up then link
    else { link with up := true, cut := false }.sync link.core.registrationMessage net
  | .command iso cmd net =>
    if link.up then
      match cmd with
      | .shutdown => { link with up := false }
      | cmd => (link.absorb (link.core.apply iso cmd).2).flush net
    else link
  | .tick elapsed iter iso net =>
    if link.up then
      let core := link.core.advanceTo elapsed
      let link := { link with core }.reap iso (core.timedOut iter)
      link.sync link.core.heartbeatMessage net
    else link

/-- The reports of the driver's tick, one at a time, are those of the core. -/
theorem reap_core (link : Link) (iter : IterOrder (Sigma fun _ : String => LivenessTracker))
    (iso : String → String) :
    (link.reap iso (link.core.timedOut iter)).core = link.core.reapTimeouts iter iso := by
  have go : ∀ (runIds : List String) (link : Link),
      (link.reap iso runIds).core = runIds.foldl (ReporterCore.reapOne iso) link.core := by
    intro runIds
    induction runIds with
    | nil => exact fun _ => rfl
    | cons id runIds ih => exact fun link => ih (link.absorb (link.core.reapOne iso id))
  exact go _ link

end Link

/-- The Hub reads a frame. No message of a reporter looks a run up, so the order is any. -/
def StateStore.hear (store : StateStore) (frame : Frame) : StateStore :=
  (store.applyMessage (.asStored Session) frame.msg).2

/-- The Hub the driver has talked to, opened as `start`. -/
def Link.hub (start : StateStore) (link : Link) : StateStore :=
  link.heard.foldl StateStore.hear start

end VsFleet
