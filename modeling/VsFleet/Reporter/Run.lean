import VsFleet.Reporter.Driver

/-!
# The reporter loop to its end

The whole of `Reporter::run` (`fleet-reporter/src/reporter.rs`) over its command channel: what the
driver leaves out, a shutdown that is seen while the link is down and the last flush it owes, is
here. Commands are put into the channel at any time and come out in their order; the loop looks at
the channel only where a step below says so. A send either hands the frame over or fails and has
delivered nothing. Beside the state stand every command that was put into the channel, those the
core was given, and the deltas that an overflow of the buffer has cost.
-/

namespace VsFleet

/-- What a send does that returns `Ok`, and one that returns an error. -/
def Sending.ofOk : Bool → Sending
  | true => .arrives
  | false => .failed false

/-- The command ends the loop. -/
def ReporterCommand.isShutdown : ReporterCommand → Bool
  | .shutdown => true
  | _ => false

/-- The delta of a frame, where it is no registration and no heartbeat. -/
def Frame.delta? : Frame → Option Delta
  | .delta d => some d
  | .whole .. => none

/-- The deltas that were sent, over all connections. -/
def Link.deltas (link : Link) : List Delta := link.heard.filterMap Frame.delta?

/-- `Reporter` in `run`, with its receiver. `link.up` says that a connection is served. -/
structure Runner where
  link : Link
  commands : List (String × ReporterCommand)
  closed : Bool
  shutdownRequested : Bool
  returned : Bool
  submitted : List (String × ReporterCommand)
  applied : List (String × ReporterCommand)
  evicted : List Delta

namespace Runner

/-- The loop at its start, with an open channel. -/
def new (config : ReporterConfig) : Runner := ⟨.new config, [], false, false, false, [], [], []⟩

/-- The core has moved on; what its buffer counts as dropped was the oldest it held. -/
def absorb (r : Runner) (core : ReporterCore) : Runner :=
  { r with
    link := r.link.absorb core
    evicted := r.evicted ++ r.link.core.buffer.queue.take
      (core.buffer.dropped - r.link.core.buffer.dropped) }

/-- `core.apply`. -/
def apply (r : Runner) (cmd : String × ReporterCommand) : Runner :=
  { r.absorb (r.link.core.apply cmd.1 cmd.2).2 with applied := r.applied ++ [cmd] }

/-- `pump_pending` (`reporter.rs:618-626`). -/
def pumpPending (r : Runner) : Bool × Runner :=
  r.commands.foldl (fun (saw, r) cmd =>
    (if (r.link.core.apply cmd.1 cmd.2).1 then saw else true, r.apply cmd))
    (false, { r with commands := [] })

/-- `flush` (`reporter.rs:631-644`). -/
def flush (r : Runner) (net : List Bool) : Runner :=
  { r with link := r.link.flush (net.map .ofOk) }

/-- The connection is closed and `run` returns. -/
def finish (r : Runner) : Runner := { r with link := { r.link with up := false }, returned := true }

/-- The end of the start of a connection: after a shutdown the last commands are taken in, the
backlog is flushed, and after a shutdown that is all. -/
def deliver (r : Runner) (net : List Bool) : Runner :=
  let r := if r.shutdownRequested then r.pumpPending.2 else r
  let r := r.flush net
  if r.link.up && r.shutdownRequested then r.finish else r

/-- A whole view is sent where there is one, before the rest. -/
def announce (r : Runner) (view : Option ClientMessage) (net : List Bool)
    (rest : Runner → List Bool → Runner) : Runner :=
  match view with
  | none => rest r net
  | some msg =>
    match r.link.send (.ofOk (net.headD true)) (.whole r.link.core.lastSeq msg) with
    | (true, link) => rest { r with link } net.tail
    | (false, link) => { r with link }

/-- `reap_timeouts`, one report at a time. -/
def reap (r : Runner) (iso : String → String) (runIds : List String) : Runner :=
  runIds.foldl (fun r id => r.absorb (r.link.core.reapOne iso id)) r

/-- What can happen: a command is put into the channel, the last handle is dropped, a connect is
refused or succeeds, a served connection takes a command from the channel, or its timer ticks. -/
inductive Event where
  | submit (iso : String) (cmd : ReporterCommand)
  | close
  | refused
  | connect (net : List Bool)
  | receive (net : List Bool)
  | tick (elapsed : Nat) (iter : IterOrder (Sigma fun _ : String => LivenessTracker))
      (iso : String → String) (net : List Bool)

/-- One step of `run` (`reporter.rs:482-581`), with `on_tick` (`reporter.rs:591-613`). -/
def step (r : Runner) : Event → Runner
  | .submit iso cmd =>
    if r.closed || r.returned then r
    else { r with
      commands := r.commands ++ [(iso, cmd)]
      submitted := r.submitted ++ [(iso, cmd)] }
  | .close => { r with closed := true }
  | .refused =>
    if r.link.up || r.returned then r
    else
      let (saw, r) := r.pumpPending
      { r with shutdownRequested := r.shutdownRequested || saw }
  | .connect net =>
    if r.link.up || r.returned then r
    else
      { r with link := { r.link with up := true, cut := false } }.announce
        r.link.core.registrationMessage net deliver
  | .receive net =>
    if r.link.up && !r.returned then
      match r.commands with
      | [] => if r.closed then r.finish else r
      | cmd :: commands =>
        if cmd.2.isShutdown then { r with commands }.finish
        else ({ r with commands }.apply cmd).flush net
    else r
  | .tick elapsed iter iso net =>
    if r.link.up && !r.returned then
      let core := r.link.core.advanceTo elapsed
      let r := { r with link := { r.link with core } }.reap iso (core.timedOut iter)
      r.announce r.link.core.heartbeatMessage net flush
    else r

end Runner

end VsFleet
