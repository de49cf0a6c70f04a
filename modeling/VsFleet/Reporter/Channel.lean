import VsFleet.Reporter.Driver

/-!
# The driver and its command channel

The observer of the agents pushes commands into an unbounded channel. The driver takes out all that
wait after a failed connect (`pump_pending`) and one at a time while it serves a connection, where
the next tick may come before them (`fleet-reporter/src/reporter.rs`). `elapsed` is the real time
since the start of the driver, and any time passes between two steps: a connect may hang. Beside
the state of the driver stand the signs of life, when they were sent and what the logical clock of
the core read when they were taken.
-/

namespace VsFleet

/-- A command in the channel, with the time it was sent at and the stamp that is read when it is
applied. -/
structure Sent where
  time : Nat
  iso : String
  cmd : ReporterCommand

/-- A sign of life that was taken from the channel. -/
structure Signal where
  runId : String
  sent : Nat
  reading : Nat

/-- `Reporter` with its command channel. -/
structure Channel where
  link : Link
  queue : List Sent
  elapsed : Nat
  sent : List (String × Nat)
  taken : List Signal

namespace Channel

/-- A driver that has just started, with nothing in its channel. -/
def new (config : ReporterConfig) : Channel := ⟨.new config, [], 0, [], []⟩

/-- What happens to the driver: time passes, a command is put in, a connect is refused or succeeds,
a command is taken out while a connection is served, or its timer ticks. -/
inductive Step where
  | wait (time : Nat)
  | push (iso : String) (cmd : ReporterCommand)
  | refused
  | connect (net : List Sending)
  | receive (net : List Sending)
  | tick (iter : IterOrder (Sigma fun _ : String => LivenessTracker)) (iso : String → String)
      (net : List Sending)

/-- The sign of life in a command, taken at a reading of the clock. -/
def signal (reading : Nat) (s : Sent) : List Signal :=
  s.cmd.signals.toList.map (fun runId => ⟨runId, s.time, reading⟩)

/-- One step; `sent` and `taken` note the signs of life on the way. -/
def step (c : Channel) : Step → Channel
  | .wait time => { c with elapsed := c.elapsed + time }
  | .push iso cmd =>
    { c with
      queue := c.queue ++ [⟨c.elapsed, iso, cmd⟩]
      sent := c.sent ++ cmd.signals.toList.map (fun runId => (runId, c.elapsed)) }
  | .refused =>
    if c.link.up then c
    else { c with
      link := c.link.step (.refused (c.queue.map (fun s => (s.iso, s.cmd))))
      queue := []
      taken := c.taken ++ c.queue.flatMap (signal c.link.core.now) }
  | .connect net => { c with link := c.link.step (.connect net) }
  | .receive net =>
    if c.link.up then
      match c.queue with
      | [] => c
      | s :: queue => { c with
        link := c.link.step (.command s.iso s.cmd net)
        queue := queue
        taken := c.taken ++ signal c.link.core.now s }
    else c
  | .tick iter iso net => { c with link := c.link.step (.tick c.elapsed iter iso net) }

end Channel

end VsFleet
