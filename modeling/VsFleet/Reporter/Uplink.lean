import VsFleet.Reporter.Driver

/-!
# A reporter and its Hub

The driver of a reporter, the frames on their way and the store of the Hub. The Hub reads the frames
in the order they were sent, each at a time of its own; between two of them a face sends a command
and a garbage-collection pass comes (`fleet-hub/src/server.rs`, `fleet-hub/src/lib.rs`). The clock
is there to say when; no step reads it.
-/

namespace VsFleet

/-- The driver, how many of the frames sent to it the Hub has read, and the store of the Hub. -/
structure Uplink where
  link : Link
  read : Nat
  store : StateStore
  clock : Nat

namespace Uplink

/-- A reporter that has just started, and a Hub over its log. -/
def new (config : ReporterConfig) (log : EventLog) : Uplink := ⟨.new config, 0, .fromLog log, 0⟩

/-- What happens: time passes, the driver takes a step, the Hub reads the next frame in flight, a
face sends a command, or a pass comes. -/
inductive Step where
  | wait (time : Nat)
  | reporter (s : Link.Step)
  | read
  | face (iter : IterOrder Session) (command : Command)
  | gc (now : String) (grace sessionTtl : Nat)

/-- The next frame the Hub reads. -/
def next (u : Uplink) : Option Frame := u.link.heard[u.read]?

/-- One step of the reporter or of its Hub. -/
def step (parseEpochSecs : String → Option Int) (u : Uplink) : Step → Uplink
  | .wait time => { u with clock := u.clock + time }
  | .reporter s => { u with link := u.link.step s }
  | .read =>
    match u.next with
    | none => u
    | some frame => { u with read := u.read + 1, store := u.store.hear frame }
  | .face iter command => { u with store := (u.store.applyCommand iter command).2 }
  | .gc now grace sessionTtl =>
    { u with store := (u.store.gc parseEpochSecs now grace sessionTtl).2 }

end Uplink

end VsFleet
