import Mathlib.Logic.Function.Basic

/-!
# The single-instance lock

`fleet-hub/src/lockfile.rs`, with any number of processes at one lock path. A process takes one
file-system step at a time, and the steps of the processes come in any order. Processes are
numbered by their starts; `pid` gives the id of each, which the system may give again once the
process is dead. A file is what its content parses to, beside the number of the `create_new` that
made it and the process that did: a process that writes through an open file writes that file, be
it still at the path or not.
-/

namespace VsFleet

/-- A file that stood or stands at the path. -/
structure LockFile where
  serial : Nat
  creator : Nat
  recorded : Option Nat
deriving DecidableEq

/-- `write_all` through the open file of a serial. -/
def LockFile.write (serial : Nat) (content : Option Nat) (file : LockFile) : LockFile :=
  if file.serial = serial then { file with recorded := content } else file

/-- How an acquisition fails. -/
inductive LockError where
  | alreadyRunning (pid : Nat)
  | io
deriving DecidableEq

/-- Where a process stands. In `acquire_create_loop` (`lockfile.rs:92-119`) `again` tells the second
attempt from the first, and `seen` is the file that was read, of which the code keeps the pid.
`releasing` and `unlinking` are the two steps of `drop` (`lockfile.rs:155-161`). -/
inductive LockPhase where
  | unborn
  | idle
  | failed (error : LockError)
  | creating (again : Bool)
  | reading (again : Bool)
  | checking (again : Bool) (seen : Option LockFile)
  | removing (seen : Option LockFile)
  | rereading
  | writing (serial : Nat)
  | holding (serial : Nat)
  | releasing (serial : Nat)
  | unlinking (serial : Nat)
  | dead
deriving DecidableEq

namespace LockPhase

/-- The process is there. -/
def live : LockPhase → Bool
  | .unborn | .dead => false
  | _ => true

/-- The file a process acquires with, holds the lock by or is dropping. -/
def uses : LockPhase → Option Nat
  | .writing serial | .holding serial | .releasing serial | .unlinking serial => some serial
  | _ => none

/-- The process is about to remove a lock file it takes to be stale. -/
def takesOver : LockPhase → Bool
  | .removing _ => true
  | _ => false

/-- The process has an `InstanceLock`. -/
def holds : LockPhase → Bool
  | .holding _ | .releasing _ | .unlinking _ => true
  | _ => false

end LockPhase

/-- The path of the lock file and the processes. -/
structure Lockfile where
  file : Option LockFile
  serial : Nat
  phase : Nat → LockPhase
  started : List Nat

namespace Lockfile

/-- No lock file and no process. -/
def new : Lockfile := ⟨none, 0, fun _ => .unborn, []⟩

/-- The process goes on at another place of the code. -/
def move (m : Lockfile) (p : Nat) (phase : LockPhase) : Lockfile :=
  { m with phase := Function.update m.phase p phase }

variable (pid : Nat → Nat)

/-- `read_pid` (`lockfile.rs:165-174`), of what stands at the path. -/
def readPid (file : Option LockFile) : Option Nat := file.bind (fun f => f.recorded)

/-- `pid_is_alive` (`lockfile.rs:178-192`): `kill(pid, 0)` finds exactly the live processes. -/
def pidIsAlive (m : Lockfile) (k : Nat) : Bool :=
  k != 0 && m.started.any (fun q => (m.phase q).live && pid q == k)

/-- The last arm of the match in `acquire_create_loop` (`lockfile.rs:102-112`). -/
def reclaim (m : Lockfile) (p : Nat) (seen : Option LockFile) : Bool → Lockfile
  | false => m.move p (.removing seen)
  | true => m.move p .rereading

/-- The next step of a process that is in `acquire_create_loop`, `write_pid_and_own` or `drop`. -/
def next (m : Lockfile) (p : Nat) : Lockfile :=
  match m.phase p with
  | .creating again =>
    match m.file with
    | none =>
      { m.move p (.writing m.serial) with
        file := some ⟨m.serial, p, none⟩
        serial := m.serial + 1 }
    | some _ => m.move p (.reading again)
  | .reading again => m.move p (.checking again m.file)
  | .checking again seen =>
    match readPid seen with
    | some k =>
      if m.pidIsAlive pid k then m.move p (.failed (.alreadyRunning k)) else m.reclaim p seen again
    | none => m.reclaim p seen again
  | .removing _ => { m.move p (.creating true) with file := none }
  | .rereading => m.move p (.failed (.alreadyRunning ((readPid m.file).getD 0)))
  | .writing serial =>
    { m.move p (.holding serial) with file := m.file.map (LockFile.write serial (some (pid p))) }
  | .releasing serial =>
    if readPid m.file = some (pid p) then m.move p (.unlinking serial) else m.move p .idle
  | .unlinking _ => { m.move p .idle with file := none }
  | .unborn | .idle | .failed _ | .holding _ | .dead => m

/-- The step fails. What was written of a pid by then stays, and so does a file that could not be
removed. -/
def ioError (m : Lockfile) (p : Nat) (content : Option Nat) : Lockfile :=
  match m.phase p with
  | .creating _ => m.move p (.failed .io)
  | .reading again => m.move p (.checking again none)
  | .removing _ => m.move p (.creating true)
  | .rereading => m.move p (.failed (.alreadyRunning 0))
  | .writing serial =>
    { m.move p (.failed .io) with file := m.file.map (LockFile.write serial content) }
  | .releasing _ | .unlinking _ => m.move p .idle
  | .unborn | .idle | .failed _ | .checking _ _ | .holding _ | .dead => m

/-- A process starts, acquires, takes its next step, fails in it, drops the lock or dies. -/
inductive Step where
  | start (p : Nat)
  | acquire (p : Nat)
  | next (p : Nat)
  | ioError (p : Nat) (content : Option Nat)
  | drop (p : Nat)
  | crash (p : Nat)

/-- A process is started with an id that no live process has, and is never started again. -/
def step (m : Lockfile) : Step → Lockfile
  | .start p =>
    if m.phase p = .unborn ∧ pid p ≠ 0 ∧ m.pidIsAlive pid (pid p) = false then
      { m.move p .idle with started := p :: m.started }
    else m
  | .acquire p =>
    match m.phase p with
    | .idle | .failed _ => m.move p (.creating false)
    | _ => m
  | .next p => m.next pid p
  | .ioError p content => m.ioError p content
  | .drop p =>
    match m.phase p with
    | .holding serial => m.move p (.releasing serial)
    | _ => m
  | .crash p => if (m.phase p).live then m.move p .dead else m

/-- At most one live process has an `InstanceLock`. -/
def Exclusive (m : Lockfile) : Prop :=
  ∀ p q, (m.phase p).holds = true → (m.phase q).holds = true → p = q

/-- A takeover that removes the file at the path removes no file that a live process uses. -/
def Spares (m : Lockfile) : Step → Prop
  | .next p => (m.phase p).takesOver = true →
    ∀ f ∈ m.file, ∀ q ∈ m.started, (m.phase q).uses ≠ some f.serial
  | _ => True

instance (m : Lockfile) : DecidablePred m.Spares
  | .next _ => inferInstanceAs (Decidable (_ → _))
  | .start _ | .acquire _ | .ioError _ _ | .drop _ | .crash _ => isTrue trivial

end Lockfile

end VsFleet
