import VsFleet.Host.Supervisor

/-!
# The supervisor under concurrent calls

Calls of `spawn_local`, `servers` and `close` that overlap (`fleet-host/src/spawn.rs`). Each takes
the locks of the two tables one after the other, and between two of its locked sections anything may
happen; a process may end at any moment. A spawn is there from the launch of its processes on, and
one that fails changes neither table.
-/

namespace VsFleet

/-- Where a `spawn_local` stands: before either of its last inserts, or done. -/
inductive SpawnStage where
  | insert
  | push
  | returned
  deriving DecidableEq, Repr

/-- Where a `servers` stands: before the look at the processes, before the ids it has removed are
taken off the list, before the list is read, or done. -/
inductive ServersStage where
  | prune
  | retain (removed : List String)
  | clone
  | returned (servers : List MuxSession)
  deriving DecidableEq, Repr

/-- Where a `close` stands: before it takes the server off the list, before its looks at the
containers and at the processes, or done. -/
inductive CloseStage where
  | retain
  | containers
  | children
  | returned (closed : Bool)
  deriving DecidableEq, Repr

/-- A call: a `servers` with the processes that had exited when it began. -/
inductive SupervisorCall where
  | spawn (server : MuxSession) (group : List Child) (stage : SpawnStage)
  | servers (before : List Child) (stage : ServersStage)
  | close (id : String) (stage : CloseStage)
  deriving DecidableEq, Repr

/-- `ChildHealth` (`spawn.rs:773-777`), without what is logged of it. -/
inductive ChildHealth where
  | alive
  | exited
  | unavailable
  deriving DecidableEq, Repr

/-- `primary_child_exited` (`spawn.rs:779-787`), over the processes that have exited and those whose
`try_wait` fails. -/
def primaryChildExited (exited faulty : List Child) (children : List Child) : ChildHealth :=
  match children.getLast? with
  | none => .unavailable
  | some child =>
    if child ∈ faulty then .unavailable else if child ∈ exited then .exited else .alive

namespace ServerSupervisor

/-- The ids whose primary child is not alive (`spawn.rs:590-602`), in whatever order. -/
def deadIds (sup : ServerSupervisor) (exited faulty : List Child) : List String :=
  (sup.children.entries.filter (fun entry =>
    primaryChildExited exited faulty entry.2 ≠ .alive)).map (fun entry => entry.1)

/-- The processes of the groups of some ids. -/
def groups (sup : ServerSupervisor) (ids : List String) : List Child :=
  ids.flatMap (fun id => (sup.children.lookup id).getD [])

/-- The removal of some ids from the table of the processes (`spawn.rs:603-611`). -/
def untrack (sup : ServerSupervisor) (ids : List String) : ServerSupervisor :=
  { sup with children := ids.foldl (fun children id => children.erase id) sup.children }

/-- The removal of some ids from the list of the servers (`spawn.rs:623`). -/
def unlist (sup : ServerSupervisor) (ids : List String) : ServerSupervisor :=
  { sup with servers := sup.servers.filter (fun server => server.id ∉ ids) }

end ServerSupervisor

/-- The supervisor with the processes that have exited and the calls there have been, in the order
they began. -/
structure Supervision where
  supervisor : ServerSupervisor
  exited : List Child
  calls : List SupervisorCall

namespace Supervision

/-- The next locked section of a call: the call after it, the supervisor and the processes that have
exited, those it terminates among them. -/
def lockedSection (s : Supervision) (faulty : List Child) :
    SupervisorCall → SupervisorCall × ServerSupervisor × List Child
  -- `spawn.rs:353-354`
  | .spawn server group .insert =>
    (.spawn server group .push, s.supervisor.track server.id group, s.exited)
  | .spawn server group .push =>
    (.spawn server group .returned, s.supervisor.pushServer server, s.exited)
  -- `prune_dead_local_servers` (`spawn.rs:585-628`) and the rest of `servers` (`spawn.rs:131-137`)
  | .servers before .prune =>
    let removed := s.supervisor.deadIds s.exited faulty
    (.servers before (if removed.isEmpty then .clone else .retain removed),
      s.supervisor.untrack removed, s.supervisor.groups removed ++ s.exited)
  | .servers before (.retain removed) =>
    (.servers before .clone, s.supervisor.unlist removed, s.exited)
  | .servers before .clone =>
    (.servers before (.returned s.supervisor.servers), s.supervisor, s.exited)
  -- `close` (`spawn.rs:565-583`)
  | .close id .retain => (.close id .containers, s.supervisor.unlist [id], s.exited)
  | .close id .containers =>
    if id ∈ s.supervisor.containers then
      (.close id (.returned true),
        { s.supervisor with containers := s.supervisor.containers.erase id }, s.exited)
    else (.close id .children, s.supervisor, s.exited)
  | .close id .children =>
    match s.supervisor.children.lookup id with
    | some group =>
      (.close id (.returned true), s.supervisor.untrack [id], group ++ s.exited)
    | none => (.close id (.returned false), s.supervisor, s.exited)
  | call => (call, s.supervisor, s.exited)

/-- The call at a place has its next locked section. -/
def turn (s : Supervision) (i : Nat) (faulty : List Child) : Supervision :=
  match s.calls[i]? with
  | none => s
  | some call =>
    let (call', supervisor, exited) := s.lockedSection faulty call
    ⟨supervisor, exited, s.calls.set i call'⟩

/-- A `spawn_local` that has launched its processes. -/
def beginSpawn (s : Supervision) (reporter : Bool) (port : Nat) (folder : String) : Supervision :=
  let ((n, id), supervisor) := s.supervisor.allocateServerId
  let group := (if reporter then [⟨id, .reporter⟩] else []) ++ [⟨id, .editor⟩]
  { s with
    supervisor
    calls := s.calls ++ [.spawn (spawnedSession n id port folder) group .insert] }

/-- The process was launched by a call. -/
def launched (s : Supervision) (child : Child) : Bool :=
  s.calls.any (fun call => match call with
    | .spawn _ group _ => child ∈ group
    | _ => false)

end Supervision

/-- What happens: a call begins, a spawn fails, a call has a locked section, in which the `try_wait`
of some processes may fail, or a process ends by itself. -/
inductive SupervisionStep where
  | spawn (reporter : Bool) (port : Nat) (folder : String)
  | spawnFails
  | servers
  | close (id : String)
  | turn (call : Nat) (faulty : List Child)
  | exit (child : Child)
  deriving DecidableEq, Repr

namespace Supervision

/-- One step of the calls and the processes. -/
def step (s : Supervision) : SupervisionStep → Supervision
  | .spawn reporter port folder => s.beginSpawn reporter port folder
  | .spawnFails => { s with supervisor := s.supervisor.allocateServerId.2 }
  | .servers => { s with calls := s.calls ++ [.servers s.exited .prune] }
  | .close id => { s with calls := s.calls ++ [.close id .retain] }
  | .turn i faulty => s.turn i faulty
  | .exit child => if s.launched child then { s with exited := child :: s.exited } else s

/-- Fleet has just started. -/
def new (launchId : String) : Supervision := ⟨.new launchId, [], []⟩

/-- A run of steps from the start of Fleet. -/
def run (launchId : String) (steps : List SupervisionStep) : Supervision :=
  steps.foldl step (new launchId)

end Supervision

end VsFleet
