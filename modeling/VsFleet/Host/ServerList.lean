import VsFleet.Host.Bridge
import VsFleet.Host.Rail
import VsFleet.Host.SelectServer

/-!
# The list of the rail

Which servers the webview lists (`fleet-host/ui/main.js`): it asks the host for them each time it is
told that they have changed, and the host answers from those it has spawned and those that have
phoned home (`fleet-host/src/mux.rs`). The host gets to a call, and the webview to its answer, some
time later; the calls overlap and their answers come in any order. What the status line and the
menus tell, the prompt before a rename, and the acknowledgement of a session whose editor was
opened, are left out.
-/

namespace VsFleet

/-- `merged_servers` (`mux.rs:293-303`). -/
def mergedServers (spawned registered : List MuxSession) : List MuxSession :=
  ((spawned ++ registered).foldl (fun out s =>
    if s.id ∈ out.map (fun t => t.id) then out else out ++ [s]) []).mergeSort
      (fun a b => a.id ≤ b.id)

/-- A start that has not phoned home (`main.js:44`, `main.js:1368`). -/
structure PendingStart where
  id : String
  label : String
  startedAt : Nat
  renamed : Bool
  deriving DecidableEq, Repr

/-- A row of the list: a server, a start, or a session whose editor is not there. -/
inductive ServerRow where
  | server (s : MuxSession)
  | pending (start : PendingStart)
  | agentOnly (id label : String)
  deriving DecidableEq, Repr

namespace ServerRow

/-- The id a row stands for. -/
def id : ServerRow → String
  | server s => s.id
  | pending start => start.id
  | agentOnly id _ => id

end ServerRow

/-- A call of `refreshServers`: the host has not got to `get_servers` or its answer is under way,
the same of `selected_server`, and what was found or that a call failed. -/
inductive RefreshCall where
  | listing
  | listed (servers : List MuxSession)
  | selecting (servers : List MuxSession)
  | selectedIs (servers : List MuxSession) (backendSelected : Option String)
  | done (servers : List MuxSession)
  | failed
  deriving DecidableEq, Repr

/-- A call of `closeServer`, with the number of the refreshes there had been. -/
structure CloseCall where
  id : String
  generation : Nat
  awaiting : Bool
  deriving DecidableEq, Repr

/-- What the webview knows of the servers (`main.js:43-54`). The generation of a call of
`refreshServers` is its place among the calls, counted from one. -/
structure ServerRail where
  servers : List MuxSession
  pending : List PendingStart
  rail : Rail
  select : SelectApp
  closing : List String
  refreshes : List RefreshCall
  closes : List CloseCall
  deriving DecidableEq, Repr

/-- What counts as true of a string that may be missing. -/
def truthyId (id : Option String) : Option String := id.filter (fun id => id ≠ "")

namespace ServerRail

/-- The webview as it is loaded. -/
def start : ServerRail :=
  ⟨[], [], ⟨⟨[], 0, 0, false⟩, 0⟩, ⟨none, none, true, []⟩, [], [], []⟩

/-- The generation of the newest refresh. -/
def refreshGeneration (app : ServerRail) : Nat := app.refreshes.length

/-- The rows of `displayed` before they are ordered (`main.js:577-590`). -/
def rows (app : ServerRail) : List ServerRow :=
  let regIds := app.servers.map (fun s => s.id)
  let stillPending := app.pending.filter (fun p => p.id ∉ regIds)
  let visibleIds := regIds ++ stillPending.map (fun p => p.id)
  let inboxOnly := app.rail.inbox.tabs.filter (fun tab => tab.sessionId ∉ visibleIds)
  app.servers.map .server ++ stillPending.map .pending ++ inboxOnly.map (fun tab =>
    .agentOnly tab.sessionId (if tab.title.isEmpty then tab.sessionId else tab.title))

/-- The place of a session among the tabs (`main.js:591`): the last of a key is its value. -/
def tabOrder (app : ServerRail) (id : String) : Option Nat :=
  (app.rail.inbox.tabs.zipIdx.reverse.find? (fun entry => entry.1.sessionId = id)).map
    (fun entry => entry.2)

/-- `displayed` (`main.js:576-599`). -/
def displayed (app : ServerRail) : List ServerRow :=
  let ranked := app.rows.zipIdx.map (fun entry =>
    (entry.1, (app.tabOrder entry.1.id).getD (10000 + entry.2), entry.2))
  (ranked.mergeSort (fun a b => a.2.1 < b.2.1 ∨ a.2.1 = b.2.1 ∧ a.2.2 ≤ b.2.2)).map
    (fun entry => entry.1)

/-- `clearLocalSelection` (`main.js:176-182`). -/
def clearLocalSelection (app : ServerRail) (id : String) : ServerRail :=
  let sel := app.select
  let sel := if sel.selected = some id then { sel with selected := none } else sel
  let sel := if sel.desiredSelection = some id then
      { sel with desiredSelection := none, desiredAcknowledge := true }
    else sel
  { app with select := sel }

/-- `refreshServers` up to its first `await` (`main.js:1535-1539`). -/
def refreshServers (app : ServerRail) : ServerRail :=
  { app with refreshes := app.refreshes ++ [.listing] }

/-- `refreshServers` with the answers to its calls (`main.js:1545-1573`). -/
def applied (app : ServerRail) (nextServers : List MuxSession) (backendSelected : Option String) :
    ServerRail :=
  let app := { app with
    servers := nextServers
    pending := app.pending.filter (fun p => !nextServers.any (fun s => s.id = p.id)) }
  let ids := app.displayed.map ServerRow.id
  let preferred := (truthyId app.select.desiredSelection).or app.select.selected
  let desired := app.select.desiredSelection
  let next := ((truthyId preferred).filter (fun id => id ∈ ids)).or
    ((truthyId backendSelected).filter (fun id => id ∈ ids))
  let sel := { app.select with selected := next }
  match next, nextServers with
  | none, first :: _ => { app with
      select := { sel with desiredSelection := none, desiredAcknowledge := true }.selectServer
        first.id }
  | none, [] => { app with select := sel }
  | some id, _ =>
    if nextServers.any (fun s => s.id = id) ∧ (desired = some id ∨ backendSelected ≠ some id) then
      { app with select := sel.selectServer id }
    else { app with select := sel }

/-- `refreshServers` from its last answer on (`main.js:1544-1573`): a call that is not the newest
changes nothing. -/
def receive (app : ServerRail) (n : Nat) (nextServers : List MuxSession)
    (backendSelected : Option String) (call : RefreshCall) : ServerRail :=
  let app' := { app with refreshes := app.refreshes.set n call }
  if n + 1 = app.refreshGeneration then app'.applied nextServers backendSelected else app'

/-- What `spawnServer` does with the id of a server that was spawned (`main.js:1367-1369`). -/
def spawned (app : ServerRail) (id : String) (now : Nat) : ServerRail :=
  { app with
    pending := app.pending.filter (fun p => p.id ≠ id) ++ [⟨id, id, now, false⟩]
    select := app.select.selectServer id }

/-- `closeServer` up to its `await` (`main.js:1379-1394`). -/
def closeServer (app : ServerRail) (id : String) : ServerRail :=
  if id ∈ app.closing then app
  else
    let app := { app with
      servers := app.servers.filter (fun s => s.id ≠ id)
      pending := app.pending.filter (fun p => p.id ≠ id)
      rail := app.rail.removeInboxSession id }.clearLocalSelection id
    { app with
      closing := app.closing ++ [id]
      closes := app.closes ++ [⟨id, app.refreshGeneration, true⟩] }

/-- `retryServer` up to its `await` (`main.js:1413-1419`). -/
def retryServer (app : ServerRail) (id : String) : ServerRail :=
  { app with
    closing := if id ∈ app.closing then app.closing else app.closing ++ [id]
    pending := app.pending.filter (fun p => p.id ≠ id) }

/-- `retryServer` once the old server is closed (`main.js:1421-1423`). -/
def retried (app : ServerRail) (id : String) : ServerRail :=
  let app := app.clearLocalSelection id
  { app with closing := app.closing.filter (fun c => c ≠ id) }.refreshServers

/-- The `finally` of `retryServer` (`main.js:1427-1431`). -/
def retryEnded (app : ServerRail) (id : String) : ServerRail :=
  { app with closing := app.closing.filter (fun c => c ≠ id) }

/-- `applyLocalServerLabel` (`main.js:1156-1159`). -/
def applyLocalServerLabel (app : ServerRail) (id label : String) : ServerRail :=
  { app with
    servers := app.servers.map (fun srv =>
      if srv.id = id then { srv with label, renamed := true } else srv)
    pending := app.pending.map (fun srv =>
      if srv.id = id then { srv with label, renamed := true } else srv) }

/-- `renameRow` from the answer of the host on (`main.js:1178-1180`). -/
def renameRow (app : ServerRail) (id saved : String) : ServerRail :=
  (app.applyLocalServerLabel id saved).refreshServers

/-- `activateServer` (`main.js:869-887`). -/
def activateServer (app : ServerRail) (id : String) (acknowledge : Bool) : ServerRail :=
  if id = "" then app
  else
    match app.displayed.find? (fun row => row.id = id) with
    | some (.agentOnly _ _) => { app with
        select := { app.select with
          selected := some id
          desiredSelection := some id
          desiredAcknowledge := acknowledge } }
    | _ => { app with select := app.select.selectServer id }

end ServerRail

/-- The host as the rail sees it: the servers spawned and registered, the one selected, whether they
have changed since `servers-changed` was emitted last, and how many of these events are under
way. -/
structure RailHost where
  spawned : List MuxSession
  registered : List MuxSession
  selected : Option String
  unemitted : Bool
  events : Nat
  deriving DecidableEq, Repr

/-- `get_servers` (`mux.rs:287-291`). -/
def RailHost.servers (host : RailHost) : List MuxSession :=
  mergedServers host.spawned host.registered

/-- The host and its webview. -/
structure ServerSystem where
  host : RailHost
  app : ServerRail
  deriving DecidableEq, Repr

/-- What happens to the servers and the selection of the host, what passes between it and the
webview, and what the webview is told besides. -/
inductive ServerSystemStep where
  | change (spawned registered : List MuxSession)
  | select (selected : Option String)
  | emit
  | serversChanged
  | refresh
  | evaluate (call : Nat)
  | deliver (call : Nat)
  | reject (call : Nat)
  | inbox (inbox : RenderedInbox)
  | spawned (id : String) (now : Nat)
  | closeServer (id : String)
  | closed (call : Nat)
  | closeRejected (call : Nat)
  | closeSettled (call : Nat)
  | retryServer (id : String)
  | retried (id : String)
  | retryEnded (id : String)
  | renamed (id saved : String)
  | activate (id : String) (acknowledge : Bool)
  | answer (step : SelectStep)
  | syncSelection (selected : Option String)
  deriving DecidableEq, Repr

namespace ServerSystem

/-- A host with the servers that it found, and the webview as it is loaded. -/
def start (spawned registered : List MuxSession) : ServerSystem :=
  ⟨⟨spawned, registered, none, false, 0⟩, .start⟩

/-- The host carries out the call a refresh waits for. -/
def evaluate (s : ServerSystem) (n : Nat) : ServerSystem :=
  match s.app.refreshes[n]? with
  | some .listing =>
    { s with app := { s.app with refreshes := s.app.refreshes.set n (.listed s.host.servers) } }
  | some (.selecting servers) =>
    { s with app := { s.app with
        refreshes := s.app.refreshes.set n (.selectedIs servers s.host.selected) } }
  | _ => s

/-- The answer gets to the webview: after `get_servers` it asks for the selection. -/
def deliver (s : ServerSystem) (n : Nat) : ServerSystem :=
  match s.app.refreshes[n]? with
  | some (.listed servers) =>
    { s with app := { s.app with refreshes := s.app.refreshes.set n (.selecting servers) } }
  | some (.selectedIs servers backendSelected) =>
    { s with app := s.app.receive n servers backendSelected (.done servers) }
  | _ => s

/-- A call of the host fails (`main.js:1541-1543`): the list is then an empty one. -/
def reject (s : ServerSystem) (n : Nat) : ServerSystem :=
  match s.app.refreshes[n]? with
  | none | some (.done _) | some .failed => s
  | some _ => { s with app := s.app.receive n [] none .failed }

/-- `closeServer` from its answer on (`main.js:1395-1409`). -/
def closed (s : ServerSystem) (n : Nat) : ServerSystem :=
  match s.app.closes[n]? with
  | some call =>
    if call.awaiting then
      { s with app := { s.app with
          closes := s.app.closes.set n { call with awaiting := false } }.refreshServers }
    else s
  | none => s

/-- The `catch` of `closeServer`, and its `finally` (`main.js:1404-1409`). -/
def closeRejected (s : ServerSystem) (n : Nat) : ServerSystem :=
  match s.app.closes[n]? with
  | some call =>
    if call.awaiting then
      { s with app := { s.app with
          closes := s.app.closes.set n { call with awaiting := false }
          closing := s.app.closing.filter (fun id => id ≠ call.id) } }
    else s
  | none => s

/-- The `finally` of `closeServer` after its refresh (`main.js:1406-1409`). -/
def closeSettled (s : ServerSystem) (n : Nat) : ServerSystem :=
  match s.app.closes[n]? with
  | some call =>
    if call.awaiting then s
    else { s with app := { s.app with
        closing := s.app.closing.filter (fun id => id ≠ call.id) } }
  | none => s

/-- What happens to the host, what passes between it and the webview, and what the webview does by
itself. -/
def step (s : ServerSystem) : ServerSystemStep → ServerSystem
  -- whatever the supervisor and the registry do
  | .change spawned registered =>
    let host := { s.host with spawned, registered }
    { s with host := { host with
        unemitted := s.host.unemitted || decide (host.servers ≠ s.host.servers) } }
  | .select selected => { s with host := { s.host with selected } }
  | .emit => { s with host := { s.host with unemitted := false, events := s.host.events + 1 } }
  | .serversChanged =>
    if s.host.events = 0 then s
    else ⟨{ s.host with events := s.host.events - 1 }, s.app.refreshServers⟩
  | .refresh => { s with app := s.app.refreshServers }
  | .evaluate n => s.evaluate n
  | .deliver n => s.deliver n
  | .reject n => s.reject n
  | .inbox inbox => { s with app := { s.app with rail := s.app.rail.setInbox inbox } }
  | .spawned id now => { s with app := s.app.spawned id now }
  | .closeServer id => { s with app := s.app.closeServer id }
  | .closed n => s.closed n
  | .closeRejected n => s.closeRejected n
  | .closeSettled n => s.closeSettled n
  | .retryServer id => { s with app := s.app.retryServer id }
  | .retried id => { s with app := s.app.retried id }
  | .retryEnded id => { s with app := s.app.retryEnded id }
  | .renamed id saved => { s with app := s.app.renameRow id saved }
  | .activate id acknowledge => { s with app := s.app.activateServer id acknowledge }
  | .answer step => { s with app := { s.app with select := s.app.select.step step } }
  -- `__fleetSyncSelection` (`main.js:1577-1585`)
  | .syncSelection selected => { s with app := { s.app with
      select := { s.app.select with
        selected
        desiredSelection := none
        desiredAcknowledge := true } } }

/-- A run from the start of the host and its webview. -/
def run (spawned registered : List MuxSession) (steps : List ServerSystemStep) : ServerSystem :=
  steps.foldl step (start spawned registered)

/-- Nothing is under way that the list of the rail waits for: every change was told of and every
such event has arrived, the newest refresh has found its answers, and every closing was followed by
a refresh. -/
def Quiet (s : ServerSystem) : Prop :=
  s.host.unemitted = false ∧ s.host.events = 0 ∧
    (∃ servers, s.app.refreshes.getLast? = some (.done servers)) ∧
    ∀ call ∈ s.app.closes, call.generation < s.app.refreshGeneration

end ServerSystem

end VsFleet
