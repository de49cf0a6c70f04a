import Mathlib.Data.List.Basic

/-!
# The connection of the bridge extension

What `activate` does to stay connected to Fleet (`fleet-bridge/src/extension.ts`): the variables its
handlers share, and of the runtime the sockets it has dialed and the timers that are pending. The
commands that come in over a socket leave all of them alone.
-/

namespace VsFleet

namespace FleetBridge

/-- What `activate` and the `open` handler read of `process.env`. -/
structure BridgeEnv where
  bridgeSocket : Option String
  bridgeUrl : Option String
  serverId : Option String
  serverUrl : Option String
  serverLabel : Option String
  bridgeToken : Option String
  deriving DecidableEq, Repr

/-- A string that is there and not empty. -/
def truthy (s : Option String) : Option String := s.filter (fun s => s ≠ "")

/-- `CAPS` (`extension.ts:60-77`). -/
def caps : List String :=
  ["command", "query", "openFile", "typeText", "termSend", "writeFile", "saveAll", "closeEditor",
    "fileContent", "terminalText", "diagnostics", "openEditors", "setting", "extensions",
    "editorText", "selection"]

/-- `bridgeTarget` (`extension.ts:79-104`). -/
def bridgeTarget (env : BridgeEnv) : Option String :=
  match truthy env.bridgeSocket with
  | some socket => some ("ws+unix://" ++ socket ++ ":/")
  | none => truthy env.bridgeUrl

/-- `BACKOFF_START_MS` (`extension.ts:110`). -/
def backoffStartMs : Nat := 1000

/-- `BACKOFF_MAX_MS` (`extension.ts:111`). -/
def backoffMaxMs : Nat := 30000

/-- `nextBackoff` (`extension.ts:125-128`). -/
def nextBackoff (prevMs : Nat) : Nat := min (prevMs * 2) backoffMaxMs

/-- The registration that a server pushes (`extension.ts:230-237`). -/
structure Registration where
  serverId : String
  url : String
  label : String
  caps : List String
  token : String
  deriving DecidableEq, Repr

/-- What the extension sends. -/
inductive Frame where
  | hello (registration : Registration)
  | ping
  deriving DecidableEq, Repr

/-- A socket: whether it has opened, `close` has been called on it, and it has closed. -/
structure Socket where
  target : String
  opened : Bool
  closing : Bool
  closed : Bool
  deriving DecidableEq, Repr

/-- A socket opened, or the close of one put off the next dial. -/
inductive Happening where
  | opened (socket : Nat)
  | retry (socket : Nat) (delayMs : Nat)
  deriving DecidableEq, Repr

/-- The variables of `activate` (`extension.ts:131-209`); the sockets dialed, by number; the pending
timeouts and the running intervals, each of these with the socket it pings, by the number of the
timer; what has been sent, and what has happened. -/
structure Bridge where
  target : String
  serverId : String
  ws : Option Nat
  disposed : Bool
  retry : Option Nat
  backoffMs : Nat
  heartbeat : Option Nat
  sockets : List Socket
  timeouts : List Nat
  intervals : List (Nat × Nat)
  timers : Nat
  sent : List (Nat × Frame)
  history : List Happening
  deriving DecidableEq, Repr

namespace Bridge

/-- `clearHeartbeat` (`extension.ts:210-215`). -/
def clearHeartbeat (b : Bridge) : Bridge :=
  match b.heartbeat with
  | some timer => { b with
      heartbeat := none
      intervals := b.intervals.filter (fun interval => interval.1 ≠ timer) }
  | none => b

section ClearHeartbeat

variable (b : Bridge)

@[simp] theorem clearHeartbeat_heartbeat : b.clearHeartbeat.heartbeat = none := by
  unfold clearHeartbeat
  split
  · rfl
  · assumption

@[simp] theorem clearHeartbeat_ws : b.clearHeartbeat.ws = b.ws := by
  unfold clearHeartbeat; split <;> rfl

@[simp] theorem clearHeartbeat_disposed : b.clearHeartbeat.disposed = b.disposed := by
  unfold clearHeartbeat; split <;> rfl

@[simp] theorem clearHeartbeat_retry : b.clearHeartbeat.retry = b.retry := by
  unfold clearHeartbeat; split <;> rfl

@[simp] theorem clearHeartbeat_backoffMs : b.clearHeartbeat.backoffMs = b.backoffMs := by
  unfold clearHeartbeat; split <;> rfl

@[simp] theorem clearHeartbeat_sockets : b.clearHeartbeat.sockets = b.sockets := by
  unfold clearHeartbeat; split <;> rfl

@[simp] theorem clearHeartbeat_timeouts : b.clearHeartbeat.timeouts = b.timeouts := by
  unfold clearHeartbeat; split <;> rfl

@[simp] theorem clearHeartbeat_history : b.clearHeartbeat.history = b.history := by
  unfold clearHeartbeat; split <;> rfl

/-- The heartbeat that is cleared is the only interval there is. -/
theorem clearHeartbeat_intervals (none_left : b.heartbeat = none → b.intervals = [])
    (one : ∀ timer, b.heartbeat = some timer → ∃ socket, b.intervals = [(timer, socket)]) :
    b.clearHeartbeat.intervals = [] := by
  unfold clearHeartbeat
  split
  · obtain ⟨socket, only⟩ := one _ ‹_›
    simp [only]
  · exact none_left ‹_›

end ClearHeartbeat

/-- `connect` (`extension.ts:217-222`). -/
def connect (b : Bridge) : Bridge :=
  if b.disposed then b
  else { b with
    ws := some b.sockets.length
    sockets := b.sockets ++ [⟨b.target, false, false, false⟩] }

/-- The registration the extension says hello with. -/
def registration (b : Bridge) (env : BridgeEnv) : Registration where
  serverId := b.serverId
  url := (truthy env.serverUrl).getD ""
  label := (truthy env.serverLabel).getD b.serverId
  caps := caps
  token := (truthy env.bridgeToken).getD ""

/-- The `open` handler of a socket (`extension.ts:224-256`). -/
def onOpen (b : Bridge) (env : BridgeEnv) (socket : Nat) : Bridge :=
  let b : Bridge := { b with
    backoffMs := backoffStartMs
    sent := b.sent ++ [(socket, .hello (b.registration env))]
    history := b.history ++ [.opened socket] }
  let b := b.clearHeartbeat
  { b with
    heartbeat := some b.timers
    intervals := b.intervals ++ [(b.timers, socket)]
    timers := b.timers + 1 }

/-- `reconnect`, the `close` handler of a socket (`extension.ts:541-553`). -/
def reconnect (b : Bridge) (socket : Nat) : Bridge :=
  if b.disposed ∨ b.retry.isSome ∨ b.ws ≠ some socket then b
  else
    let b := b.clearHeartbeat
    { b with
      backoffMs := nextBackoff b.backoffMs
      retry := some b.timers
      timeouts := b.timeouts ++ [b.timers]
      timers := b.timers + 1
      history := b.history ++ [.retry socket b.backoffMs] }

/-- `socket.close()`: the socket will close, and it does not open any more. -/
def close (b : Bridge) (socket : Nat) : Bridge :=
  { b with sockets := b.sockets.modify socket (fun socket => { socket with closing := true }) }

/-- `dispose` (`extension.ts:560-565`). -/
def dispose (b : Bridge) : Bridge :=
  let b : Bridge := { b with
    disposed := true
    timeouts := match b.retry with
      | some timer => b.timeouts.filter (fun pending => pending ≠ timer)
      | none => b.timeouts }
  let b := b.clearHeartbeat
  match b.ws with
  | some socket => b.close socket
  | none => b

end Bridge

/-- `activate` (`extension.ts:130-567`): dormant without a target and a server id. -/
def activate (env : BridgeEnv) : Option Bridge :=
  match bridgeTarget env, truthy env.serverId with
  | some target, some serverId => some (Bridge.connect
      ⟨target, serverId, none, false, none, backoffStartMs, none, [], [], [], 0, [], []⟩)
  | _, _ => none

/-- What the runtime calls back with: the events of a socket, a timeout that expires, an interval
that ticks, and the disposal. -/
inductive Event where
  | opened (socket : Nat)
  | errored (socket : Nat)
  | closed (socket : Nat)
  | expired (timer : Nat)
  | ticked (timer : Nat)
  | disposed
  deriving DecidableEq, Repr

namespace Bridge

/-- Closing is the last thing a socket does; it opens once, and not after `close`. A timer that is
not pending any more does not fire, and there is one disposal. -/
def enabled (b : Bridge) : Event → Bool
  | .opened socket =>
    b.sockets[socket]?.any (fun socket => !socket.opened && !socket.closing && !socket.closed)
  | .errored socket | .closed socket => b.sockets[socket]?.any (fun socket => !socket.closed)
  | .expired timer => timer ∈ b.timeouts
  | .ticked timer => timer ∈ b.intervals.map Prod.fst
  | .disposed => !b.disposed

/-- An event and its handler. -/
def step (env : BridgeEnv) (b : Bridge) : Event → Bridge
  | .opened socket =>
    let b : Bridge := { b with
      sockets := b.sockets.modify socket (fun socket => { socket with opened := true }) }
    b.onOpen env socket
  | .errored socket => b.close socket
  | .closed socket =>
    let b : Bridge := { b with
      sockets := b.sockets.modify socket (fun socket => { socket with closed := true }) }
    b.reconnect socket
  | .expired timer =>
    let b : Bridge := { b with
      timeouts := b.timeouts.filter (fun pending => pending ≠ timer)
      retry := none }
    b.connect
  | .ticked timer =>
    { b with
      sent := b.sent ++ (b.intervals.filter (fun interval => interval.1 = timer)).map
        (fun interval => (interval.2, .ping)) }
  | .disposed => b.dispose

/-- The socket dialed last has not closed. -/
def Live (b : Bridge) : Prop :=
  ∃ n socket, b.ws = some n ∧ b.sockets[n]? = some socket ∧ socket.closed = false

end Bridge

end FleetBridge

end VsFleet
