import VsFleet.Extension.Heartbeat
import VsFleet.Extension.OscParser

/-!
# A window of the editor

What the extension keeps going in a window between its activation and its disposal
(`packages/extension/src/extension.ts`): the connection to the Hub with its heartbeat and the status
bar, the reporter it supervises, and the readers of the terminals' streams, whose frames it passes
on. The runtime calls back in any order that its objects allow.
-/

namespace VsFleet

namespace Extension

/-! ## The connection -/

/-- `ConnectionStatus` (`connection.ts:29-33`). -/
inductive ConnectionStatus where
  | connecting
  | connected
  | disconnected
  | error
  deriving DecidableEq, Repr

/-- What `open` tells apart in an endpoint (`connection.ts:151-163`). -/
inductive Endpoint where
  | ws (url : String)
  | unix (path : String)
  deriving DecidableEq, Repr

/-- An endpoint as it is shown. -/
def Endpoint.text : Endpoint → String
  | .ws url => url
  | .unix path => "unix:" ++ path

/-- The text and the tooltip of the status bar. -/
structure StatusAppearance where
  text : String
  tooltip : String
  deriving DecidableEq, Repr

/-- `appearanceFor` (`statusBar.ts:25-48`). -/
def appearanceFor (status : ConnectionStatus) (detail : String) : StatusAppearance :=
  match status with
  | .connecting => ⟨"$(sync~spin) Fleet", "Fleet: connecting to Hub (" ++ detail ++ ")"⟩
  | .connected => ⟨"$(circle-filled) Fleet", "Fleet: connected (" ++ detail ++ ")"⟩
  | .disconnected => ⟨"$(circle-outline) Fleet", "Fleet: disconnected (" ++ detail ++ ")"⟩
  | .error => ⟨"$(warning) Fleet", "Fleet: error — " ++ detail⟩

/-- A message of the window to the Hub (`extension.ts:171-180`). -/
inductive WindowFrame where
  | subscribe
  | upsert (message : ClientMessage)
  | osc (sessionId : String) (frame : OscFrame)

/-- `readyState` of a WebSocket. -/
inductive ReadyState where
  | connecting
  | opened
  | closing
  | closed
  deriving DecidableEq, Repr

/-- The unix socket below a WebSocket. -/
inductive RawState where
  | connecting
  | connected
  | destroyed
  deriving DecidableEq, Repr

/-- `HubConnection` (`connection.ts:51-68`), with the status bar that listens to it. Of the runtime:
the WebSocket and the unix socket that were made, the pending intervals, the number of intervals so
far, and the messages sent. -/
structure HubConnection where
  endpoint : Endpoint
  sessionId : String
  status : ConnectionStatus
  detail : String
  ws : Bool
  unixSocket : Bool
  heartbeatTimer : Option Nat
  disposed : Bool
  listening : Bool
  bar : StatusAppearance
  socket : Option ReadyState
  raw : Option RawState
  intervals : List Nat
  timers : Nat
  sent : List WindowFrame

namespace HubConnection

/-- `_emit` (`connection.ts:111-117`). -/
def emit (c : HubConnection) (status : ConnectionStatus) (detail : String) : HubConnection :=
  { c with
    status
    detail
    bar := if c.listening then appearanceFor status detail else c.bar }

/-- `send` (`connection.ts:86-91`). -/
def send (c : HubConnection) (frame : WindowFrame) : HubConnection :=
  if c.ws ∧ c.socket = some .opened then { c with sent := c.sent ++ [frame] } else c

/-- `_stopHeartbeat` (`connection.ts:134-139`). -/
def stopHeartbeat (c : HubConnection) : HubConnection :=
  match c.heartbeatTimer with
  | some timer => { c with
      heartbeatTimer := none
      intervals := c.intervals.filter (fun pending => pending ≠ timer) }
  | none => c

/-- `_startHeartbeat` (`connection.ts:119-132`). -/
def startHeartbeat (c : HubConnection) : HubConnection :=
  let c := c.stopHeartbeat
  if c.disposed then c
  else { c with
    heartbeatTimer := some c.timers
    intervals := c.intervals ++ [c.timers]
    timers := c.timers + 1 }

/-- `_connectWs` and `_connectUnix` up to their handlers (`connection.ts:165-177`,
`connection.ts:212-215`): `refused` is why the WebSocket cannot be made. -/
def open_ (endpoint : Endpoint) (sessionId : String) (refused : Option String) : HubConnection :=
  let c : HubConnection := ⟨endpoint, sessionId, .connecting, "", false, false, none, false, false,
    ⟨"$(sync~spin) Fleet", "Fleet: initializing…"⟩, none, none, [], 0, []⟩
  let c := c.emit .connecting endpoint.text
  match endpoint with
  | .unix _ => { c with unixSocket := true, raw := some .connecting }
  | .ws _ =>
    match refused with
    | some err => c.emit .error ("WebSocket construction failed: " ++ err)
    | none => { c with ws := true, socket := some .connecting }

/-- The `connect` handler of the unix socket (`connection.ts:217-226`). -/
def onConnect (c : HubConnection) : HubConnection :=
  if c.disposed then { c with raw := some .destroyed }
  else { c with ws := true, socket := some .connecting }

/-- The `open` handler of a WebSocket (`connection.ts:179-185`, `connection.ts:228-233`). -/
def onOpen (c : HubConnection) : HubConnection :=
  if c.disposed then { c with socket := some .closing }
  else ((c.emit .connected c.endpoint.text).send .subscribe).startHeartbeat

/-- The `error` handler of a WebSocket (`connection.ts:192-195`, `connection.ts:239-242`). -/
def onError (c : HubConnection) (err : String) : HubConnection :=
  if c.disposed then c else c.emit .error err

/-- The `close` handler of a WebSocket (`connection.ts:197-202`, `connection.ts:244-253`). -/
def onClose (c : HubConnection) : HubConnection :=
  if c.disposed then c
  else
    let c := c.stopHeartbeat
    let c : HubConnection := { c with
      ws := false
      unixSocket := match c.endpoint with
        | .unix _ => false
        | .ws _ => c.unixSocket }
    c.emit .disconnected ("closed: " ++ c.endpoint.text)

/-- The `error` handler of the unix socket (`connection.ts:256-260`). -/
def onRawError (c : HubConnection) (err : String) : HubConnection :=
  if c.disposed then c else { c with unixSocket := false }.emit .error err

/-- The tick of an interval (`connection.ts:122-131`). -/
def onTick (c : HubConnection) (now : String) : HubConnection :=
  if c.disposed then c.stopHeartbeat else c.send (.upsert (heartbeatMessage c.sessionId now))

/-- `dispose` (`connection.ts:94-107`). -/
def dispose (c : HubConnection) : HubConnection :=
  if c.disposed then c
  else
    let c := { c with disposed := true }.stopHeartbeat
    let c : HubConnection := if c.ws then { c with
        ws := false
        socket := c.socket.map (fun state => if state = .closed then .closed else .closing) } else c
    let c : HubConnection := if c.unixSocket then { c with
        unixSocket := false
        raw := some .destroyed } else c
    c.emit .disconnected "disposed"

end HubConnection

/-- What the runtime calls the connection back with; `closing` is a close of the other side that the
socket has seen. -/
inductive ConnEvent where
  | connected
  | rawErrored (err : String)
  | opened
  | errored (err : String)
  | closing
  | closed
  | ticked (timer : Nat) (now : String)

namespace HubConnection

/-- Each socket opens once, and after its close nothing comes from it; an interval ticks as long as
it is pending. -/
def enabled (c : HubConnection) : ConnEvent → Bool
  | .connected => c.raw = some .connecting
  | .rawErrored _ => c.raw.any (fun state => state ≠ .destroyed)
  | .opened => c.socket = some .connecting
  | .errored _ => c.socket.any (fun state => state ≠ .closed)
  | .closing => c.socket = some .opened
  | .closed => c.socket.any (fun state => state ≠ .closed)
  | .ticked timer _ => timer ∈ c.intervals

/-- The events of the sockets and the timers, each with its handler. -/
def step (c : HubConnection) : ConnEvent → HubConnection
  | .connected => { c with raw := some .connected }.onConnect
  | .rawErrored err => { c with raw := some .destroyed }.onRawError err
  | .opened => { c with socket := some .opened }.onOpen
  | .errored err => c.onError err
  | .closing => { c with socket := some .closing }
  | .closed => { c with socket := some .closed }.onClose
  | .ticked _ now => c.onTick now

end HubConnection

/-! ## The reporter -/

/-- A child process: it runs, has been asked to end, has ended, or could not be started. -/
inductive ChildState where
  | running
  | killed
  | exited
  | failed
  deriving DecidableEq, Repr

/-- `ReporterSupervisor` (`reporter.ts:56-66`), with the children it has started and the pending
timeouts; a child is a place among them. -/
structure ReporterSupervisor where
  child : Option Nat
  disposed : Bool
  restartTimer : Option Nat
  children : List ChildState
  timeouts : List Nat
  timers : Nat
  deriving DecidableEq, Repr

/-- What a child process or a timer of the supervisor does. -/
inductive ReporterEvent where
  | exited (child : Nat)
  | failed (child : Nat)
  | expired (timer : Nat)
  deriving DecidableEq, Repr

namespace ReporterSupervisor

/-- The supervisor before its first start. -/
def new : ReporterSupervisor := ⟨none, false, none, [], [], 0⟩

/-- `start` (`reporter.ts:78-93`); `_starts` is the number of the children. -/
def start (s : ReporterSupervisor) : ReporterSupervisor :=
  if s.disposed ∨ s.child.isSome then s
  else { s with child := some s.children.length, children := s.children ++ [.running] }

/-- The `exit` handler (`reporter.ts:94-102`). -/
def onExit (s : ReporterSupervisor) : ReporterSupervisor :=
  let s := { s with child := none }
  if s.disposed then s
  else { s with
    restartTimer := some s.timers
    timeouts := s.timeouts ++ [s.timers]
    timers := s.timers + 1 }

/-- `dispose` (`reporter.ts:111-121`). -/
def dispose (s : ReporterSupervisor) : ReporterSupervisor :=
  let s := { s with
    disposed := true
    timeouts := match s.restartTimer with
      | some timer => s.timeouts.filter (fun pending => pending ≠ timer)
      | none => s.timeouts
    restartTimer := none }
  match s.child with
  | some n => { s with child := none, children := s.children.set n .killed }
  | none => s

/-- A child ends once, or fails to start instead; a timeout fires as long as it is pending. -/
def enabled (s : ReporterSupervisor) : ReporterEvent → Bool
  | .exited n => s.children[n]?.any (fun child => child = .running ∨ child = .killed)
  | .failed n => s.children[n]?.any (fun child => child = .running ∨ child = .killed)
  | .expired timer => timer ∈ s.timeouts

/-- The events of the children and the timers, each with its handler. -/
def step (s : ReporterSupervisor) : ReporterEvent → ReporterSupervisor
  | .exited n => { s with children := s.children.set n .exited }.onExit
  | .failed n => { s with children := s.children.set n .failed, child := none }
  | .expired timer =>
    { s with
      timeouts := s.timeouts.filter (fun pending => pending ≠ timer)
      restartTimer := none }.start

end ReporterSupervisor

/-! ## The streams -/

/-- The reader of an execution (`readStream.ts:172-204`): the signal of its controller, its parser,
whether its loop is over, and the chunks it has pushed. -/
structure StreamReader where
  aborted : Bool
  parser : OscParser
  finished : Bool
  chunks : List JsString
  deriving DecidableEq, Repr

/-- The reader of a terminal execution that has just begun: it subscribes to its own parser. -/
def StreamReader.new : StreamReader := ⟨false, { OscParser.new with onFrame := some [] }, false, []⟩

/-- `ReadStreamManager` (`readStream.ts:98-112`), with all readers there have been, and the frames
its callback has been called with, each with its execution. -/
structure ReadStreamManager where
  subscription : Bool
  disposed : Bool
  onFrame : Bool
  readers : List StreamReader
  recovered : List (Nat × OscFrame)
  deriving DecidableEq, Repr

namespace ReadStreamManager

/-- A manager whose callback is set (`extension.ts:162-180`). -/
def new : ReadStreamManager := ⟨true, false, true, [], []⟩

/-- An execution starts (`readStream.ts:157-162`). -/
def listen (m : ReadStreamManager) : ReadStreamManager :=
  if m.disposed then m else { m with readers := m.readers ++ [.new] }

/-- The loop of a reader ends (`readStream.ts:191-197`). -/
def finish (m : ReadStreamManager) (n : Nat) : ReadStreamManager :=
  { m with readers := m.readers.modify n (fun r => { r with
      finished := true
      parser := r.parser.reset }) }

/-- A chunk comes (`readStream.ts:187-190`): the frames the callback is called with. -/
def chunk (m : ReadStreamManager) (n : Nat) (text : JsString) :
    List OscFrame × ReadStreamManager :=
  match m.readers[n]? with
  | none => ([], m)
  | some r =>
    if r.finished then ([], m)
    else if r.aborted ∨ m.disposed then ([], m.finish n)
    else
      -- a chunk takes two passes for each of its code units at most
      match r.parser.push (2 * text.length) text with
      | none => ([], m)
      | some (frames, parser) =>
        let told := if m.onFrame then frames else []
        (told, { m with
          readers := m.readers.set n { r with parser, chunks := r.chunks ++ [text] }
          recovered := m.recovered ++ told.map (fun frame => (n, frame)) })

/-- `dispose` (`readStream.ts:135-152`). -/
def dispose (m : ReadStreamManager) : ReadStreamManager :=
  if m.disposed then m
  else { m with
    disposed := true
    readers := m.readers.map (fun r => if r.finished then r else { r with aborted := true })
    subscription := false
    onFrame := false }

end ReadStreamManager

/-! ## The window -/

/-- A window: its connection to the Hub, the supervisor of its reporter and the readers of its
terminals. -/
structure Window where
  conn : HubConnection
  reporter : ReporterSupervisor
  streams : ReadStreamManager

/-- What happens in a window: a call back to its connection or to its reporter, an execution that
starts, its next chunk, its end, and the disposal. -/
inductive WindowEvent where
  | conn (event : ConnEvent)
  | reporter (event : ReporterEvent)
  | execution
  | chunk (execution : Nat) (text : JsString)
  | ended (execution : Nat)
  | disposed

namespace Window

/-- `activate` (`extension.ts:59-182`), of the connection, the reporter and the streams. -/
def activate (endpoint : Endpoint) (sessionId : String) (refused : Option String) : Window where
  conn := { HubConnection.open_ endpoint sessionId refused with listening := true }
  reporter := ReporterSupervisor.new.start
  streams := .new

/-- `dispose` of the subscription (`extension.ts:196-205`); nothing listens to the connection any
more. -/
def dispose (w : Window) : Window where
  conn := { w.conn with listening := false }.dispose
  reporter := w.reporter.dispose
  streams := w.streams.dispose

/-- Whether an event can come: its socket, its child or its timer is there. -/
def enabled (w : Window) : WindowEvent → Bool
  | .conn event => w.conn.enabled event
  | .reporter event => w.reporter.enabled event
  | .execution => w.streams.subscription
  | .chunk _ _ | .ended _ => true
  | .disposed => true

/-- An event goes to the part of the window that it concerns. -/
def step (w : Window) : WindowEvent → Window
  | .conn event => { w with conn := w.conn.step event }
  | .reporter event => { w with reporter := w.reporter.step event }
  | .execution => { w with streams := w.streams.listen }
  | .chunk n text =>
    let (frames, streams) := w.streams.chunk n text
    { w with
      streams
      conn := frames.foldl (fun c frame => c.send (.osc c.sessionId frame)) w.conn }
  | .ended n => { w with streams := w.streams.finish n }
  | .disposed => w.dispose

end Window

end Extension

end VsFleet
