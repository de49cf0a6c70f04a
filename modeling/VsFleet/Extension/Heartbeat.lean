import VsFleet.Reporter.Driver

/-!
# The heartbeat of the editor extension

The VS Code extension keeps a connection of its own to the Hub beside the reporter of its window,
under the same session id, and sends a session upsert on a timer
(`packages/extension/src/connection.ts`). Nothing orders the two streams: a heartbeat can reach the
Hub between any two messages of the reporter.
-/

namespace VsFleet

/-- `heartbeatMessage` (`connection.ts:276-301`), as the Hub parses it: the keys it leaves out are
absent. `now` is the time it is built at. -/
def heartbeatMessage (sessionId now : String) : ClientMessage :=
  .sessionUpsert {
    schemaVersion := 1
    sessionId := sessionId
    title := "VS Code editor"
    location := ⟨.local, "editor", .laptop, none, []⟩
    editor := none
    server := ⟨.local, none, []⟩
    runs := []
    rollupState := .idle
    rollupUrgency := none
    muted := false
    soloed := false
    unread := false
    tags := []
    policy := none
    updatedAt := now
    extra := [] }

/-- What reaches the Hub for a session of the two streams, with whether the append it makes, if any,
fails. -/
inductive Arrival where
  | reporter (frame : Frame) (fails : Bool)
  | heartbeat (now : String) (fails : Bool)

/-- The reporter stream alone. -/
def Arrival.ofReporter : Arrival → Bool
  | .reporter _ _ => true
  | .heartbeat _ _ => false

namespace StateStore

/-- The store with the outcome of its next append. -/
def facing (store : StateStore) (fails : Bool) : StateStore :=
  { store with log := { store.log with faults := [fails] } }

/-- The Hub takes what arrives, and its appends may fail while it does. -/
def arrive (sessionId : String) (store : StateStore) : Arrival → StateStore
  | .reporter frame fails => (store.facing fails).hear frame
  | .heartbeat now fails =>
    ((store.facing fails).applyMessage (.asStored Session) (heartbeatMessage sessionId now)).2

/-- The runs, the rollups and the unread flag the Hub holds for the session. -/
def held (store : StateStore) (sessionId : String) :
    Option (List AgentRun × State × Option Urgency × Bool) :=
  (store.engine.session sessionId).map
    (fun s => (s.runs, s.rollupState, s.rollupUrgency, s.unread))

end StateStore

end VsFleet
