import VsFleet.Host.Rail

/-!
# Optimistic actions

`runOptimistic` of the webview (`fleet-host/ui/main.js`): a mute, a solo or a focus changes the
shown inbox at once, and a failure puts the inbox from before it back if there has been no other
inbox since. Between the call of the backend and its answer anything else may run.
-/

namespace VsFleet

/-- `actionKey` (`main.js:478-480`). -/
def actionKey (id action : String) : String := action ++ ":" ++ id

/-- A call of `runOptimistic` from its `await` on: what it has kept, and whether it still awaits the
answer. -/
structure OptimisticCall where
  key : String
  previousInbox : RenderedInbox
  optimisticRevision : Nat
  awaiting : Bool
  deriving DecidableEq, Repr

/-- The rail with the actions on it that are busy and the calls there have been. -/
structure RailApp where
  rail : Rail
  sessionActions : List String
  calls : List OptimisticCall
  deriving DecidableEq, Repr

/-- What the user does, the answers to the calls, and the inboxes the host pushes. -/
inductive RailStep where
  | setSessionMuted (id : String) (muted : Bool)
  | setSessionSoloed (id : String) (soloed : Bool)
  | focusSession (id : String)
  | resolve (call : Nat)
  | reject (call : Nat)
  | push (inbox : RenderedInbox)
  deriving DecidableEq, Repr

namespace RailApp

/-- The webview shows an inbox and nothing is busy. -/
def start (inbox : RenderedInbox) : RailApp := ⟨⟨inbox, 0⟩, [], []⟩

/-- `runOptimistic` up to its `await` (`main.js:1274-1283`). -/
def runOptimistic (app : RailApp) (id action : String) (localMutate : Rail → Rail) : RailApp :=
  let key := actionKey id action
  if key ∈ app.sessionActions then app
  else
    let rail := localMutate app.rail
    { rail
      sessionActions := app.sessionActions ++ [key]
      calls := app.calls ++ [⟨key, app.rail.inbox, rail.inboxRevision, true⟩] }

/-- `setSessionMuted` (`main.js:1297-1308`). -/
def setSessionMuted (app : RailApp) (id : String) (muted : Bool) : RailApp :=
  app.runOptimistic id "mute" (fun rail => rail.applyLocalMute id muted)

/-- `setSessionSoloed` (`main.js:1310-1321`). -/
def setSessionSoloed (app : RailApp) (id : String) (soloed : Bool) : RailApp :=
  app.runOptimistic id "solo" (fun rail => rail.applyLocalSolo id soloed)

/-- `focusSession` (`main.js:1345-1357`). -/
def focusSession (app : RailApp) (id : String) : RailApp :=
  if app.rail.inbox.connected then
    app.runOptimistic id "focus" (fun rail => rail.applyLocalFocus id)
  else app

/-- The `finally` of `runOptimistic` (`main.js:1291-1294`). -/
def settle (app : RailApp) (n : Nat) (call : OptimisticCall) : RailApp :=
  { app with
    sessionActions := app.sessionActions.filter (fun key => key ≠ call.key)
    calls := app.calls.set n { call with awaiting := false } }

/-- The `catch` of `runOptimistic` (`main.js:1284-1290`). -/
def rollBack (app : RailApp) (call : OptimisticCall) : RailApp :=
  if app.rail.inboxRevision = call.optimisticRevision then
    { app with rail := app.rail.setInbox call.previousInbox }
  else app

/-- A click, or the answer to the call it made. -/
def step (app : RailApp) : RailStep → RailApp
  | .setSessionMuted id muted => app.setSessionMuted id muted
  | .setSessionSoloed id soloed => app.setSessionSoloed id soloed
  | .focusSession id => app.focusSession id
  | .resolve n =>
    match app.calls[n]? with
    | some call => if call.awaiting then app.settle n call else app
    | none => app
  | .reject n =>
    match app.calls[n]? with
    | some call => if call.awaiting then (app.rollBack call).settle n call else app
    | none => app
  -- the handler of `inbox` (`main.js:1593`)
  | .push inbox => { app with rail := app.rail.setInbox inbox }

/-- No action is in flight. -/
def Quiet (app : RailApp) : Prop := ∀ call ∈ app.calls, call.awaiting = false

instance (app : RailApp) : Decidable app.Quiet :=
  inferInstanceAs (Decidable (∀ call ∈ app.calls, call.awaiting = false))

end RailApp

end VsFleet
