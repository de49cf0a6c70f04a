import Mathlib.Data.List.Basic

/-!
# Opening a server

`selectServer` of the webview (`fleet-host/ui/main.js`): the server is shown selected at once, and
what was selected before is put back if the backend does not open it. Between the call of the
backend and its answer another server may be selected. What the status line tells is left out.
-/

namespace VsFleet

/-- What has come of the `await` of a call. -/
inductive SelectReply where
  | awaiting
  | opened
  | failed
  deriving DecidableEq, Repr

/-- A call of `selectServer` from its `await` on: its target and what it has kept. -/
structure SelectCall where
  id : String
  previousSelected : Option String
  previousDesired : Option String
  previousDesiredAcknowledge : Bool
  reply : SelectReply
  deriving DecidableEq, Repr

/-- The selection (`main.js:45-47`) and the calls there have been. -/
structure SelectApp where
  selected : Option String
  desiredSelection : Option String
  desiredAcknowledge : Bool
  calls : List SelectCall
  deriving DecidableEq, Repr

/-- The calls of `selectServer` and what the backend answers to each. -/
inductive SelectStep where
  | selectServer (id : String)
  | opened (call : Nat)
  | refused (call : Nat)
  | error (call : Nat)
  deriving DecidableEq, Repr

namespace SelectApp

/-- `selectServer` up to its `await` (`main.js:1434-1445`). -/
def selectServer (app : SelectApp) (id : String) : SelectApp :=
  { selected := some id
    desiredSelection := none
    desiredAcknowledge := true
    calls := app.calls ++
      [⟨id, app.selected, app.desiredSelection, app.desiredAcknowledge, .awaiting⟩] }

/-- What a refusal and an error restore (`main.js:1450-1452`, `main.js:1456-1458`). -/
def restore (app : SelectApp) (n : Nat) (call : SelectCall) : SelectApp :=
  { selected := call.previousSelected
    desiredSelection := call.previousDesired
    desiredAcknowledge := call.previousDesiredAcknowledge
    calls := app.calls.set n { call with reply := .failed } }

/-- A selection, or the answer to a call that one made. -/
def step (app : SelectApp) : SelectStep → SelectApp
  | .selectServer id => app.selectServer id
  | .opened n =>
    match app.calls[n]? with
    | some call =>
      if call.reply = .awaiting then
        { app with calls := app.calls.set n { call with reply := .opened } }
      else app
    | none => app
  | .refused n | .error n =>
    match app.calls[n]? with
    | some call => if call.reply = .awaiting then app.restore n call else app
    | none => app

/-- No call is in flight. -/
def Settled (app : SelectApp) : Prop := ∀ call ∈ app.calls, call.reply ≠ .awaiting

instance (app : SelectApp) : Decidable app.Settled :=
  inferInstanceAs (Decidable (∀ call ∈ app.calls, call.reply ≠ .awaiting))

end SelectApp

end VsFleet
