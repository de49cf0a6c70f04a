import VsFleet.Hub.Connection
import VsFleet.Hub.Proofs.PublishedView

/-!
# A face that reads in time is current

What a subscribed connection has sent and what its receiver has yet to read always lead to the
published snapshot. A receiver that falls more than the capacity of the channel behind breaks this:
the events it skips are neither sent nor made up for.
-/

namespace VsFleet

/-- The frames sent, and then what the receiver has yet to read, fold to the published snapshot. -/
structure Connection.Follows (c : Connection) (sent : List Event) (published : List Session) :
    Prop where
  behind : c.rx ≤ sent.length
  fold : (sent.drop c.rx).foldl Event.fold (c.frames.foldl Event.fold []) = published

/-- What a read within the capacity does to a connection that is served. -/
theorem Connection.forwardBroadcast_value {c : Connection} {sent : List Event}
    (served : c.opened = true ∧ c.subscribed = true) (behind : c.rx < sent.length)
    (intime : sent.length ≤ c.rx + broadcastCapacity) :
    c.forwardBroadcast sent =
      { c with rx := c.rx + 1, frames := c.frames ++ [sent[c.rx]] } := by
  rw [forwardBroadcast, served.1, served.2, recv_value _ _ behind intime]
  rfl

/-- A read beyond it skips events: nothing is sent for them. -/
theorem Connection.forwardBroadcast_lagged {c : Connection} {sent : List Event}
    (served : c.opened = true ∧ c.subscribed = true)
    (late : c.rx + broadcastCapacity < sent.length) :
    c.forwardBroadcast sent = { c with rx := sent.length - broadcastCapacity } := by
  rw [forwardBroadcast, served.1, served.2, recv_lagged _ _ late]
  rfl

theorem Connection.forwardBroadcast_opened (c : Connection) (sent : List Event) :
    (c.forwardBroadcast sent).opened = c.opened := by
  unfold forwardBroadcast
  split
  · split <;> rfl
  · rfl

theorem Connection.forwardBroadcast_subscribed (c : Connection) (sent : List Event) :
    (c.forwardBroadcast sent).subscribed = c.subscribed := by
  unfold forwardBroadcast
  split
  · split <;> rfl
  · rfl

namespace Connection.Follows

variable {c : Connection} {sent : List Event} {published : List Session}

theorem publish (h : c.Follows sent published) (events : List Event) :
    c.Follows (sent ++ events) (events.foldl Event.fold published) := by
  constructor
  · rw [List.length_append]
    exact Nat.le_trans h.behind (Nat.le_add_right _ _)
  · rw [List.drop_append_of_le_length h.behind, List.foldl_append, h.fold]

/-- A subscription starts over, whatever was sent before. -/
theorem subscribe (c : Connection) (sent : List Event) (F : Fleet) :
    Connection.Follows { c with
      rx := sent.length
      subscribed := true
      frames := c.frames ++ [.ofSnapshot F.sessions] } sent F.sessions := by
  constructor
  · exact Nat.le_refl _
  · rw [List.drop_length, List.foldl_append]
    exact KeyedList.foldl_upsert F.sessions [] F.distinct

theorem forward (h : c.Follows sent published)
    (intime : c.opened = true → c.subscribed = true → sent.length ≤ c.rx + broadcastCapacity) :
    (c.forwardBroadcast sent).Follows sent published := by
  by_cases served : c.opened = true ∧ c.subscribed = true
  · by_cases behind : c.rx < sent.length
    · rw [forwardBroadcast_value served behind (intime served.1 served.2)]
      refine ⟨behind, ?_⟩
      have fold := h.fold
      rw [List.drop_eq_getElem_cons behind, List.foldl_cons] at fold
      rw [List.foldl_append]
      exact fold
    · have drained : c.rx = sent.length := Nat.le_antisymm h.behind (Nat.not_lt.mp behind)
      have waits := recv_waits broadcastCapacity sent
      rw [forwardBroadcast, served.1, served.2, drained, waits]
      exact h
  · rw [forwardBroadcast, if_neg (by simpa using served)]
    exact h

theorem shown (h : c.Follows sent published) (drained : c.rx = sent.length) :
    c.shown = published := by
  have holds := InboxModel.Holds.applyAll c.frames InboxModel.Holds.new
  have fold := h.fold
  rw [drained, List.drop_length] at fold
  rw [Connection.shown, holds.values]
  exact fold

end Connection.Follows

namespace HubState

/-- The published snapshot is that of a fleet. -/
theorem Consistent.published {hub : HubState} (h : hub.Consistent) :
    ∃ F : Fleet, hub.published = F.sessions := by
  obtain ⟨F, -, view⟩ := h
  split at view
  · exact ⟨F, view.published⟩
  · obtain ⟨-, F₀, at₀, -⟩ := view
    exact ⟨F₀, at₀.published⟩

theorem Consistent.publish_fold {hub : HubState} (h : hub.Consistent)
    (parseEpochSecs : String → Option Int) :
    ((hub.pending.map Prod.fst).getD []).foldl Event.fold hub.published =
      (hub.step parseEpochSecs .publish).published := by
  obtain ⟨F, -, view⟩ := h
  cases hp : hub.pending with
  | none =>
    simp only [HubState.step, hp]
    rfl
  | some pending =>
    obtain ⟨events, snapshot⟩ := pending
    rw [hp] at view
    obtain ⟨taken, F₀, at₀, fold⟩ := view
    simp only [HubState.step, hp, taken, ← fold, at₀.published]
    rfl

theorem commit_published (parseEpochSecs : String → Option Int) (hub : HubState)
    (closure : Closure) : (hub.step parseEpochSecs (.commit closure)).published =
      hub.published := by
  simp only [HubState.step]
  split
  · rfl
  · split <;> rfl

end HubState

/-! ## The run of the server -/

namespace HubServer

variable {parseEpochSecs : String → Option Int} {i : Nat} {server : HubServer}

/-- A garbage-collection pass is whole, and the receiver of connection `i` is not beyond the
capacity of the channel when it is read. -/
def InTime (parseEpochSecs : String → Option Int) (i : Nat) (server : HubServer) :
    ServeStep → Prop
  | .commit closure => server.hub.CommitWhole parseEpochSecs (.commit closure)
  | .forward j => j = i → ∀ c, server.connections[i]? = some c → c.opened = true →
      c.subscribed = true → server.sent.length ≤ c.rx + broadcastCapacity
  | _ => True

/-- The Hub is consistent, and connection `i`, once its client has subscribed, follows it. -/
structure InStep (i : Nat) (server : HubServer) : Prop where
  consistent : server.hub.Consistent
  follows : ∀ c, server.connections[i]? = some c → c.opened = true → c.subscribed = true →
    c.Follows server.sent server.hub.published

theorem InStep.fromStore (i : Nat) (log : EventLog) : (fromStore (.fromLog log)).InStep i :=
  ⟨.fromLog log, by simp [HubServer.fromStore]⟩

/-- What a step of the task of one connection does to connection `i`. -/
theorem InStep.modify (h : server.InStep i) {j : Nat} {f : Connection → Connection}
    (own : ∀ c, server.connections[i]? = some c → (f c).opened = true → (f c).subscribed = true →
      j = i → (f c).Follows server.sent server.hub.published) :
    InStep i { server with connections := server.connections.modify j f } := by
  refine ⟨h.consistent, fun c found opened subscribed => ?_⟩
  simp only [List.getElem?_modify] at found
  cases held : server.connections[i]? with
  | none =>
    rw [held] at found
    cases found
  | some c₀ =>
    rw [held] at found
    by_cases same : j = i
    · simp only [same, if_true, Option.map_eq_map, Option.map_some, Option.some.injEq] at found
      subst found
      exact own c₀ held opened subscribed same
    · simp only [same, if_false, Option.map_eq_map, Option.map_some, Option.some.injEq] at found
      subst found
      exact h.follows c₀ held opened subscribed

theorem InStep.step (h : server.InStep i) (step : ServeStep)
    (inTime : server.InTime parseEpochSecs i step) :
    (server.step parseEpochSecs step).InStep i := by
  cases step with
  | commit closure =>
    refine ⟨h.consistent.step (.commit closure) inTime, fun c found opened subscribed => ?_⟩
    simp only [HubServer.step, HubState.commit_published]
    exact h.follows c found opened subscribed
  | publish =>
    have consistent : (server.hub.step parseEpochSecs .publish).Consistent :=
      h.consistent.step .publish trivial
    refine ⟨consistent, fun c found opened subscribed => ?_⟩
    have follows := (h.follows c found opened subscribed).publish
      ((server.hub.pending.map Prod.fst).getD [])
    rw [h.consistent.publish_fold parseEpochSecs] at follows
    exact follows
  | accept =>
    refine ⟨h.consistent, fun c found opened subscribed => ?_⟩
    simp only [HubServer.step, List.getElem?_append] at found
    split at found
    · exact h.follows c found opened subscribed
    · obtain rfl := List.mem_singleton.mp (List.mem_of_getElem? found)
      cases subscribed
  | subscribe j =>
    refine h.modify (fun c found opened subscribed same => ?_)
    obtain ⟨F, published⟩ := h.consistent.published
    unfold Connection.handleSubscribe at opened ⊢
    split at opened
    · rename_i served
      rw [if_pos served, published]
      exact Connection.Follows.subscribe c server.sent F
    · rename_i closed
      exact absurd opened closed
  | forward j =>
    refine h.modify (fun c found opened subscribed same => ?_)
    have kept : c.opened = true ∧ c.subscribed = true := by
      rw [Connection.forwardBroadcast_opened] at opened
      rw [Connection.forwardBroadcast_subscribed] at subscribed
      exact ⟨opened, subscribed⟩
    exact (h.follows c found kept.1 kept.2).forward (inTime same c found)
  | close j => exact h.modify (fun c found opened => by cases opened)

end HubServer

/-- In every interleaving of commits, publications and connections over a Hub opened on any log, a
subscribed connection that is open and has sent all that was broadcast shows the Hub's current
state, if it was never beyond the capacity of the channel when it read, and every garbage-collection
pass was whole. -/
theorem drained_face_current (parseEpochSecs : String → Option Int) (log : EventLog) (i : Nat)
    (steps : List ServeStep)
    (inTime : Along (HubServer.step parseEpochSecs) (HubServer.InTime parseEpochSecs i)
      (.fromStore (.fromLog log)) steps) :
    let server := steps.foldl (HubServer.step parseEpochSecs) (.fromStore (.fromLog log))
    ∀ c, server.connections[i]? = some c → c.opened = true → c.subscribed = true →
      c.rx = server.sent.length →
      c.shown = server.hub.published ∧
        (server.hub.pending = none → c.shown = server.hub.store.snapshot) := by
  intro server c found opened subscribed drained
  have inStep : server.InStep i :=
    inTime.invariant (fun _ step h ok => h.step step ok) steps _ (.fromStore i log)
  have shown := (inStep.follows c found opened subscribed).shown drained
  refine ⟨shown, fun free => ?_⟩
  obtain ⟨F, live, view⟩ := inStep.consistent
  rw [free] at view
  rw [shown, view.published, StateStore.snapshot, live.snapshot]

/-- A subscribed face reads the one update it missed. -/
def readUpdate : List ServeStep :=
  [.commit (.message (.asStored _) (.sessionUpsert (.plain "a" []))), .publish, .accept,
    .subscribe 0, .commit (.message (.asStored _) (.sessionUpsert (.plain "b" []))), .publish,
    .forward 0]

theorem drained_face_current_update :
    let server := readUpdate.foldl (HubServer.step (fun _ => none))
      (.fromStore (.fromLog (.holding [] [])))
    ∀ c, server.connections[0]? = some c → c.opened = true → c.subscribed = true →
      c.rx = server.sent.length →
      c.shown = server.hub.published ∧
        (server.hub.pending = none → c.shown = server.hub.store.snapshot) := by
  refine drained_face_current (fun _ => none) (.holding [] []) 0 readUpdate
    ⟨trivial, trivial, trivial, trivial, trivial, trivial, fun _ c found _ _ => ?_, trivial⟩
  have few : 2 ≤ broadcastCapacity := by decide
  exact Nat.le_trans few (Nat.le_add_left _ _)

/-! ## A receiver beyond the capacity -/

/-- A connection within the capacity, left to itself, sends all that was broadcast. -/
theorem HubServer.drain (parseEpochSecs : String → Option Int) (i n : Nat) : ∀ {server : HubServer}
    {c : Connection}, server.connections[i]? = some c → c.opened = true → c.subscribed = true →
    c.rx + n = server.sent.length → n ≤ broadcastCapacity →
    (List.replicate n (ServeStep.forward i)).foldl (HubServer.step parseEpochSecs) server =
      { server with
        connections := server.connections.set i
          { c with rx := server.sent.length, frames := c.frames ++ server.sent.drop c.rx } } := by
  induction n with
  | zero =>
    intro server c found _ _ drained _
    have read : ({ c with
        rx := server.sent.length
        frames := c.frames ++ server.sent.drop c.rx } : Connection) = c := by
      rw [Nat.add_zero] at drained
      rw [← drained, List.drop_eq_nil_of_le (Nat.le_of_eq drained.symm), List.append_nil]
    obtain ⟨hi, at_i⟩ := List.getElem?_eq_some_iff.mp found
    rw [read, ← at_i, List.set_getElem_self]
    rfl
  | succ n ih =>
    intro server c found opened subscribed rest few
    have behind : c.rx < server.sent.length := by omega
    have read := Connection.forwardBroadcast_value ⟨opened, subscribed⟩ behind (by omega)
    have next : (server.step parseEpochSecs (.forward i)).connections[i]? =
        some { c with rx := c.rx + 1, frames := c.frames ++ [server.sent[c.rx]] } := by
      simp only [HubServer.step, List.getElem?_modify_eq, found, ← read]
      rfl
    rw [List.replicate_succ, List.foldl_cons, ih next opened subscribed
      (by simp only [HubServer.step]; omega) (by omega)]
    simp only [HubServer.step, HubServer.mk.injEq, true_and]
    rw [List.drop_eq_getElem_cons behind, List.append_assoc, List.singleton_append]
    apply List.ext_getElem?
    intro j
    by_cases own : i = j
    · subst own
      simp [List.getElem?_set]
    · simp [own]

/-- The session of the lagging run that stays. -/
def sessionB : Session := .plain "b" []

/-- The row of a report of it. -/
def rowB : Option Json := some (PersistEvent.serialize (.sessionUpsert sessionB))

/-- The Hub that holds it alone, whatever its log and its connections. -/
def holdingB (rows : List (Option Json)) (sent : List Event)
    (connections : List Connection) : HubServer where
  hub :=
    { store :=
        { log := { rows, faults := [] }
          engine := ⟨(∅ : HashMap String Session).insert "b" sessionB, ["b"]⟩
          reclaim := .new
          sessionDurables := ∅ }
      pending := none
      published := [sessionB]
      subscribers := [] }
  sent := sent
  connections := connections

/-- A report that changes nothing, and is broadcast all the same. -/
def reportB : List ServeStep :=
  [.commit (.message (.asStored _) (.sessionUpsert sessionB)), .publish]

theorem reportB_run (rows : List (Option Json)) (sent : List Event)
    (connections : List Connection) :
    reportB.foldl (HubServer.step (fun _ => none)) (holdingB rows sent connections) =
      holdingB (rows ++ [rowB]) (sent ++ [.ofSessionUpdated sessionB]) connections := rfl

theorem reportsB_run (k : Nat) : ∀ (rows : List (Option Json)) (sent : List Event)
    (connections : List Connection),
    (List.replicate k reportB).flatten.foldl (HubServer.step (fun _ => none))
        (holdingB rows sent connections) =
      holdingB (rows ++ List.replicate k rowB)
        (sent ++ List.replicate k (.ofSessionUpdated sessionB)) connections := by
  induction k with
  | zero => simp
  | succ k ih =>
    intro rows sent connections
    rw [List.replicate_succ, List.flatten_cons, List.foldl_append, reportB_run, ih]
    simp [List.replicate_succ]

/-- The frames of a face that subscribed to two sessions. -/
def givenBoth (rx : Nat) : Connection := ⟨rx, true, [.ofSnapshot [.plain "a" [], sessionB]], true⟩

/-- A face subscribes to two sessions, and the first is removed. -/
def missRemoval : List ServeStep :=
  [.commit (.message (.asStored _) (.sessionUpsert (.plain "a" []))), .publish,
    .commit (.message (.asStored _) (.sessionUpsert sessionB)), .publish, .accept, .subscribe 0,
    .commit (.message (.asStored _) (.sessionRemove "a")), .publish]

/-- The rows of the log by then. -/
def missedRows : List (Option Json) :=
  [some (PersistEvent.serialize (.sessionUpsert (.plain "a" []))), rowB,
    some (PersistEvent.serialize (.sessionRemove "a"))]

/-- The events that were broadcast by then. -/
def missedEvents : List Event :=
  [.ofSessionAdded (.plain "a" []), .ofSessionAdded sessionB, .ofSessionRemoved "a"]

theorem missRemoval_run : missRemoval.foldl (HubServer.step (fun _ => none))
      (.fromStore (.fromLog (.holding [] []))) =
    holdingB missedRows missedEvents [givenBoth 2] := rfl

/-- With one event too many to read, the connection skips the third event broadcast and sends
the others. -/
theorem lagged_drain (rows : List (Option Json)) {start later : List Event}
    (start_length : start.length = 3) (later_length : later.length = broadcastCapacity) :
    (List.replicate (broadcastCapacity + 1) (ServeStep.forward 0)).foldl
        (HubServer.step (fun _ => none)) (holdingB rows (start ++ later) [givenBoth 2]) =
      holdingB rows (start ++ later) [{ givenBoth (start ++ later).length with
        frames := (givenBoth 2).frames ++ later }] := by
  have length : (start ++ later).length = 3 + broadcastCapacity := by
    rw [List.length_append, start_length, later_length]
  have skipped : (givenBoth 2).forwardBroadcast (start ++ later) = givenBoth 3 := by
    have late : (givenBoth 2).rx + broadcastCapacity < (start ++ later).length := by
      rw [length]
      exact Nat.add_lt_add_right (by decide) _
    rw [Connection.forwardBroadcast_lagged ⟨rfl, rfl⟩ late, length, Nat.add_sub_cancel]
    rfl
  have lagged : (holdingB rows (start ++ later) [givenBoth 2]).step (fun _ => none) (.forward 0) =
      holdingB rows (start ++ later) [givenBoth 3] :=
    congrArg (fun c => holdingB rows (start ++ later) [c]) skipped
  have rest : (start ++ later).drop (givenBoth 3).rx = later := List.drop_left' start_length
  have found : (holdingB rows (start ++ later) [givenBoth 3]).connections[0]? =
      some (givenBoth 3) := rfl
  have full : (givenBoth 3).rx + broadcastCapacity =
      (holdingB rows (start ++ later) [givenBoth 3]).sent.length := length.symm
  rw [List.replicate_succ, List.foldl_cons, lagged,
    HubServer.drain (fun _ => none) 0 _ found rfl rfl full (Nat.le_refl _)]
  exact congrArg (fun frames => holdingB rows (start ++ later)
    [{ givenBoth (start ++ later).length with frames := (givenBoth 2).frames ++ frames }]) rest

/-- Enough reports follow before the connection reads for the removal to be overwritten, and then it
reads all that is left. -/
def lagSteps : List ServeStep :=
  missRemoval ++ (List.replicate broadcastCapacity reportB).flatten ++
    List.replicate (broadcastCapacity + 1) (.forward 0)

theorem lagSteps_run : ∃ rows sent, lagSteps.foldl (HubServer.step (fun _ => none))
      (.fromStore (.fromLog (.holding [] []))) = holdingB rows sent [{ givenBoth sent.length with
        frames := (givenBoth 2).frames ++
          List.replicate broadcastCapacity (.ofSessionUpdated sessionB) }] := by
  refine ⟨missedRows ++ List.replicate broadcastCapacity rowB,
    missedEvents ++ List.replicate broadcastCapacity (.ofSessionUpdated sessionB), ?_⟩
  rw [lagSteps, List.foldl_append, List.foldl_append, missRemoval_run, reportsB_run]
  exact lagged_drain _ rfl List.length_replicate

/-- The face keeps the session it was not told was removed. -/
theorem shown_both (rx : Nat) (k : Nat) : Connection.shown { givenBoth rx with
    frames := (givenBoth 2).frames ++ List.replicate k (.ofSessionUpdated sessionB) } =
      [.plain "a" [], sessionB] := by
  have kept : (List.replicate k (Event.ofSessionUpdated sessionB)).foldl Event.fold
      [.plain "a" [], sessionB] = [.plain "a" [], sessionB] := by
    induction k with
    | zero => rfl
    | succ k ih =>
      rw [List.replicate_succ, List.foldl_cons]
      exact ih
  have holds := InboxModel.Holds.applyAll ((givenBoth 2).frames ++
    List.replicate k (.ofSessionUpdated sessionB)) InboxModel.Holds.new
  rw [List.foldl_append] at holds
  exact holds.values.trans kept

/-- The connection goes on after the lag: the face shows a session the Hub removed. -/
theorem lagging_face_stale : ¬ ∀ (parseEpochSecs : String → Option Int) (log : EventLog) (i : Nat)
    (steps : List ServeStep),
    let server := steps.foldl (HubServer.step parseEpochSecs) (.fromStore (.fromLog log))
    ∀ c, server.connections[i]? = some c → c.opened = true → c.subscribed = true →
      c.rx = server.sent.length →
      c.shown = server.hub.published ∧
        (server.hub.pending = none → c.shown = server.hub.store.snapshot) := by
  intro current
  obtain ⟨rows, sent, run⟩ := lagSteps_run
  have shown := current (fun _ => none) (.holding [] []) 0 lagSteps
  rw [run] at shown
  have same := (shown _ rfl rfl rfl rfl).1
  rw [shown_both] at same
  have lengths : 2 = 1 := congrArg List.length same
  cases lengths

end VsFleet
