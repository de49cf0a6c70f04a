import VsFleet.Host.Link
import VsFleet.Misc.Runs

/-!
# The window keeps in step with the link

The native window is set by differences from the inbox shown before, and an unchanged inbox is not
pushed at all. Over any run of frames, drops and reconnects the window nevertheless shows what it
would show if it were set from the inbox each time, and the notifications sent are all the fold
fires.
-/

namespace VsFleet

/-- A title of a connected inbox is no title of the inbox that waits for the link. -/
theorem fleetWindowTitle_ne_disconnected {rendered : RenderedInbox}
    (connected : rendered.connected = true) :
    fleetWindowTitle rendered ≠ "Fleet (Disconnected)" := by
  have ends : ∀ digits : String, "Fleet (" ++ digits ++ " waiting)" ≠ "Fleet (Disconnected)" := by
    intro digits same
    have last := congrArg (fun s => s.toList.reverse.take 2) same
    simp only [String.toList_append, List.reverse_append] at last
    exact absurd last (by simp)
  rw [fleetWindowTitle, connected]
  match rendered.waitingCount with
  | 0 => decide
  | 1 => decide
  | n + 2 => exact ends (toString (n + 2))

theorem ifChanged_getD {α : Type} [DecidableEq α] {previous value shown : α}
    (same : shown = previous) : (ifChanged previous value).getD shown = value := by
  unfold ifChanged
  split
  · rfl
  · rename_i kept
    exact same.trans (not_not.mp kept)

namespace FaceLink

/-- The title and the badge are those of the inbox shown, and the window asks for the user only
while a session waits. -/
structure Shows (window : NativeWindow) (shared : RenderedInbox) : Prop where
  title : window.title = fleetWindowTitle shared
  badgeCount : window.badgeCount = waitingBadgeCount shared.waitingCount
  badgeLabel : window.badgeLabel = waitingBadgeLabel shared.waitingCount
  attention : window.attention = true → 0 < shared.waitingCount

/-- An update of the window from an inbox it shows, but for the title where the new one differs. -/
theorem Shows.updateIndicators {window : NativeWindow} {previous rendered : RenderedInbox}
    (title : window.title = fleetWindowTitle previous ∨
      fleetWindowTitle rendered ≠ fleetWindowTitle previous)
    (badgeCount : window.badgeCount = waitingBadgeCount previous.waitingCount)
    (badgeLabel : window.badgeLabel = waitingBadgeLabel previous.waitingCount)
    (attention : window.attention = true → 0 < previous.waitingCount)
    (outcomes : List NotificationOutcome) :
    Shows (window.updateIndicators previous rendered outcomes) rendered := by
  refine ⟨?_, ifChanged_getD badgeCount, ifChanged_getD badgeLabel, ?_⟩
  · rcases title with same | moved
    · exact ifChanged_getD same
    · change (ifChanged _ _).getD _ = _
      rw [ifChanged, if_pos (Ne.symm moved)]
      rfl
  · intro asks
    by_cases waits : 0 < rendered.waitingCount
    · exact waits
    · have none : rendered.waitingCount = 0 := by omega
      simp only [NativeWindow.updateIndicators, windowIndicatorUpdate] at asks
      by_cases before : previous.waitingCount > 0
      · rw [if_pos ⟨none, before⟩] at asks
        cases asks
      · rw [if_neg (fun h => before h.2), if_neg (fun h => waits h.1)] at asks
        exact absurd (attention asks) before

variable {parseEpochSecs : String → Option Int} {face : FaceLink} {rendered : RenderedInbox}
  {outcomes : List NotificationOutcome}

@[simp] theorem push_link : (face.push rendered outcomes).link = face.link := by
  unfold push
  split <;> rfl

@[simp] theorem push_queue : (face.push rendered outcomes).queue = face.queue := by
  unfold push
  split <;> rfl

@[simp] theorem push_wire : (face.push rendered outcomes).wire = face.wire := by
  unfold push
  split <;> rfl

/-- What is not emitted is what is shown, and calls for no notification. -/
theorem not_emitted (skipped : shouldEmitInboxUpdate face.shared rendered outcomes = false) :
    rendered = face.shared ∧ fired outcomes = [] := by
  unfold shouldEmitInboxUpdate at skipped
  split at skipped
  · cases skipped
  · rename_i same
    refine ⟨(not_not.mp same).symm, ?_⟩
    rw [List.any_eq_false] at skipped
    rw [fired, List.filterMap_eq_nil_iff]
    intro outcome mem
    have noop : outcome = .noop := by simpa using skipped outcome mem
    rw [noop]

theorem push_delivered :
    (face.push rendered outcomes).delivered = face.delivered ++ fired outcomes := by
  unfold push
  cases emits : shouldEmitInboxUpdate face.shared rendered outcomes with
  | true => rfl
  | false =>
    rw [(not_emitted emits).2, List.append_nil]
    rfl

/-- Before the first push the window is as it was opened, and the inbox the default one. -/
def Fresh (face : FaceLink) : Prop :=
  face.emitted = [] ∧ face.shared = start.shared ∧ face.window.title = "Fleet"

/-- The inbox shown is a rendering of the folded model, connected only while the link is; from the
first push on it is the last one emitted, and the window shows it. -/
structure InStep (parseEpochSecs : String → Option Int) (face : FaceLink) : Prop where
  shown : ∃ now, face.shared =
    renderAt parseEpochSecs face.link.model.view face.shared.connected now
  live : face.shared.connected = true → face.opened = true
  badgeCount : face.window.badgeCount = waitingBadgeCount face.shared.waitingCount
  badgeLabel : face.window.badgeLabel = waitingBadgeLabel face.shared.waitingCount
  attention : face.window.attention = true → 0 < face.shared.waitingCount
  pushed : face.Fresh ∨ (face.emitted.getLast? = some face.shared ∧
    face.window.title = fleetWindowTitle face.shared)

theorem InStep.start (parseEpochSecs : String → Option Int) : start.InStep parseEpochSecs where
  shown := ⟨none, by simp [FaceLink.start, renderAt, sortTabs, InboxModel.view, InboxModel.new,
    OrderedMap.values]⟩
  live := nofun
  badgeCount := rfl
  badgeLabel := rfl
  attention := nofun
  pushed := Or.inl ⟨rfl, rfl, rfl⟩

/-- A push of a rendering of the model, from a window in step with what was shown. -/
theorem InStep.push (h : face.InStep parseEpochSecs) {next : FaceLink}
    (shared : next.shared = face.shared) (window : next.window = face.window)
    (emitted : next.emitted = face.emitted)
    (shown : ∃ now, rendered =
      renderAt parseEpochSecs next.link.model.view rendered.connected now)
    (live : rendered.connected = true → next.opened = true)
    (fresh : face.Fresh → rendered.connected = true) :
    (next.push rendered outcomes).InStep parseEpochSecs := by
  cases emits : shouldEmitInboxUpdate next.shared rendered outcomes with
  | false =>
    have same : rendered = next.shared := (not_emitted emits).1
    have kept : next.push rendered outcomes = next := by
      rw [FaceLink.push, emits]
      rfl
    rw [kept]
    subst same
    refine ⟨shown, live, ?_, ?_, ?_, ?_⟩
    · rw [window, shared, h.badgeCount]
    · rw [window, shared, h.badgeLabel]
    · rw [window, shared]
      exact h.attention
    · rw [Fresh, window, shared, emitted]
      exact h.pushed
  | true =>
    have title : next.window.title = fleetWindowTitle next.shared ∨
        fleetWindowTitle rendered ≠ fleetWindowTitle next.shared := by
      rw [window, shared]
      rcases h.pushed with waits | ⟨-, title⟩
      · right
        rw [waits.2.1]
        exact fleetWindowTitle_ne_disconnected (fresh waits)
      · exact Or.inl title
    have shows : Shows (next.window.updateIndicators next.shared rendered outcomes) rendered := by
      refine Shows.updateIndicators title ?_ ?_ ?_ outcomes
      · rw [window, shared, h.badgeCount]
      · rw [window, shared, h.badgeLabel]
      · rw [window, shared]
        exact h.attention
    rw [FaceLink.push, emits]
    exact ⟨shown, live, shows.badgeCount, shows.badgeLabel, shows.attention,
      Or.inr ⟨by simp, shows.title⟩⟩

theorem InStep.markDisconnected (h : face.InStep parseEpochSecs) :
    ({ face with opened := false }.markDisconnected).InStep parseEpochSecs := by
  rw [FaceLink.markDisconnected]
  split
  · refine h.push rfl rfl rfl ?_ nofun (fun fresh => ?_)
    · obtain ⟨now, shown⟩ := h.shown
      exact ⟨now, congrArg (fun r : RenderedInbox => { r with connected := false }) shown⟩
    · rename_i connected
      rw [fresh.2.1] at connected
      cases connected
  · rename_i waiting
    exact ⟨h.shown, fun connected => absurd connected waiting, h.badgeCount, h.badgeLabel,
      h.attention, h.pushed⟩

/-- The queue and the socket are in no part of the window. -/
theorem InStep.send (h : face.InStep parseEpochSecs) (queue : List Command)
    (wire : List LinkFrame) : { face with queue, wire }.InStep parseEpochSecs :=
  ⟨h.shown, h.live, h.badgeCount, h.badgeLabel, h.attention, h.pushed⟩

theorem InStep.onEvent (h : face.InStep parseEpochSecs) (opened : face.opened = true) (ev : Event)
    (now : String) : (face.onEvent parseEpochSecs ev now).InStep parseEpochSecs :=
  h.push rfl rfl rfl ⟨some now, rfl⟩ (fun _ => opened) (fun _ => rfl)

/-- A command of the rail is queued while the inbox shown is connected, else refused. -/
theorem step_act (face : FaceLink) (sessionId : String) (action : RailAction) :
    face.step parseEpochSecs (.act sessionId action) =
      if face.shared.connected then
        { face with queue := face.queue ++ [action.command sessionId] }
      else face := by
  unfold step ensureConnected
  cases connected : face.shared.connected <;> rfl

theorem InStep.step (h : face.InStep parseEpochSecs) (event : LinkEvent) :
    (face.step parseEpochSecs event).InStep parseEpochSecs := by
  cases event with
  | connect succeeds =>
    rw [FaceLink.step]
    split
    · exact h
    · split
      · exact ⟨h.shown, fun _ => rfl, h.badgeCount, h.badgeLabel, h.attention, h.pushed⟩
      · exact h.markDisconnected
  | frame ev now =>
    cases ev with
    | none =>
      rw [FaceLink.step]
      split <;> exact h
    | some ev =>
      rw [FaceLink.step]
      split
      · rename_i opened
        exact h.onEvent opened ev now
      · exact h
  | forward succeeds =>
    rw [FaceLink.step]
    split
    · cases face.queue with
      | nil => exact h
      | cons command queue =>
        simp only
        split
        · exact h.send _ _
        · exact (h.send queue face.wire).markDisconnected
    · exact h
  | dropped =>
    rw [FaceLink.step]
    split
    · exact h.markDisconnected
    · exact h
  | act sessionId action =>
    rw [step_act]
    split
    · exact h.send _ _
    · exact h
  | focus focused => exact ⟨h.shown, h.live, h.badgeCount, h.badgeLabel, h.attention, h.pushed⟩

/-! ## The notifications -/

/-- The events a step folds. -/
def heard (face : FaceLink) : LinkEvent → List Event
  | .frame (some ev) _ => if face.opened then [ev] else []
  | _ => []

@[simp] theorem drop_link : face.drop.link = face.link := by
  unfold drop markDisconnected
  split
  · exact push_link
  · rfl

theorem drop_delivered : face.drop.delivered = face.delivered := by
  unfold drop markDisconnected
  split
  · exact push_delivered.trans (List.append_nil _)
  · rfl

variable (parseEpochSecs) in
/-- A step folds what it hears and notifies of what that fires. -/
theorem step_heard (face : FaceLink) (event : LinkEvent) :
    (face.step parseEpochSecs event).link = (face.link.onEvents (face.heard event)).1 ∧
      (face.step parseEpochSecs event).delivered =
        face.delivered ++ fired (face.link.onEvents (face.heard event)).2 := by
  have still : ∀ next : FaceLink, next.link = face.link → next.delivered = face.delivered →
      next.link = (face.link.onEvents []).1 ∧
        next.delivered = face.delivered ++ fired (face.link.onEvents []).2 := by
    intro next link delivered
    exact ⟨link, delivered.trans (List.append_nil _).symm⟩
  cases event with
  | frame ev now =>
    cases ev with
    | none =>
      refine still _ ?_ ?_ <;> (rw [step]; split <;> rfl)
    | some ev =>
      rw [step, heard]
      split
      · have one : face.link.onEvents [ev] = face.link.onEvent ev := by
          simp only [HubLink.onEvents, List.append_nil]
        rw [one]
        exact ⟨push_link, push_delivered⟩
      · exact still face rfl rfl
  | connect succeeds =>
    refine still _ ?_ ?_
    · rw [step]
      split
      · rfl
      · split
        · rfl
        · exact drop_link
    · rw [step]
      split
      · rfl
      · split
        · rfl
        · exact drop_delivered
  | forward succeeds =>
    refine still _ ?_ ?_
    · rw [step]
      split
      · cases face.queue with
        | nil => rfl
        | cons command queue =>
          simp only
          split
          · rfl
          · exact drop_link
      · rfl
    · rw [step]
      split
      · cases face.queue with
        | nil => rfl
        | cons command queue =>
          simp only
          split
          · rfl
          · exact drop_delivered
      · rfl
  | dropped =>
    refine still _ ?_ ?_
    · rw [step]
      split
      · exact drop_link
      · rfl
    · rw [step]
      split
      · exact drop_delivered
      · rfl
  | act sessionId action =>
    refine still _ ?_ ?_ <;> (rw [step_act]; split <;> rfl)
  | focus focused => exact still _ rfl rfl

end FaceLink

theorem HubLink.onEvents_append (evs evs' : List Event) : ∀ link : HubLink,
    link.onEvents (evs ++ evs') = (((link.onEvents evs).1.onEvents evs').1,
      (link.onEvents evs).2 ++ ((link.onEvents evs).1.onEvents evs').2) := by
  induction evs with
  | nil => exact fun _ => rfl
  | cons ev evs ih =>
    intro link
    simp only [List.cons_append, onEvents, ih, List.append_assoc]

namespace FaceLink

/-- From any state, what a run hears is what its link folds and what it notifies of. -/
theorem run_heard (parseEpochSecs : String → Option Int) (events : List LinkEvent) :
    ∀ face : FaceLink,
      let after := events.foldl (FaceLink.step parseEpochSecs) face
      let read := produced (FaceLink.step parseEpochSecs) FaceLink.heard face events
      after.link = (face.link.onEvents read).1 ∧
        after.delivered = face.delivered ++ fired (face.link.onEvents read).2 := by
  induction events with
  | nil => exact fun face => ⟨rfl, (List.append_nil _).symm⟩
  | cons event events ih =>
    intro face
    obtain ⟨link, delivered⟩ := ih (face.step parseEpochSecs event)
    obtain ⟨linked, sent⟩ := face.step_heard parseEpochSecs event
    simp only [List.foldl_cons, produced, HubLink.onEvents_append]
    rw [link, delivered, linked, sent, fired, fired, fired, List.filterMap_append,
      List.append_assoc]
    exact ⟨rfl, rfl⟩

theorem foldl_inStep (parseEpochSecs : String → Option Int) (events : List LinkEvent)
    {face : FaceLink} (h : face.InStep parseEpochSecs) :
    (events.foldl (FaceLink.step parseEpochSecs) face).InStep parseEpochSecs :=
  foldl_invariant (InStep parseEpochSecs) (fun _ event h => h.step event) events face h

/-- Over any run of frames, drops, reconnects and commands the window shows the folded model, and
the notifications sent are those the fold of the frames read fires, each once and in order. -/
theorem link_in_step (parseEpochSecs : String → Option Int) (events : List LinkEvent) :
    let face := events.foldl (FaceLink.step parseEpochSecs) .start
    let read := produced (FaceLink.step parseEpochSecs) FaceLink.heard .start events
    face.InStep parseEpochSecs ∧
      face.link = (FaceLink.start.link.onEvents read).1 ∧
      face.delivered = fired (FaceLink.start.link.onEvents read).2 :=
  ⟨foldl_inStep parseEpochSecs events (.start parseEpochSecs), run_heard parseEpochSecs events start⟩

/-! ## The commands -/

/-- The commands of the rail a step accepts. -/
def accepted (face : FaceLink) : LinkEvent → List Command
  | .act sessionId action => if face.shared.connected then [action.command sessionId] else []
  | _ => []

/-- The command a turn of the loop takes from the queue, with whether its send succeeded. -/
def taken (face : FaceLink) : LinkEvent → List (Command × Bool)
  | .forward succeeds =>
    if face.opened then (face.queue.head?.map (fun command => (command, succeeds))).toList else []
  | _ => []

/-- The command that a frame carries. -/
def sentCommand : LinkFrame → Option Command
  | .subscribe => none
  | .command command => some command

@[simp] theorem drop_queue (face : FaceLink) : face.drop.queue = face.queue := by
  unfold drop markDisconnected
  split
  · exact push_queue
  · rfl

@[simp] theorem drop_wire (face : FaceLink) : face.drop.wire = face.wire := by
  unfold drop markDisconnected
  split
  · exact push_wire
  · rfl

@[simp] theorem onEvent_queue (face : FaceLink) (ev : Event) (now : String) :
    (face.onEvent parseEpochSecs ev now).queue = face.queue := push_queue

@[simp] theorem onEvent_wire (face : FaceLink) (ev : Event) (now : String) :
    (face.onEvent parseEpochSecs ev now).wire = face.wire := push_wire

variable (parseEpochSecs) in
theorem step_queue (face : FaceLink) (event : LinkEvent) :
    face.queue ++ face.accepted event =
      (face.taken event).map Prod.fst ++ (face.step parseEpochSecs event).queue := by
  cases event with
  | act sessionId action =>
    simp only [step_act, accepted, taken]
    split
    · rfl
    · exact List.append_nil _
  | forward succeeds =>
    simp only [accepted, taken, step, List.append_nil]
    split
    · cases held : face.queue with
      | nil => exact held.symm
      | cons command queue => cases succeeds <;> simp
    · rfl
  | frame ev now =>
    cases ev with
    | none => simp only [accepted, taken, step, ite_self, List.append_nil, List.map_nil]; rfl
    | some ev =>
      simp only [accepted, taken, step, List.append_nil, List.map_nil, List.nil_append]
      split
      · rw [onEvent_queue]
      · rfl
  | connect succeeds =>
    simp only [accepted, taken, step, List.append_nil]
    split
    · rfl
    · split
      · rfl
      · exact (drop_queue face).symm
  | dropped =>
    simp only [accepted, taken, step, List.append_nil]
    split
    · exact (drop_queue face).symm
    · rfl
  | focus focused => exact List.append_nil _

variable (parseEpochSecs) in
theorem step_wire (face : FaceLink) (event : LinkEvent) :
    (face.step parseEpochSecs event).wire.filterMap sentCommand =
      face.wire.filterMap sentCommand ++ (face.taken event).filterMap
        (fun (command, sent) => if sent then some command else none) := by
  cases event with
  | act sessionId action =>
    simp only [step_act, taken]
    split <;> exact (List.append_nil _).symm
  | forward succeeds =>
    simp only [taken, step]
    split
    · cases face.queue with
      | nil => exact (List.append_nil _).symm
      | cons command queue => cases succeeds <;> simp [sentCommand]
    · exact (List.append_nil _).symm
  | frame ev now =>
    cases ev with
    | none => simp only [taken, step, ite_self, List.append_nil, List.filterMap_nil]
    | some ev =>
      simp only [taken, step, List.filterMap_nil, List.append_nil]
      split
      · rw [onEvent_wire]
      · rfl
  | connect succeeds =>
    simp only [taken, step, List.filterMap_nil, List.append_nil]
    split
    · rfl
    · split
      · simp [sentCommand]
      · rw [drop_wire]
  | dropped =>
    simp only [taken, step, List.filterMap_nil, List.append_nil]
    split
    · rw [drop_wire]
    · rfl
  | focus focused => exact (List.append_nil _).symm

/-- Over any run, drops and reconnects included, the commands accepted are those taken from the
queue followed by those still in it, and the commands sent on the socket are those taken whose send
succeeded: none is sent twice or out of order, and only a command whose own send failed is lost. -/
theorem commands_in_order (parseEpochSecs : String → Option Int) (events : List LinkEvent) :
    let face := events.foldl (FaceLink.step parseEpochSecs) .start
    let accepted := produced (FaceLink.step parseEpochSecs) FaceLink.accepted .start events
    let taken := produced (FaceLink.step parseEpochSecs) FaceLink.taken .start events
    accepted = taken.map Prod.fst ++ face.queue ∧
      face.wire.filterMap sentCommand =
        taken.filterMap (fun (command, sent) => if sent then some command else none) := by
  intro face accepted taken
  constructor
  · rw [map_produced]
    exact produced_fifo FaceLink.queue (step_queue parseEpochSecs) events start
  · rw [filterMap_produced]
    exact foldl_produced (fun face : FaceLink => face.wire.filterMap sentCommand)
      (step_wire parseEpochSecs) events start

end FaceLink

end VsFleet
