import VsFleet.Extension.Proofs.WindowParts

/-!
# What a window does, and what it leaves

The window subscribes before it says anything else, its heartbeat runs on an open socket alone, and
what it passes on of a terminal is what the parser recovers from the text of that terminal. There is
one reporter at a time; and after the disposal there is none, no timer is pending, and nothing more
is sent.
-/

namespace VsFleet

namespace Extension

namespace Window

variable {w : Window} {sessionId : String}

/-- What the window keeps to at every moment. -/
structure Orderly (sessionId : String) (w : Window) : Prop where
  conn : w.conn.Ready sessionId
  reporter : ∃ old, w.reporter.Single old
  streams : w.streams.Faithful
  passed : (HubConnection.oscFrames w.conn.sent).Sublist (w.streams.recovered.map Prod.snd)

theorem orderly_activate (endpoint : Endpoint) (sessionId : String) (refused : Option String) :
    (activate endpoint sessionId refused).Orderly sessionId := by
  refine ⟨?_, ⟨_, ReporterSupervisor.single_new⟩, ReadStreamManager.faithful_new, ?_⟩
  · cases endpoint with
    | unix path =>
      refine ⟨rfl, ?_, fun _ => rfl, fun _ => rfl, ?_, .inl ⟨rfl, rfl⟩, .inl rfl⟩
      · simp [activate, HubConnection.open_, HubConnection.emit]
      · intro held
        cases held
    | ws url =>
      cases refused with
      | none =>
        refine ⟨rfl, ?_, ?_, fun _ => rfl, ?_, .inl ⟨rfl, rfl⟩, .inl rfl⟩
        · simp [activate, HubConnection.open_, HubConnection.emit]
        · intro raw
          cases raw
        · intro _ opened
          cases opened
      | some err =>
        refine ⟨rfl, ?_, ?_, fun _ => rfl, ?_, .inl ⟨rfl, rfl⟩, .inl rfl⟩
        · simp [activate, HubConnection.open_, HubConnection.emit]
        · intro raw
          cases raw
        · intro held
          cases held
  · cases endpoint <;> cases refused <;> exact List.Sublist.refl _

theorem Orderly.dispose (h : w.Orderly sessionId) : w.dispose.Orderly sessionId := by
  obtain ⟨old, single⟩ := h.reporter
  obtain ⟨old', gone, -⟩ := single.dispose
  have unheard : HubConnection.Ready sessionId { w.conn with listening := false } :=
    ⟨h.conn.own, h.conn.held, h.conn.raw, h.conn.quiet, h.conn.begun, h.conn.heartbeat, h.conn.said⟩
  refine ⟨unheard.dispose, ⟨old', gone⟩, h.streams.dispose, ?_⟩
  obtain ⟨-, sent, -⟩ := HubConnection.dispose_quiet (c := { w.conn with listening := false }) rfl
  have recovered : w.streams.dispose.recovered = w.streams.recovered := by
    unfold ReadStreamManager.dispose
    split <;> rfl
  rw [Window.dispose, sent, recovered]
  exact h.passed

theorem Orderly.step (h : w.Orderly sessionId) {event : WindowEvent}
    (enabled : w.enabled event = true) : (w.step event).Orderly sessionId := by
  cases event with
  | conn event =>
    refine ⟨h.conn.step enabled, h.reporter, h.streams, ?_⟩
    exact (HubConnection.oscFrames_step w.conn event).symm ▸ h.passed
  | reporter event =>
    obtain ⟨old, single⟩ := h.reporter
    exact ⟨h.conn, single.step enabled, h.streams, h.passed⟩
  | execution =>
    refine ⟨h.conn, h.reporter, h.streams.listen, ?_⟩
    have recovered : w.streams.listen.recovered = w.streams.recovered := by
      unfold ReadStreamManager.listen
      split <;> rfl
    rw [Window.step, recovered]
    exact h.passed
  | chunk n text =>
    obtain ⟨ready, some_of⟩ := HubConnection.foldl_send (w.streams.chunk n text).1 h.conn
    refine ⟨ready, h.reporter, h.streams.chunk n text, some_of.trans ?_⟩
    simp only [Window.step, ReadStreamManager.recovered_chunk, List.map_append, List.map_map]
    exact h.passed.append (by simp [Function.comp_def])
  | ended n => exact ⟨h.conn, h.reporter, h.streams.finish n, h.passed⟩
  | disposed => exact h.dispose

theorem shown_step (h : w.conn.Shown) (event : WindowEvent) : (w.step event).conn.Shown := by
  cases event with
  | conn event => exact h.step event
  | reporter event => exact h
  | execution => exact h
  | chunk n text =>
    exact foldl_invariant HubConnection.Shown (fun _ _ told => told.send _)
      (w.streams.chunk n text).1 w.conn h
  | ended n => exact h
  | disposed =>
    obtain ⟨gone, -⟩ := HubConnection.dispose_quiet (c := { w.conn with listening := false }) rfl
    exact fun running => absurd (gone.symm.trans running) (by decide)

theorem shown_activate (endpoint : Endpoint) (sessionId : String) :
    (activate endpoint sessionId none).conn.Shown := by
  cases endpoint <;> exact fun _ => ⟨rfl, rfl⟩

/-- In every run of a window: it says nothing to the Hub before the one subscription, and after that
its own heartbeat and frames of its terminals only; the frames it passes on are some of those
recovered, in their order, and what is recovered of an execution is what one parser recovers from
the text read of it, whatever the other executions print in between; there is one heartbeat at most,
on a socket that has not closed; and if there was a socket to be had, the status bar shows the
status of the connection until the disposal. -/
theorem window_speaks (endpoint : Endpoint) (sessionId : String) (refused : Option String)
    (events : List WindowEvent)
    (along : Along Window.step (fun w event => w.enabled event = true)
      (activate endpoint sessionId refused) events) :
    let w := events.foldl Window.step (activate endpoint sessionId refused)
    (w.conn.sent = [] ∨ ∃ rest, w.conn.sent = .subscribe :: rest ∧ ∀ frame ∈ rest,
      (∃ now, frame = .upsert (heartbeatMessage sessionId now)) ∨
        ∃ osc, frame = .osc sessionId osc) ∧
    (HubConnection.oscFrames w.conn.sent).Sublist (w.streams.recovered.map Prod.snd) ∧
    (∀ n r, w.streams.readers[n]? = some r → ∃ parser,
      OscParser.push (2 * r.chunks.flatten.length) StreamReader.new.parser r.chunks.flatten =
        some (w.streams.told n, parser)) ∧
    (w.conn.intervals = [] ∨ ∃ timer state, w.conn.intervals = [timer] ∧
      w.conn.socket = some state ∧ state ≠ .closed ∧ w.conn.disposed = false) ∧
    (refused = none → w.conn.disposed = false →
      w.conn.bar.text = (appearanceFor w.conn.status w.conn.detail).text) := by
  intro w
  have orderly : w.Orderly sessionId := along.invariant (P := fun w => w.Orderly sessionId)
    (fun _ _ h enabled => h.step enabled) events _ (orderly_activate endpoint sessionId refused)
  refine ⟨orderly.conn.said, orderly.passed, fun n r there => ?_, ?_, fun not_refused running => ?_⟩
  · have told := (orderly.streams.alone n r there).1
    rw [told]
    exact ⟨_, OscParser.push_eq_foldl _ _ le_rfl⟩
  · rcases orderly.conn.heartbeat with ⟨-, idle⟩ | ⟨timer, -, only, held⟩
    · exact .inl idle
    · obtain ⟨running, state, socket, not_closed⟩ := orderly.conn.held.mp held
      exact .inr ⟨timer, state, only, socket, not_closed, running⟩
  · subst not_refused
    have shown : w.conn.Shown := foldl_invariant (fun w : Window => w.conn.Shown)
      (fun _ event h => shown_step h event) events _ (shown_activate endpoint sessionId)
    exact (shown running).2

/-- A frame cut in two behind the text of another execution, and a heartbeat. -/
def cutFrame : List WindowEvent :=
  [.conn .opened, .execution, .execution, .chunk 0 [Osc.esc, Osc.bracket, 0x39, Osc.semicolon],
    .chunk 1 [Osc.bel], .conn (.ticked 0 "2026-01-01T00:00:00Z"), .chunk 0 [0x31, Osc.bel]]

theorem window_speaks_cutFrame :
    let w := cutFrame.foldl Window.step (activate (.ws "ws://h") "s" none)
    (w.conn.sent = [] ∨ ∃ rest, w.conn.sent = .subscribe :: rest ∧ ∀ frame ∈ rest,
      (∃ now, frame = .upsert (heartbeatMessage "s" now)) ∨ ∃ osc, frame = .osc "s" osc) ∧
    (HubConnection.oscFrames w.conn.sent).Sublist (w.streams.recovered.map Prod.snd) ∧
    (∀ n r, w.streams.readers[n]? = some r → ∃ parser,
      OscParser.push (2 * r.chunks.flatten.length) StreamReader.new.parser r.chunks.flatten =
        some (w.streams.told n, parser)) ∧
    (w.conn.intervals = [] ∨ ∃ timer state, w.conn.intervals = [timer] ∧
      w.conn.socket = some state ∧ state ≠ .closed ∧ w.conn.disposed = false) ∧
    (none = (none : Option String) → w.conn.disposed = false →
      w.conn.bar.text = (appearanceFor w.conn.status w.conn.detail).text) :=
  window_speaks (.ws "ws://h") "s" none cutFrame (by decide +kernel)

/-! ## After the disposal -/

/-- Nothing is left to happen. -/
structure Gone (w : Window) : Prop where
  conn : w.conn.disposed = true
  reporter : w.reporter.disposed = true
  streams : w.streams.disposed = true

/-- The two windows have said, shown, started and recovered the same. -/
structure Same (w w' : Window) : Prop where
  sent : w'.conn.sent = w.conn.sent
  bar : w'.conn.bar = w.conn.bar
  children : w'.reporter.children.length = w.reporter.children.length
  recovered : w'.streams.recovered = w.streams.recovered

theorem Same.refl (w : Window) : w.Same w := ⟨rfl, rfl, rfl, rfl⟩

theorem Same.trans {w' w'' : Window} (h : w.Same w') (h' : w'.Same w'') : w.Same w'' :=
  ⟨h'.sent.trans h.sent, h'.bar.trans h.bar, h'.children.trans h.children,
    h'.recovered.trans h.recovered⟩

theorem Orderly.gone (h : w.Orderly sessionId) : w.dispose.Gone ∧ w.Same w.dispose := by
  obtain ⟨old, single⟩ := h.reporter
  obtain ⟨-, -, gone, children⟩ := single.dispose
  obtain ⟨disposed, sent, bar⟩ :=
    HubConnection.dispose_quiet (c := { w.conn with listening := false }) rfl
  have streams : w.streams.dispose.disposed = true ∧
      w.streams.dispose.recovered = w.streams.recovered := by
    unfold ReadStreamManager.dispose
    split
    · exact ⟨‹_›, rfl⟩
    · exact ⟨rfl, rfl⟩
  exact ⟨⟨disposed, gone, streams.1⟩, ⟨sent, bar, children, streams.2⟩⟩

theorem Gone.step (gone : w.Gone) (h : w.Orderly sessionId) {event : WindowEvent}
    (enabled : w.enabled event = true) : (w.step event).Gone ∧ w.Same (w.step event) := by
  cases event with
  | conn event =>
    obtain ⟨disposed, sent, bar⟩ := HubConnection.step_disposed gone.conn event
    exact ⟨⟨disposed, gone.reporter, gone.streams⟩, ⟨sent, bar, rfl, rfl⟩⟩
  | reporter event =>
    obtain ⟨old, single⟩ := h.reporter
    obtain ⟨disposed, children⟩ := single.step_disposed gone.reporter enabled
    exact ⟨⟨gone.conn, disposed, gone.streams⟩, ⟨rfl, rfl, children, rfl⟩⟩
  | execution =>
    have same : w.streams.listen = w.streams := if_pos gone.streams
    rw [Window.step, same]
    exact ⟨gone, .refl w⟩
  | chunk n text =>
    obtain ⟨none_told, disposed, recovered⟩ :=
      ReadStreamManager.chunk_disposed gone.streams n text
    have conn : (w.step (.chunk n text)).conn = w.conn := by
      simp only [Window.step, none_told, List.foldl_nil]
    exact ⟨⟨conn ▸ gone.conn, gone.reporter, disposed⟩,
      ⟨by rw [conn], by rw [conn], rfl, recovered⟩⟩
  | ended n => exact ⟨⟨gone.conn, gone.reporter, gone.streams⟩, ⟨rfl, rfl, rfl, rfl⟩⟩
  | disposed => exact h.gone

/-- In every run of a window there is one reporter or one restart to come at most and one heartbeat
at most; and from its disposal on none of them is left and the streams are not listened to, and
whatever still calls back, nothing more is sent, shown, started or recovered. -/
theorem window_leaves_nothing (endpoint : Endpoint) (sessionId : String) (refused : Option String)
    (events later : List WindowEvent)
    (along : Along Window.step (fun w event => w.enabled event = true)
      (activate endpoint sessionId refused) (events ++ .disposed :: later)) :
    let w := events.foldl Window.step (activate endpoint sessionId refused)
    let gone := (events ++ .disposed :: later).foldl Window.step
      (activate endpoint sessionId refused)
    w.reporter.children.count .running + w.reporter.timeouts.length ≤ 1 ∧
    w.conn.intervals.length ≤ 1 ∧
    gone.reporter.children.count .running = 0 ∧ gone.reporter.timeouts = [] ∧
    gone.conn.intervals = [] ∧ gone.streams.subscription = false ∧
    gone.conn.sent = w.conn.sent ∧ gone.conn.bar = w.conn.bar ∧
    gone.reporter.children.length = w.reporter.children.length ∧
    gone.streams.recovered = w.streams.recovered := by
  intro w gone
  obtain ⟨before, -, after⟩ := Along.append.mp along
  have orderly : w.Orderly sessionId := before.invariant (P := fun w => w.Orderly sessionId)
    (fun _ _ h enabled => h.step enabled) events _ (orderly_activate endpoint sessionId refused)
  obtain ⟨ended, same, orderly'⟩ : gone.Gone ∧ w.Same gone ∧ gone.Orderly sessionId := by
    have run : gone = later.foldl Window.step w.dispose := by
      simp only [gone, List.foldl_append, List.foldl_cons]
      rfl
    rw [run]
    have start : w.dispose.Gone ∧ w.Same w.dispose ∧ w.dispose.Orderly sessionId :=
      ⟨orderly.gone.1, orderly.gone.2, orderly.dispose⟩
    refine after.invariant (P := fun w' => w'.Gone ∧ w.Same w' ∧ w'.Orderly sessionId)
      (fun w' event ⟨left, same, h⟩ enabled => ?_) later w.dispose start
    obtain ⟨left', same'⟩ := left.step h enabled
    exact ⟨left', same.trans same', h.step enabled⟩
  obtain ⟨old, single⟩ := orderly.reporter
  obtain ⟨old', single'⟩ := orderly'.reporter
  obtain ⟨children, -, -, none_pending⟩ := single'.stopped ended.reporter
  have heartbeats : w.conn.intervals.length ≤ 1 := by
    rcases orderly.conn.heartbeat with ⟨-, idle⟩ | ⟨timer, -, only, -⟩
    · simp [idle]
    · simp [only]
  refine ⟨single.count, heartbeats, ?_, none_pending, ?_,
    orderly'.streams.unsubscribed ended.streams, same.sent, same.bar, same.children,
    same.recovered⟩
  · rw [children]
    exact single'.count_old
  · exact (orderly'.conn.idle (orderly'.conn.released ended.conn)).2

theorem window_leaves_nothing_cutFrame :
    let later : List WindowEvent := [.conn .closed, .reporter (.exited 0), .chunk 0 [Osc.bel]]
    let w := cutFrame.foldl Window.step (activate (.ws "ws://h") "s" none)
    let gone := (cutFrame ++ .disposed :: later).foldl Window.step (activate (.ws "ws://h") "s" none)
    w.reporter.children.count .running + w.reporter.timeouts.length ≤ 1 ∧
    w.conn.intervals.length ≤ 1 ∧
    gone.reporter.children.count .running = 0 ∧ gone.reporter.timeouts = [] ∧
    gone.conn.intervals = [] ∧ gone.streams.subscription = false ∧
    gone.conn.sent = w.conn.sent ∧ gone.conn.bar = w.conn.bar ∧
    gone.reporter.children.length = w.reporter.children.length ∧
    gone.streams.recovered = w.streams.recovered :=
  window_leaves_nothing (.ws "ws://h") "s" none cutFrame
    [.conn .closed, .reporter (.exited 0), .chunk 0 [Osc.bel]] (by decide +kernel)

end Window

end Extension

end VsFleet
