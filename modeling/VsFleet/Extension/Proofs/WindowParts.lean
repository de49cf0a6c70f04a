import VsFleet.Extension.Proofs.OscChunks
import VsFleet.Extension.Window

/-!
# The parts of a window

What each call back of the runtime leaves of the connection to the Hub, of the reporter and of the
readers of the streams, before their disposal and after it.
-/

namespace VsFleet

namespace Extension

/-! ## The connection -/

namespace HubConnection

variable {c : HubConnection} {sessionId : String}

/-- The WebSocket is held just while the connection is not disposed and it has not closed. Nothing
is sent before it opens, and the heartbeat is the one interval while it is held. -/
structure Ready (sessionId : String) (c : HubConnection) : Prop where
  own : c.sessionId = sessionId
  held : c.ws = true ↔ c.disposed = false ∧ ∃ state, c.socket = some state ∧ state ≠ .closed
  raw : c.raw = some .connecting → c.socket = none
  quiet : c.socket = none ∨ c.socket = some .connecting → c.sent = []
  begun : c.ws = true → c.socket = some .opened → c.sent ≠ []
  heartbeat : c.heartbeatTimer = none ∧ c.intervals = [] ∨
    ∃ timer, c.heartbeatTimer = some timer ∧ c.intervals = [timer] ∧ c.ws = true
  said : c.sent = [] ∨ ∃ rest, c.sent = .subscribe :: rest ∧ ∀ frame ∈ rest,
    (∃ now, frame = .upsert (heartbeatMessage sessionId now)) ∨ ∃ osc, frame = .osc sessionId osc

/-- The heartbeat that is stopped is the only interval there is. -/
theorem stopHeartbeat_eq (heartbeat : c.heartbeatTimer = none ∧ c.intervals = [] ∨
    ∃ timer, c.heartbeatTimer = some timer ∧ c.intervals = [timer]) :
    c.stopHeartbeat = { c with
      heartbeatTimer := none
      intervals := [] } := by
  unfold stopHeartbeat
  rcases heartbeat with ⟨none_left, no_interval⟩ | ⟨timer, some_left, only⟩
  · rw [none_left]
    cases c
    simp_all
  · rw [some_left, only]
    simp

/-- A heartbeat that is started anew is the only one. -/
theorem startHeartbeat_eq (heartbeat : c.heartbeatTimer = none ∧ c.intervals = [] ∨
    ∃ timer, c.heartbeatTimer = some timer ∧ c.intervals = [timer]) (running : c.disposed = false) :
    c.startHeartbeat = { c with
      heartbeatTimer := some c.timers
      intervals := [c.timers]
      timers := c.timers + 1 } := by
  unfold startHeartbeat
  rw [stopHeartbeat_eq heartbeat]
  simp [running]

/-- There is one heartbeat at most. -/
theorem Ready.single (h : c.Ready sessionId) : c.heartbeatTimer = none ∧ c.intervals = [] ∨
    ∃ timer, c.heartbeatTimer = some timer ∧ c.intervals = [timer] :=
  h.heartbeat.imp_right fun ⟨timer, some_left, only, _⟩ => ⟨timer, some_left, only⟩

/-- A heartbeat that is stopped leaves no interval. -/
theorem Ready.stopped (h : c.Ready sessionId) : c.stopHeartbeat = { c with
    heartbeatTimer := none
    intervals := [] } :=
  stopHeartbeat_eq h.single

/-- Stopping it keeps the connection in order. -/
theorem Ready.stopHeartbeat (h : c.Ready sessionId) : c.stopHeartbeat.Ready sessionId := by
  rw [h.stopped]
  exact ⟨h.own, h.held, h.raw, h.quiet, h.begun, .inl ⟨rfl, rfl⟩, h.said⟩

/-- A message is sent on the open socket, where the subscription has been sent before. -/
theorem Ready.send (h : c.Ready sessionId) {frame : WindowFrame}
    (kind : (∃ now, frame = .upsert (heartbeatMessage sessionId now)) ∨
      ∃ osc, frame = .osc sessionId osc) : (c.send frame).Ready sessionId := by
  unfold HubConnection.send
  split
  · rename_i open_
    refine ⟨h.own, h.held, h.raw, fun closed => ?_, fun _ _ => by simp, h.heartbeat, ?_⟩
    · rw [open_.2] at closed
      rcases closed with closed | closed <;> cases closed
    · rcases h.said with silent | ⟨rest, said, kinds⟩
      · exact absurd silent (h.begun open_.1 open_.2)
      · refine .inr ⟨rest ++ [frame], by rw [said]; rfl, fun frame' mem => ?_⟩
        rcases List.mem_append.mp mem with old | new
        · exact kinds frame' old
        · rw [List.mem_singleton.mp new]
          exact kind
  · exact h

/-- The status and what the bar shows are nobody else's business. -/
theorem Ready.emit (h : c.Ready sessionId) (status : ConnectionStatus) (detail : String) :
    (c.emit status detail).Ready sessionId :=
  ⟨h.own, h.held, h.raw, h.quiet, h.begun, h.heartbeat, h.said⟩

/-- Without a socket there is no heartbeat. -/
theorem Ready.idle (h : c.Ready sessionId) (released : c.ws = false) :
    c.heartbeatTimer = none ∧ c.intervals = [] := by
  rcases h.heartbeat with idle | ⟨timer, -, -, held⟩
  · exact idle
  · rw [released] at held
    cases held

/-- A connection that was disposed of has no socket. -/
theorem Ready.released (h : c.Ready sessionId) (disposed : c.disposed = true) : c.ws = false := by
  rw [Bool.eq_false_iff]
  intro held
  exact absurd (disposed.symm.trans (h.held.mp held).1) (by decide)

/-- A disposal keeps the connection in order. -/
theorem Ready.dispose (h : c.Ready sessionId) : c.dispose.Ready sessionId := by
  unfold HubConnection.dispose
  split
  · exact h
  · have stopped : ({ c with disposed := true } : HubConnection).stopHeartbeat = { c with
        disposed := true
        heartbeatTimer := none
        intervals := [] } :=
      stopHeartbeat_eq h.single
    rw [stopped]
    dsimp only
    refine Ready.emit ⟨?_, ?_, ?_, ?_, ?_, .inl ⟨?_, ?_⟩, ?_⟩ _ _
    · split_ifs <;> exact h.own
    · split_ifs with held _ <;> simp [held]
    · split_ifs with held raw <;> intro connecting
      · cases connecting
      · simp [h.raw connecting]
      · cases connecting
      · exact h.raw connecting
    · let close (state : ReadyState) : ReadyState := if state = .closed then .closed else .closing
      have closes : c.socket.map close = none ∨ c.socket.map close = some .connecting →
          c.sent = [] := by
        rintro (none_left | connecting)
        · exact h.quiet (.inl (Option.map_eq_none_iff.mp none_left))
        · obtain ⟨state, -, now⟩ := Option.map_eq_some_iff.mp connecting
          simp only [close] at now
          split_ifs at now
      split_ifs
      · exact closes
      · exact closes
      · exact h.quiet
      · exact h.quiet
    · split_ifs with held raw raw <;> simp [held]
    · split_ifs <;> rfl
    · split_ifs <;> rfl
    · split_ifs <;> exact h.said

/-- So does a socket that opens. -/
theorem Ready.opened (h : c.Ready sessionId) (connecting : c.socket = some .connecting) :
    (c.step .opened).Ready sessionId := by
  rw [HubConnection.step, onOpen]
  split
  · rename_i disposed
    have disposed : c.disposed = true := disposed
    have released := h.released disposed
    refine ⟨h.own, ?_, fun raw => ?_, nofun, fun held _ => ?_, .inl (h.idle released), h.said⟩
    · exact iff_of_false (by simp [released]) (by simp [disposed])
    · exact absurd (connecting.symm.trans (h.raw raw)) (by simp)
    · exact absurd held (by simp [released])
  · rename_i running
    have running : c.disposed = false := by simpa using running
    have held : c.ws = true := h.held.mpr ⟨running, .connecting, connecting, by simp⟩
    have said := h.quiet (.inr connecting)
    have greeted : (({ c with socket := some .opened }.emit .connected c.endpoint.text).send
        .subscribe) = { c with
          socket := some .opened
          status := .connected
          detail := c.endpoint.text
          bar := if c.listening then appearanceFor .connected c.endpoint.text else c.bar
          sent := [.subscribe] } := by
      simp [HubConnection.emit, HubConnection.send, held, said]
    rw [greeted, startHeartbeat_eq]
    rotate_left
    · exact h.single
    · exact running
    refine ⟨h.own, ?_, fun raw => ?_, nofun, fun _ _ => by simp, .inr ⟨_, rfl, rfl, held⟩, ?_⟩
    · exact iff_of_true held ⟨running, .opened, rfl, by simp⟩
    · exact absurd (connecting.symm.trans (h.raw raw)) (by simp)
    · exact .inr ⟨[], rfl, fun frame none => absurd none List.not_mem_nil⟩

/-- So does every event that can come. -/
theorem Ready.step (h : c.Ready sessionId) {event : ConnEvent} (enabled : c.enabled event = true) :
    (c.step event).Ready sessionId := by
  cases event with
  | connected =>
    have fresh := h.raw (by simpa [HubConnection.enabled] using enabled)
    rw [HubConnection.step, onConnect]
    split
    · exact ⟨h.own, h.held, nofun, h.quiet, h.begun, h.heartbeat, h.said⟩
    · rename_i running
      refine ⟨h.own, ?_, nofun, fun _ => h.quiet (.inl fresh), nofun, ?_, h.said⟩
      · exact iff_of_true rfl ⟨by simpa using running, _, rfl, by simp⟩
      · exact h.heartbeat.imp_right fun ⟨timer, some_left, only, _⟩ => ⟨timer, some_left, only, rfl⟩
  | rawErrored err =>
    have gone : Ready sessionId { c with raw := some .destroyed } :=
      ⟨h.own, h.held, nofun, h.quiet, h.begun, h.heartbeat, h.said⟩
    rw [HubConnection.step, onRawError]
    split
    · exact gone
    · refine Ready.emit ?_ _ _
      exact ⟨h.own, h.held, nofun, h.quiet, h.begun, h.heartbeat, h.said⟩
  | opened => exact h.opened (by simpa [HubConnection.enabled] using enabled)
  | errored err =>
    rw [HubConnection.step, onError]
    split
    · exact h
    · exact h.emit _ _
  | closing =>
    have opened : c.socket = some .opened := by simpa [HubConnection.enabled] using enabled
    refine ⟨h.own, ?_, fun raw => ?_, nofun, nofun, h.heartbeat, h.said⟩
    · rw [HubConnection.step]
      refine h.held.trans (and_congr_right fun _ => iff_of_true ?_ ?_)
      · exact ⟨.opened, opened, by simp⟩
      · exact ⟨.closing, rfl, by simp⟩
    · exact absurd (opened.symm.trans (h.raw raw)) (by simp)
  | closed =>
    obtain ⟨state, there, not_closed⟩ : ∃ state, c.socket = some state ∧ state ≠ .closed := by
      simpa [HubConnection.enabled, Option.any_eq_true] using enabled
    have no_raw : c.raw ≠ some .connecting := fun raw => by
      rw [h.raw raw] at there
      cases there
    rw [HubConnection.step, onClose]
    split
    · rename_i disposed
      have disposed : c.disposed = true := disposed
      have released := h.released disposed
      refine ⟨h.own, ?_, fun raw => absurd raw no_raw, nofun, nofun, .inl (h.idle released), h.said⟩
      exact iff_of_false (by simp [released]) (by simp)
    · have stopped : ({ c with socket := some .closed } : HubConnection).stopHeartbeat = { c with
          socket := some .closed
          heartbeatTimer := none
          intervals := [] } := stopHeartbeat_eq h.single
      rw [stopped]
      refine Ready.emit ?_ _ _
      refine ⟨h.own, ?_, fun raw => absurd raw no_raw, nofun, nofun, .inl ⟨rfl, rfl⟩, h.said⟩
      exact iff_of_false (by simp) (by simp)
  | ticked timer now =>
    rw [HubConnection.step, onTick]
    split
    · exact h.stopHeartbeat
    · exact h.send (.inl ⟨now, by rw [h.own]⟩)

/-- Until the disposal the status bar shows the status the connection is in. -/
def Shown (c : HubConnection) : Prop :=
  c.disposed = false →
    c.listening = true ∧ c.bar.text = (appearanceFor c.status c.detail).text

/-- What is emitted is shown. -/
theorem Shown.emit (h : c.Shown) (status : ConnectionStatus) (detail : String) :
    (c.emit status detail).Shown := by
  intro running
  obtain ⟨listening, -⟩ := h running
  refine ⟨listening, ?_⟩
  simp only [HubConnection.emit, listening, if_true]

/-- What is shown depends on no more than this. -/
theorem Shown.congr (h : c.Shown) {c' : HubConnection} (disposed : c'.disposed = c.disposed)
    (listening : c'.listening = c.listening) (bar : c'.bar = c.bar) (status : c'.status = c.status)
    (detail : c'.detail = c.detail) : c'.Shown := by
  unfold Shown
  rw [disposed, listening, bar, status, detail]
  exact h

theorem Shown.stopHeartbeat (h : c.Shown) : c.stopHeartbeat.Shown := by
  unfold HubConnection.stopHeartbeat
  split
  · exact h.congr rfl rfl rfl rfl rfl
  · exact h

theorem Shown.send (h : c.Shown) (frame : WindowFrame) : (c.send frame).Shown := by
  unfold HubConnection.send
  split
  · exact h.congr rfl rfl rfl rfl rfl
  · exact h

theorem Shown.startHeartbeat (h : c.Shown) : c.startHeartbeat.Shown := by
  unfold HubConnection.startHeartbeat
  dsimp only
  split
  · exact h.stopHeartbeat
  · exact h.stopHeartbeat.congr rfl rfl rfl rfl rfl

/-- Every event keeps the status shown. -/
theorem Shown.step (h : c.Shown) (event : ConnEvent) : (c.step event).Shown := by
  cases event with
  | connected =>
    rw [HubConnection.step, onConnect]
    split <;> exact h.congr rfl rfl rfl rfl rfl
  | rawErrored err =>
    rw [HubConnection.step, onRawError]
    split
    · exact h.congr rfl rfl rfl rfl rfl
    · refine Shown.emit ?_ _ _
      exact h.congr rfl rfl rfl rfl rfl
  | opened =>
    rw [HubConnection.step, onOpen]
    split
    · exact h.congr rfl rfl rfl rfl rfl
    · refine Shown.startHeartbeat (Shown.send (Shown.emit ?_ _ _) _)
      exact h.congr rfl rfl rfl rfl rfl
  | errored err =>
    rw [HubConnection.step, onError]
    split
    · exact h
    · exact h.emit _ _
  | closing => exact h.congr rfl rfl rfl rfl rfl
  | closed =>
    rw [HubConnection.step, onClose]
    have closed : Shown { c with socket := some .closed } := h.congr rfl rfl rfl rfl rfl
    split
    · exact closed
    · refine Shown.emit ?_ _ _
      exact closed.stopHeartbeat.congr rfl rfl rfl rfl rfl
  | ticked timer now =>
    rw [HubConnection.step, onTick]
    split
    · exact h.stopHeartbeat
    · exact h.send _

/-- What has been passed on of the terminals. -/
def oscFrames (sent : List WindowFrame) : List OscFrame :=
  sent.filterMap (fun frame => match frame with
    | .osc _ frame => some frame
    | _ => none)

/-- A frame is sent at the end or not at all. -/
theorem sent_send (c : HubConnection) (frame : WindowFrame) :
    (c.send frame).sent = c.sent ∨ (c.send frame).sent = c.sent ++ [frame] := by
  unfold send
  split
  · exact .inr rfl
  · exact .inl rfl

theorem sent_stopHeartbeat (c : HubConnection) : c.stopHeartbeat.sent = c.sent := by
  unfold stopHeartbeat
  split <;> rfl

theorem sent_startHeartbeat (c : HubConnection) : c.startHeartbeat.sent = c.sent := by
  unfold startHeartbeat
  dsimp only
  split <;> exact sent_stopHeartbeat c

/-- The connection itself passes nothing on. -/
theorem oscFrames_step (c : HubConnection) (event : ConnEvent) :
    oscFrames (c.step event).sent = oscFrames c.sent := by
  cases event with
  | connected =>
    rw [step, onConnect]
    split <;> rfl
  | rawErrored err =>
    rw [step, onRawError]
    split <;> rfl
  | opened =>
    rw [step, onOpen]
    split
    · rfl
    · rw [sent_startHeartbeat]
      rcases sent_send ({ c with socket := some .opened }.emit .connected c.endpoint.text)
        .subscribe with same | sent
      · rw [same]
        rfl
      · rw [sent, oscFrames, List.filterMap_append]
        exact List.append_nil _
  | errored err =>
    rw [step, onError]
    split <;> rfl
  | closing => rfl
  | closed =>
    rw [step, onClose]
    split
    · rfl
    · exact congrArg oscFrames (sent_stopHeartbeat { c with socket := some .closed })
  | ticked timer now =>
    rw [step, onTick]
    split
    · rw [sent_stopHeartbeat]
    · rcases sent_send c (.upsert (heartbeatMessage c.sessionId now)) with same | sent
      · rw [same]
      · rw [sent, oscFrames, List.filterMap_append]
        exact List.append_nil _

/-- The frames passed on are some of those offered, in their order. -/
theorem foldl_send (frames : List OscFrame) : ∀ {c : HubConnection}, c.Ready sessionId →
    let c' := frames.foldl (fun c frame => c.send (.osc c.sessionId frame)) c
    c'.Ready sessionId ∧ (oscFrames c'.sent).Sublist (oscFrames c.sent ++ frames) := by
  induction frames with
  | nil => exact fun h => ⟨h, by simp⟩
  | cons frame frames ih =>
    intro c h
    have first : (c.send (.osc c.sessionId frame)).Ready sessionId :=
      h.send (.inr ⟨frame, by rw [h.own]⟩)
    obtain ⟨ready, some_of⟩ := ih first
    refine ⟨ready, some_of.trans ?_⟩
    rcases sent_send c (.osc c.sessionId frame) with same | sent
    · rw [same]
      exact List.Sublist.append_left (List.sublist_cons_self frame frames) _
    · rw [sent, oscFrames, List.filterMap_append, List.append_assoc]
      exact List.Sublist.refl _

/-- After the disposal nothing is sent and nothing is shown. -/
theorem step_disposed (disposed : c.disposed = true) (event : ConnEvent) :
    (c.step event).disposed = true ∧ (c.step event).sent = c.sent ∧
      (c.step event).bar = c.bar := by
  cases event with
  | connected => simp [step, onConnect, disposed]
  | rawErrored err => simp [step, onRawError, disposed]
  | opened => simp [step, onOpen, disposed]
  | errored err => simp [step, onError, disposed]
  | closing => simp [step, disposed]
  | closed => simp [step, onClose, disposed]
  | ticked timer now =>
    have stops : c.step (.ticked timer now) = c.stopHeartbeat := if_pos disposed
    rw [stops]
    unfold stopHeartbeat
    split <;> exact ⟨disposed, rfl, rfl⟩

/-- A disposal sends nothing, and where nobody listens it shows nothing. -/
theorem dispose_quiet (silent : c.listening = false) :
    c.dispose.disposed = true ∧ c.dispose.sent = c.sent ∧ c.dispose.bar = c.bar := by
  unfold dispose
  split
  · rename_i disposed
    exact ⟨disposed, rfl, rfl⟩
  · unfold stopHeartbeat
    dsimp only
    cases c.heartbeatTimer with
    | none => split_ifs <;> simp [emit, silent]
    | some timer => split_ifs <;> simp [emit, silent]

end HubConnection

/-! ## The reporter -/

namespace ReporterSupervisor

variable {s : ReporterSupervisor}

/-- The children before the last have ended or could not be started. Until the disposal either the
last one runs, or one timeout is pending, or the last could not be started and nothing is; after it
nothing is pending and nothing runs. -/
structure Single (s : ReporterSupervisor) (old : List ChildState) : Prop where
  ended : ∀ child ∈ old, child ≠ .running
  over_ : s.disposed = false → ∀ child ∈ old, child = .exited ∨ child = .failed
  attempt : s.disposed = false →
    s.children = old ++ [.running] ∧ s.child = some old.length ∧ s.restartTimer = none ∧
        s.timeouts = [] ∨
      s.children = old ∧ s.child = none ∧
        ((∃ timer, s.restartTimer = some timer ∧ s.timeouts = [timer]) ∨
          s.restartTimer = none ∧ s.timeouts = [])
  stopped : s.disposed = true →
    s.children = old ∧ s.child = none ∧ s.restartTimer = none ∧ s.timeouts = []

/-- The first start has one child. -/
theorem single_new : new.start.Single [] := by
  refine ⟨nofun, nofun, fun _ => .inl ⟨rfl, rfl, rfl, rfl⟩, nofun⟩

/-- A child that ends leaves the ended ones ended. -/
theorem ended_set {old : List ChildState} (ended : ∀ child ∈ old, child ≠ .running) (n : Nat)
    {state : ChildState} (other : state ≠ .running) :
    ∀ child ∈ old.set n state, child ≠ .running := by
  intro child mem
  rcases List.mem_or_eq_of_mem_set mem with mem | rfl
  · exact ended child mem
  · exact other

theorem ended_append {old : List ChildState} {P : ChildState → Prop} (all : ∀ child ∈ old, P child)
    {state : ChildState} (last : P state) : ∀ child ∈ old ++ [state], P child := by
  intro child mem
  rcases List.mem_append.mp mem with mem | mem
  · exact all child mem
  · rw [List.mem_singleton.mp mem]
    exact last

/-- Until the disposal a child that can still end is the last one. -/
theorem Single.last {old : List ChildState} (h : s.Single old) (running : s.disposed = false)
    {n : Nat}
    (alive : s.children[n]?.any (fun child => child = .running ∨ child = .killed) = true) :
    s.children = old ++ [.running] ∧ n = old.length ∧ s.restartTimer = none ∧ s.timeouts = [] := by
  obtain ⟨child, there, state⟩ : ∃ child, s.children[n]? = some child ∧
      (child = .running ∨ child = .killed) := by
    simpa [Option.any_eq_true] using alive
  have not_old : child ∉ old := by
    intro mem
    rcases h.over_ running child mem with rfl | rfl <;> simp at state
  rcases h.attempt running with ⟨children, -, no_timer, none_pending⟩ | ⟨children, -⟩
  · refine ⟨children, ?_, no_timer, none_pending⟩
    rw [children] at there
    obtain ⟨within, found⟩ := List.getElem?_eq_some_iff.mp there
    rw [List.length_append, List.length_singleton] at within
    by_contra earlier
    rw [List.getElem_append_left (by omega)] at found
    exact not_old (found ▸ List.getElem_mem _)
  · rw [children] at there
    exact absurd (List.mem_of_getElem? there) not_old

/-- There is one running child at most after every event. -/
theorem Single.step {old : List ChildState} (h : s.Single old) {event : ReporterEvent}
    (enabled : s.enabled event = true) : ∃ old', (s.step event).Single old' := by
  cases disposed : s.disposed with
  | false =>
    cases event with
    | exited n =>
      obtain ⟨children, rfl, no_timer, none_pending⟩ := h.last disposed enabled
      have ends : s.step (.exited old.length) = { s with
          children := old ++ [.exited]
          child := none
          restartTimer := some s.timers
          timeouts := [s.timers]
          timers := s.timers + 1 } := by
        simp [ReporterSupervisor.step, onExit, disposed, children, none_pending]
      rw [ends]
      refine ⟨old ++ [.exited], ended_append h.ended (by simp), fun _ => ?_, fun _ => ?_,
        fun gone => ?_⟩
      · exact ended_append (h.over_ disposed) (.inl rfl)
      · exact .inr ⟨rfl, rfl, .inl ⟨_, rfl, rfl⟩⟩
      · exact absurd (disposed.symm.trans gone) (by decide)
    | failed n =>
      obtain ⟨children, rfl, no_timer, none_pending⟩ := h.last disposed enabled
      have ends : s.step (.failed old.length) = { s with
          children := old ++ [.failed]
          child := none } := by
        simp [ReporterSupervisor.step, children]
      rw [ends]
      refine ⟨old ++ [.failed], ended_append h.ended (by simp), fun _ => ?_, fun _ => ?_,
        fun gone => ?_⟩
      · exact ended_append (h.over_ disposed) (.inr rfl)
      · exact .inr ⟨rfl, rfl, .inr ⟨no_timer, none_pending⟩⟩
      · exact absurd (disposed.symm.trans gone) (by decide)
    | expired t =>
      have pending : t ∈ s.timeouts := by simpa [ReporterSupervisor.enabled] using enabled
      rcases h.attempt disposed with ⟨-, -, -, idle⟩ | ⟨children, no_child, waits | ⟨-, idle⟩⟩
      · rw [idle] at pending
        cases pending
      · obtain ⟨timer, -, only⟩ := waits
        rw [only] at pending
        obtain rfl := List.mem_singleton.mp pending
        have starts : s.step (.expired t) = { s with
            children := old ++ [.running]
            child := some old.length
            restartTimer := none
            timeouts := [] } := by
          simp [ReporterSupervisor.step, start, disposed, children, no_child, only]
        rw [starts]
        refine ⟨old, h.ended, fun _ => h.over_ disposed, fun _ => .inl ⟨rfl, rfl, rfl, rfl⟩,
          fun gone => ?_⟩
        exact absurd (disposed.symm.trans gone) (by decide)
      · rw [idle] at pending
        cases pending
  | true =>
    obtain ⟨children, no_child, no_timer, none_pending⟩ := h.stopped disposed
    cases event with
    | exited n =>
      have ends : s.step (.exited n) = { s with
          children := old.set n .exited
          child := none } := by
        simp [ReporterSupervisor.step, onExit, disposed, children]
      rw [ends]
      refine ⟨_, ended_set h.ended n (by simp), fun running => ?_, fun running => ?_,
        fun _ => ⟨rfl, rfl, no_timer, none_pending⟩⟩
      all_goals exact absurd (disposed.symm.trans running) (by decide)
    | failed n =>
      have ends : s.step (.failed n) = { s with
          children := old.set n .failed
          child := none } := by
        simp [ReporterSupervisor.step, children]
      rw [ends]
      refine ⟨_, ended_set h.ended n (by simp), fun running => ?_, fun running => ?_,
        fun _ => ⟨rfl, rfl, no_timer, none_pending⟩⟩
      all_goals exact absurd (disposed.symm.trans running) (by decide)
    | expired t =>
      have pending : t ∈ s.timeouts := by simpa [ReporterSupervisor.enabled] using enabled
      rw [none_pending] at pending
      cases pending

/-- After the disposal there is none to come. -/
theorem Single.dispose {old : List ChildState} (h : s.Single old) :
    ∃ old', s.dispose.Single old' ∧ s.dispose.disposed = true ∧
      s.dispose.children.length = s.children.length := by
  have gone : ∀ (children : List ChildState) (s' : ReporterSupervisor),
      (∀ child ∈ children, child ≠ .running) → s'.children = children → s'.disposed = true →
      s'.child = none → s'.restartTimer = none → s'.timeouts = [] → s'.Single children := by
    intro children s' ended same disposed no_child no_timer none_pending
    refine ⟨ended, fun running => ?_, fun running => ?_, fun _ =>
      ⟨same, no_child, no_timer, none_pending⟩⟩
    all_goals exact absurd (disposed.symm.trans running) (by decide)
  have idle : s.child = none → s.children = old →
      s.restartTimer = none ∧ s.timeouts = [] ∨
        (∃ timer, s.restartTimer = some timer ∧ s.timeouts = [timer]) →
      ∃ old', s.dispose.Single old' ∧ s.dispose.disposed = true ∧
        s.dispose.children.length = s.children.length := by
    intro no_child children timers
    have stops : s.dispose = { s with
        disposed := true
        restartTimer := none
        timeouts := [] } := by
      rcases timers with ⟨no_timer, none_pending⟩ | ⟨timer, some_timer, only⟩
      · simp [ReporterSupervisor.dispose, no_child, no_timer, none_pending]
      · simp [ReporterSupervisor.dispose, no_child, some_timer, only]
    rw [stops]
    exact ⟨old, gone old _ h.ended children rfl no_child rfl rfl, rfl, rfl⟩
  cases disposed : s.disposed with
  | true =>
    obtain ⟨children, no_child, no_timer, none_pending⟩ := h.stopped disposed
    exact idle no_child children (.inl ⟨no_timer, none_pending⟩)
  | false =>
    rcases h.attempt disposed with
      ⟨children, child, no_timer, none_pending⟩ | ⟨children, no_child, waits⟩
    · have kills : s.dispose = { s with
          disposed := true
          child := none
          children := old ++ [.killed] } := by
        simp [ReporterSupervisor.dispose, child, children, no_timer, none_pending]
      rw [kills]
      refine ⟨old ++ [.killed], gone _ _ (ended_append h.ended (by simp)) rfl rfl rfl no_timer
        none_pending, rfl, ?_⟩
      rw [children, List.length_append, List.length_append]
      rfl
    · exact idle no_child children waits.symm

/-- And none comes. -/
theorem Single.step_disposed {old : List ChildState} (h : s.Single old)
    (disposed : s.disposed = true) {event : ReporterEvent} (enabled : s.enabled event = true) :
    (s.step event).disposed = true ∧ (s.step event).children.length = s.children.length := by
  cases event with
  | exited n => simp [ReporterSupervisor.step, onExit, disposed]
  | failed n => simp [ReporterSupervisor.step, disposed]
  | expired t =>
    have pending : t ∈ s.timeouts := by simpa [ReporterSupervisor.enabled] using enabled
    rw [(h.stopped disposed).2.2.2] at pending
    cases pending

/-- Of the earlier children none is running. -/
theorem Single.count_old {old : List ChildState} (h : s.Single old) : old.count .running = 0 :=
  List.count_eq_zero.mpr (fun mem => h.ended _ mem rfl)

/-- One reporter, or one restart to come. -/
theorem Single.count {old : List ChildState} (h : s.Single old) :
    s.children.count .running + s.timeouts.length ≤ 1 := by
  have none_old := h.count_old
  cases disposed : s.disposed with
  | true =>
    obtain ⟨children, -, -, none_pending⟩ := h.stopped disposed
    simp [children, none_old, none_pending]
  | false =>
    rcases h.attempt disposed with ⟨children, -, -, none_pending⟩ | ⟨children, -, waits⟩
    · simp [children, none_old, none_pending]
    · rcases waits with ⟨timer, -, only⟩ | ⟨-, none_pending⟩
      · simp [children, none_old, only]
      · simp [children, none_old, none_pending]

end ReporterSupervisor

/-! ## The streams -/

namespace ReadStreamManager

variable {m : ReadStreamManager}

/-- What has been recovered of an execution. -/
def told (m : ReadStreamManager) (n : Nat) : List OscFrame :=
  (m.recovered.filter (fun frame => frame.1 = n)).map Prod.snd

/-- What the callback is told is told at the end. -/
theorem told_append (m : ReadStreamManager) (readers : List StreamReader) (n : Nat)
    (frames : List OscFrame) (k : Nat) :
    told { m with readers, recovered := m.recovered ++ frames.map (fun frame => (n, frame)) } k =
      m.told k ++ if k = n then frames else [] := by
  have own : (frames.map (fun frame => (n, frame))).filter (fun frame => frame.1 = k) =
      if k = n then frames.map (fun frame => (n, frame)) else [] := by
    split
    · rename_i same
      exact List.filter_eq_self.mpr (by simp [same])
    · rename_i other
      exact List.filter_eq_nil_iff.mpr (by simp [Ne.symm other])
  simp only [told, List.filter_append, List.map_append, own]
  split
  · simp
  · rfl

/-- What has been recovered of an execution is what a parser of its own reads in its text. -/
structure Faithful (m : ReadStreamManager) : Prop where
  alone : ∀ n r, m.readers[n]? = some r →
    m.told n = (r.chunks.flatten.foldl OscParser.read ([], StreamReader.new.parser)).1 ∧
    (r.finished = false →
      r.parser = (r.chunks.flatten.foldl OscParser.read ([], StreamReader.new.parser)).2)
  known : ∀ n, m.readers.length ≤ n → m.told n = []
  running : m.disposed = false → m.onFrame = true
  unsubscribed : m.disposed = true → m.subscription = false

/-- At the start nothing was told. -/
theorem faithful_new : new.Faithful :=
  ⟨nofun, fun _ _ => rfl, fun _ => rfl, nofun⟩

/-- A new reader has told nothing. -/
theorem Faithful.listen (h : m.Faithful) : m.listen.Faithful := by
  unfold ReadStreamManager.listen
  split
  · exact h
  · refine ⟨fun n r there => ?_, fun n beyond => ?_, h.running, h.unsubscribed⟩
    · rcases Nat.lt_trichotomy n m.readers.length with earlier | rfl | beyond
      · rw [List.getElem?_append_left earlier] at there
        exact h.alone n r there
      · rw [List.getElem?_concat_length] at there
        obtain rfl := Option.some.inj there
        exact ⟨h.known _ le_rfl, fun _ => rfl⟩
      · rw [List.getElem?_eq_none (by simp; omega)] at there
        cases there
    · rw [List.length_append] at beyond
      exact h.known n (by omega)

/-- The end of an execution tells nothing. -/
theorem Faithful.finish (h : m.Faithful) (n : Nat) : (m.finish n).Faithful := by
  refine ⟨fun k r there => ?_, fun k beyond => ?_, h.running, h.unsubscribed⟩
  · simp only [ReadStreamManager.finish, List.getElem?_modify] at there
    obtain ⟨r', before, same⟩ := Option.map_eq_some_iff.mp there
    have alone := h.alone k r' before
    split at same
    · subst same
      exact ⟨alone.1, nofun⟩
    · subst same
      exact alone
  · exact h.known k (by simpa [ReadStreamManager.finish] using beyond)

/-- Nor does the disposal. -/
theorem Faithful.dispose (h : m.Faithful) : m.dispose.Faithful := by
  unfold ReadStreamManager.dispose
  split
  · exact h
  · refine ⟨fun k r there => ?_, fun k beyond => ?_, nofun, fun _ => rfl⟩
    · rw [List.getElem?_map] at there
      obtain ⟨r', before, same⟩ := Option.map_eq_some_iff.mp there
      have alone := h.alone k r' before
      split at same <;> subst same <;> exact alone
    · exact h.known k (by simpa using beyond)

/-- A chunk is pushed while its reader's loop runs and nothing is disposed. -/
theorem chunk_cases (m : ReadStreamManager) (n : Nat) (text : JsString) :
    m.chunk n text = ([], m) ∨ m.chunk n text = ([], m.finish n) ∨
      ∃ r, m.readers[n]? = some r ∧ r.finished = false ∧ m.disposed = false ∧
        ∃ told, told = (if m.onFrame then (text.foldl OscParser.read ([], r.parser)).1 else []) ∧
        m.chunk n text = (told, { m with
          readers := m.readers.set n { r with
            parser := (text.foldl OscParser.read ([], r.parser)).2
            chunks := r.chunks ++ [text] }
          recovered := m.recovered ++ told.map (fun frame => (n, frame)) }) := by
  unfold chunk
  split
  · exact .inl rfl
  · rename_i r there
    split
    · exact .inl rfl
    · rename_i runs
      split
      · exact .inr (.inl rfl)
      · rename_i live
        rw [not_or] at live
        refine .inr (.inr ⟨r, there, by simpa using runs, by simpa using live.2, _, rfl, ?_⟩)
        rw [OscParser.push_eq_foldl r.parser text le_rfl]

/-- A chunk tells the frames that its reader makes of it. -/
theorem Faithful.chunk (h : m.Faithful) (n : Nat) (text : JsString) :
    (m.chunk n text).2.Faithful := by
  rcases chunk_cases m n text with same | ends | ⟨r, there, runs, live, told, called, pushed⟩
  · rw [same]
    exact h
  · rw [ends]
    exact h.finish n
  · rw [pushed]
    rw [if_pos (h.running live)] at called
    have alone := h.alone n r there
    have joined : (r.chunks ++ [text]).flatten.foldl OscParser.read ([], StreamReader.new.parser) =
        (m.told n ++ told, (text.foldl OscParser.read ([], r.parser)).2) := by
      rw [List.flatten_append, List.foldl_append, alone.1, called, alone.2 runs]
      have later := OscParser.foldl_read_append [text].flatten
        (r.chunks.flatten.foldl OscParser.read ([], StreamReader.new.parser)).1 []
        (r.chunks.flatten.foldl OscParser.read ([], StreamReader.new.parser)).2
      rw [List.append_nil] at later
      rw [later]
      simp
    refine ⟨fun k r' there' => ?_, fun k beyond => ?_, h.running, h.unsubscribed⟩
    · rw [told_append]
      rw [List.getElem?_set] at there'
      split at there'
      · rename_i own
        subst own
        split at there'
        · obtain rfl := Option.some.inj there'
          rw [if_pos rfl]
          dsimp only
          rw [joined]
          exact ⟨rfl, fun _ => rfl⟩
        · cases there'
      · rename_i other
        rw [if_neg (Ne.symm other), List.append_nil]
        exact h.alone k r' there'
    · have within := (List.getElem?_eq_some_iff.mp there).1
      rw [List.length_set] at beyond
      rw [told_append, if_neg (by omega), List.append_nil]
      exact h.known k beyond

/-- What a chunk recovers is what it tells. -/
theorem recovered_chunk (m : ReadStreamManager) (n : Nat) (text : JsString) :
    (m.chunk n text).2.recovered =
      m.recovered ++ (m.chunk n text).1.map (fun frame => (n, frame)) := by
  rcases chunk_cases m n text with same | ends | ⟨r, -, -, -, told, -, pushed⟩
  · rw [same]
    simp
  · rw [ends]
    simp [ReadStreamManager.finish]
  · rw [pushed]

/-- After the disposal nothing is recovered. -/
theorem chunk_disposed (disposed : m.disposed = true) (n : Nat) (text : JsString) :
    (m.chunk n text).1 = [] ∧ (m.chunk n text).2.disposed = true ∧
      (m.chunk n text).2.recovered = m.recovered := by
  rcases chunk_cases m n text with same | ends | ⟨r, there, runs, live, told, called, pushed⟩
  · rw [same]
    exact ⟨rfl, disposed, rfl⟩
  · rw [ends]
    exact ⟨rfl, disposed, rfl⟩
  · exact absurd (disposed.symm.trans live) (by decide)

end ReadStreamManager

end Extension

end VsFleet
