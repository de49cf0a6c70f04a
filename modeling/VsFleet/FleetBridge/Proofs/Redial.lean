import VsFleet.FleetBridge.Extension
import VsFleet.Misc.Runs

/-!
# The reconnect loop of the bridge extension

A dial happens only when the timeout of a retry expires, and a retry only when the socket dialed
last closes. So every other socket has closed before, no callback of it is to come, and the socket
dialed last and the timeout take turns.
-/

namespace VsFleet

namespace FleetBridge

/-- The delay of the next retry: twice the last one, up to the bound, unless a socket has opened
since. -/
def nextDelay (history : List Happening) : Nat :=
  match history.getLast? with
  | some (.retry _ before) => nextBackoff before
  | _ => backoffStartMs

/-- Every retry has been put off by the delay that was next. -/
def Doubling (history : List Happening) : Prop :=
  ∀ earlier socket delay later, history = earlier ++ .retry socket delay :: later →
    delay = nextDelay earlier

theorem nextDelay_le (history : List Happening) : nextDelay history ≤ backoffMaxMs := by
  unfold nextDelay
  split
  · exact Nat.min_le_right _ _
  · decide

theorem Doubling.append {history : List Happening} (h : Doubling history) (happening : Happening)
    (due : ∀ socket delay, happening = .retry socket delay → delay = nextDelay history) :
    Doubling (history ++ [happening]) := by
  intro earlier socket delay later parts
  rcases List.eq_nil_or_concat' later with rfl | ⟨later, last, rfl⟩
  · obtain ⟨rfl, same⟩ := List.append_inj' parts rfl
    exact due socket delay (List.head_eq_of_cons_eq same)
  · rw [← List.cons_append, ← List.append_assoc] at parts
    exact h earlier socket delay later (List.append_inj' parts rfl).1

namespace Bridge

/-- The sockets before the one dialed last have closed; until the disposal, either that one has not
or there is one timeout; the interval is there while that one is open; and nothing is pending after
the disposal, where that one does not open any more. -/
structure Invariant (b : Bridge) (old : List Socket) (current : Socket) : Prop where
  sockets : b.sockets = old ++ [current]
  ws : b.ws = some old.length
  ended : ∀ socket ∈ old, socket.closed = true
  attempt : b.disposed = false →
    current.closed = false ∧ b.retry = none ∧ b.timeouts = [] ∨
      current.closed = true ∧ ∃ timer, b.retry = some timer ∧ b.timeouts = [timer]
  heartbeat : b.heartbeat = none ∧ b.intervals = [] ∨
    ∃ timer, b.heartbeat = some timer ∧ b.intervals = [(timer, old.length)] ∧
      current.opened = true ∧ current.closed = false
  stopped : b.disposed = true →
    b.timeouts = [] ∧ b.heartbeat = none ∧ (current.closing = true ∨ current.closed = true)
  backoff : b.backoffMs = nextDelay b.history
  delays : Doubling b.history

section Steps

variable {env : BridgeEnv} {b : Bridge} {old : List Socket} {current : Socket} {n : Nat}

/-- Only the socket dialed last can have events to come. -/
theorem Invariant.is_current (inv : b.Invariant old current) {P : Socket → Bool}
    (not_over : ∀ socket, P socket = true → socket.closed = false)
    (h : b.sockets[n]?.any P = true) : n = old.length ∧ P current = true := by
  rw [inv.sockets] at h
  cases found : (old ++ [current])[n]? with
  | none =>
    rw [found] at h
    cases h
  | some socket =>
    rw [found] at h
    have property : P socket = true := h
    obtain ⟨within, rfl⟩ := List.getElem?_eq_some_iff.mp found
    by_cases earlier : n < old.length
    · have not_closed := not_over _ property
      rw [List.getElem_append_left earlier, inv.ended _ (List.getElem_mem earlier)] at not_closed
      cases not_closed
    · obtain rfl : n = old.length := by
        rw [List.length_append, List.length_singleton] at within
        omega
      rw [List.getElem_concat_length rfl] at property
      exact ⟨rfl, property⟩

theorem modify_last (f : Socket → Socket) :
    (old ++ [current]).modify old.length f = old ++ [f current] := by
  induction old with
  | nil => rfl
  | cons first old ih => exact congrArg (List.cons first) ih

theorem Invariant.intervals_cleared (inv : b.Invariant old current) {b' : Bridge}
    (heartbeat : b'.heartbeat = b.heartbeat) (intervals : b'.intervals = b.intervals) :
    b'.clearHeartbeat.intervals = [] := by
  refine clearHeartbeat_intervals b' (fun none_left => ?_) (fun timer some_left => ?_)
  · rcases inv.heartbeat with ⟨-, no_interval⟩ | ⟨timer, a_timer, -⟩
    · rw [intervals, no_interval]
    · rw [heartbeat, a_timer] at none_left
      cases none_left
  · rcases inv.heartbeat with ⟨no_timer, -⟩ | ⟨timer', a_timer, an_interval, -⟩
    · rw [heartbeat, no_timer] at some_left
      cases some_left
    · rw [heartbeat, a_timer] at some_left
      cases some_left
      exact ⟨old.length, intervals.trans an_interval⟩

theorem Invariant.no_interval (inv : b.Invariant old current) (disposed : b.disposed = true) :
    b.intervals = [] := by
  rcases inv.heartbeat with ⟨-, no_interval⟩ | ⟨timer, a_timer, -⟩
  · exact no_interval
  · exact absurd ((inv.stopped disposed).2.1.symm.trans a_timer) (Option.some_ne_none timer).symm

/-- A socket that has not closed is that of a running attempt. -/
theorem Invariant.attempted (inv : b.Invariant old current) (running : b.disposed = false)
    (not_closed : current.closed = false) : b.retry = none ∧ b.timeouts = [] := by
  rcases inv.attempt running with ⟨-, idle⟩ | ⟨closed, -⟩
  · exact idle
  · rw [not_closed] at closed
    cases closed

theorem Invariant.opened (inv : b.Invariant old current)
    (h : b.enabled (.opened n) = true) :
    (b.step env (.opened n)).Invariant old { current with opened := true } := by
  obtain ⟨rfl, fresh⟩ := inv.is_current (by simp) h
  obtain ⟨⟨not_opened, not_closing⟩, not_closed⟩ :
      (current.opened = false ∧ current.closing = false) ∧ current.closed = false := by
    simpa using fresh
  have running : b.disposed = false := by
    rw [Bool.eq_false_iff]
    intro disposed
    rcases (inv.stopped disposed).2.2 with closing | closed
    · exact absurd (not_closing.symm.trans closing) Bool.false_ne_true
    · exact absurd (not_closed.symm.trans closed) Bool.false_ne_true
  refine ⟨?_, ?_, inv.ended, fun _ => .inl ⟨not_closed, ?_⟩, ?_, fun disposed => ?_, ?_, ?_⟩
  · simp only [step, onOpen, clearHeartbeat_sockets, inv.sockets, modify_last]
  · simp only [step, onOpen, clearHeartbeat_ws, inv.ws]
  · simp only [step, onOpen, clearHeartbeat_retry, clearHeartbeat_timeouts]
    exact inv.attempted running not_closed
  · refine .inr ⟨_, rfl, ?_, rfl, not_closed⟩
    simp only [step, onOpen]
    rw [inv.intervals_cleared ?_ ?_, List.nil_append] <;> rfl
  · simp only [step, onOpen, clearHeartbeat_disposed, running] at disposed
    cases disposed
  · simp [step, onOpen, nextDelay]
  · simp only [step, onOpen, clearHeartbeat_history]
    exact inv.delays.append _ (fun _ _ other => nomatch other)

theorem Invariant.errored (inv : b.Invariant old current)
    (h : b.enabled (.errored n) = true) :
    (b.step env (.errored n)).Invariant old { current with closing := true } := by
  obtain ⟨rfl, -⟩ := inv.is_current (by simp) h
  refine ⟨?_, inv.ws, inv.ended, inv.attempt, inv.heartbeat, fun disposed => ?_, inv.backoff,
    inv.delays⟩
  · simp only [step, close, inv.sockets, modify_last]
  · exact ⟨(inv.stopped disposed).1, (inv.stopped disposed).2.1, .inl rfl⟩

theorem Invariant.closed (inv : b.Invariant old current)
    (h : b.enabled (.closed n) = true) :
    (b.step env (.closed n)).Invariant old { current with closed := true } := by
  obtain ⟨rfl, open_yet⟩ := inv.is_current (by simp) h
  have not_closed : current.closed = false := by simpa using open_yet
  simp only [step, reconnect]
  split_ifs with passed
  · -- nothing but the disposal holds a retry back
    have disposed : b.disposed = true := by
      by_contra running
      rw [Bool.not_eq_true] at running
      rw [running, (inv.attempted running not_closed).1, inv.ws] at passed
      simp at passed
    refine ⟨?_, inv.ws, inv.ended, fun running => ?_, .inl ?_, fun _ => ?_, inv.backoff, inv.delays⟩
    · simp only [inv.sockets, modify_last]
    · exact absurd (disposed.symm.trans running) (by decide)
    · exact ⟨(inv.stopped disposed).2.1, inv.no_interval disposed⟩
    · exact ⟨(inv.stopped disposed).1, (inv.stopped disposed).2.1, .inr rfl⟩
  · obtain ⟨running, no_retry, -⟩ : b.disposed = false ∧ b.retry = none ∧ _ := by
      simpa [not_or] using passed
    refine ⟨?_, ?_, inv.ended, fun _ => .inr ⟨rfl, _, rfl, ?_⟩, .inl ?_, fun disposed => ?_, ?_, ?_⟩
    · simp only [clearHeartbeat_sockets, inv.sockets, modify_last]
    · simp only [clearHeartbeat_ws, inv.ws]
    · simp only [clearHeartbeat_timeouts, (inv.attempted running not_closed).2, List.nil_append]
    · exact ⟨clearHeartbeat_heartbeat _, inv.intervals_cleared rfl rfl⟩
    · simp only [clearHeartbeat_disposed, running] at disposed
      cases disposed
    · simp [nextDelay]
    · simp only [clearHeartbeat_history, clearHeartbeat_backoffMs]
      refine inv.delays.append _ (fun socket delay same => ?_)
      cases same
      exact inv.backoff

/-- The timeout dials the next socket, behind all those that have closed. -/
theorem Invariant.expired (inv : b.Invariant old current)
    (h : b.enabled (.expired n) = true) :
    (b.step env (.expired n)).Invariant (old ++ [current]) ⟨b.target, false, false, false⟩ := by
  have pending : n ∈ b.timeouts := by simpa [enabled] using h
  have running : b.disposed = false := by
    rw [Bool.eq_false_iff]
    intro disposed
    rw [(inv.stopped disposed).1] at pending
    exact List.not_mem_nil pending
  obtain ⟨closed, timer, -, only⟩ := (inv.attempt running).resolve_left fun idle => by
    rw [idle.2.2] at pending
    exact List.not_mem_nil pending
  rw [only] at pending
  obtain rfl := List.mem_singleton.mp pending
  have no_heartbeat : b.heartbeat = none ∧ b.intervals = [] :=
    inv.heartbeat.resolve_right fun ⟨_, _, _, _, not_closed⟩ =>
      absurd (closed.symm.trans not_closed) (by decide)
  simp only [step, connect, running, Bool.false_eq_true, if_false]
  refine ⟨?_, ?_, ?_, fun _ => .inl ⟨rfl, rfl, ?_⟩, .inl no_heartbeat, fun disposed => ?_,
    inv.backoff, inv.delays⟩
  · simp only [inv.sockets]
  · simp only [inv.sockets]
  · intro socket mem
    rcases List.mem_append.mp mem with mem | mem
    · exact inv.ended socket mem
    · rw [List.mem_singleton.mp mem]
      exact closed
  · simp [only]
  · cases disposed

theorem Invariant.ticked (inv : b.Invariant old current) :
    (b.step env (.ticked n)).Invariant old current :=
  ⟨inv.sockets, inv.ws, inv.ended, inv.attempt, inv.heartbeat, inv.stopped, inv.backoff,
    inv.delays⟩

theorem Invariant.disposed (inv : b.Invariant old current) (h : b.enabled .disposed = true) :
    (b.step env .disposed).Invariant old { current with closing := true } := by
  have running : b.disposed = false := by simpa [enabled] using h
  have no_timeout : (b.step env .disposed).timeouts = [] := by
    rcases inv.attempt running with ⟨-, no_retry, none_pending⟩ | ⟨-, timer, retry, only⟩
    · simp only [step, dispose, clearHeartbeat_ws, inv.ws, close, clearHeartbeat_timeouts, no_retry,
        none_pending]
    · simp [step, dispose, inv.ws, close, retry, only]
  simp only [step, dispose, clearHeartbeat_ws, inv.ws, close] at no_timeout ⊢
  refine ⟨?_, ?_, inv.ended, fun running => ?_, .inl ⟨?_, ?_⟩, fun _ => ⟨no_timeout, ?_, .inl rfl⟩,
    ?_, ?_⟩
  · simp only [clearHeartbeat_sockets, inv.sockets, modify_last]
  · rfl
  · simp at running
  · exact clearHeartbeat_heartbeat _
  · exact inv.intervals_cleared rfl rfl
  · exact clearHeartbeat_heartbeat _
  · simp only [clearHeartbeat_backoffMs, clearHeartbeat_history, inv.backoff]
  · simp only [clearHeartbeat_history]
    exact inv.delays

theorem Invariant.step (inv : b.Invariant old current) (event : Event)
    (h : b.enabled event = true) :
    ∃ old current, (b.step env event).Invariant old current := by
  cases event with
  | opened n => exact ⟨_, _, inv.opened h⟩
  | errored n => exact ⟨_, _, inv.errored h⟩
  | closed n => exact ⟨_, _, inv.closed h⟩
  | expired n => exact ⟨_, _, inv.expired h⟩
  | ticked n => exact ⟨_, _, inv.ticked⟩
  | disposed => exact ⟨_, _, inv.disposed h⟩

end Steps

end Bridge

theorem activate_invariant {env : BridgeEnv} {start : Bridge} (h : activate env = some start) :
    start.Invariant [] ⟨start.target, false, false, false⟩ := by
  unfold activate at h
  split at h
  · cases h
    refine ⟨rfl, rfl, fun _ mem => absurd mem List.not_mem_nil, fun _ => .inl ⟨rfl, rfl, rfl⟩,
      .inl ⟨rfl, rfl⟩, fun disposed => ?_, rfl, fun earlier socket delay later parts => ?_⟩
    · cases disposed
    · exact absurd parts.symm (List.append_ne_nil_of_right_ne_nil _ (List.cons_ne_nil _ _))
  · cases h

namespace Bridge

/-- What an event is recorded as: a socket that opens, and until the disposal the retry after one
that closes, put off by the backoff as it stands. -/
def happenings (b : Bridge) : Event → List Happening
  | .opened n => [.opened n]
  | .closed n => if b.disposed then [] else [.retry n b.backoffMs]
  | .errored _ | .expired _ | .ticked _ | .disposed => []

/-- What holds of the loop whenever the runtime is about to call back. -/
structure Steady (env : BridgeEnv) (b : Bridge) : Prop where
  /-- Until the disposal, either the socket dialed last has not closed or one timeout is pending. -/
  attempt : b.disposed = false →
    b.Live ∧ b.timeouts = [] ∨ ¬ b.Live ∧ ∃ timer, b.timeouts = [timer]
  /-- A timeout that is new is due to the close of the socket dialed last. -/
  schedules : ∀ event, b.enabled event = true → ∀ timer ∈ (b.step env event).timeouts,
    timer ∉ b.timeouts → ∃ n, event = .closed n ∧ b.ws = some n
  /-- An interval is the one of the socket dialed last, which is open. -/
  heartbeat : b.intervals = [] ∨ ∃ timer n socket, b.intervals = [(timer, n)] ∧ b.ws = some n ∧
    b.sockets[n]? = some socket ∧ socket.opened = true ∧ socket.closed = false
  /-- The history below is that of the events. -/
  recorded : ∀ event, b.enabled event = true →
    (b.step env event).history = b.history ++ b.happenings event
  /-- An open is one of the socket dialed last, and the backoff starts again with it. -/
  resets : ∀ n, b.enabled (.opened n) = true →
    b.ws = some n ∧ (b.step env (.opened n)).backoffMs = 1000
  /-- A delay is twice the one before it, up to the bound, and the first one unless there was one
  since the last open. -/
  delays : ∀ earlier socket delay later, b.history = earlier ++ .retry socket delay :: later →
    delay ≤ 30000 ∧ delay = match earlier.getLast? with
      | some (.retry _ before) => min (2 * before) 30000
      | _ => 1000
  /-- After the disposal nothing is pending and nothing is dialed. -/
  stopped : b.disposed = true → b.timeouts = [] ∧ b.intervals = [] ∧
    ∀ event, b.enabled event = true → (b.step env event).sockets.length = b.sockets.length

theorem Invariant.live_iff {b : Bridge} {old : List Socket} {current : Socket}
    (inv : b.Invariant old current) : b.Live ↔ current.closed = false := by
  have found : b.sockets[old.length]? = some current := by
    rw [inv.sockets, List.getElem?_concat_length]
  constructor
  · rintro ⟨n, socket, ws, there, not_closed⟩
    obtain rfl := Option.some.inj (inv.ws.symm.trans ws)
    obtain rfl := Option.some.inj (found.symm.trans there)
    exact not_closed
  · exact fun not_closed => ⟨old.length, current, inv.ws, found, not_closed⟩

/-- Timeouts come from the close handler of the socket dialed last. -/
theorem step_timeouts (env : BridgeEnv) (b : Bridge) (event : Event) :
    ∀ timer ∈ (b.step env event).timeouts, timer ∉ b.timeouts →
      ∃ n, event = .closed n ∧ b.ws = some n := by
  intro timer mem new
  cases event with
  | opened n =>
    simp only [step, onOpen, clearHeartbeat_timeouts] at mem
    exact absurd mem new
  | errored n => exact absurd mem new
  | closed n =>
    simp only [step, reconnect] at mem
    split_ifs at mem with passed
    · exact absurd mem new
    · simp only [not_or, not_not] at passed
      exact ⟨n, rfl, passed.2.2⟩
  | expired n =>
    simp only [step, connect] at mem
    split_ifs at mem <;> exact absurd (List.mem_of_mem_filter mem) new
  | ticked n => exact absurd mem new
  | disposed =>
    have kept : timer ∈ b.timeouts := by
      simp only [step, dispose, clearHeartbeat_ws] at mem
      cases retry : b.retry <;> cases ws : b.ws <;>
        simp only [retry, ws, close, clearHeartbeat_timeouts] at mem
      · exact mem
      · exact mem
      · exact List.mem_of_mem_filter mem
      · exact List.mem_of_mem_filter mem
    exact absurd kept new

/-- A retry is put off whenever a socket closes before the disposal. -/
theorem Invariant.step_history (env : BridgeEnv) {b : Bridge} {old : List Socket}
    {current : Socket} (inv : b.Invariant old current) (event : Event)
    (h : b.enabled event = true) :
    (b.step env event).history = b.history ++ b.happenings event := by
  cases event with
  | opened n => simp [Bridge.step, onOpen, happenings]
  | errored n => simp [Bridge.step, close, happenings]
  | closed n =>
    obtain ⟨rfl, open_yet⟩ := inv.is_current (by simp) h
    have not_closed : current.closed = false := by simpa using open_yet
    cases disposed : b.disposed with
    | true => simp [Bridge.step, reconnect, happenings, disposed]
    | false =>
      have no_retry := (inv.attempted disposed not_closed).1
      simp [Bridge.step, reconnect, happenings, disposed, no_retry, inv.ws]
  | expired n =>
    simp only [Bridge.step, connect, happenings, List.append_nil]
    split_ifs <;> rfl
  | ticked n => simp [Bridge.step, happenings]
  | disposed => cases ws : b.ws <;> simp [Bridge.step, dispose, close, happenings, ws]

theorem step_disposed_sockets (env : BridgeEnv) (b : Bridge) (event : Event)
    (disposed : b.disposed = true) :
    (b.step env event).sockets.length = b.sockets.length := by
  cases event with
  | opened n => simp [step, onOpen]
  | errored n => simp [step, close]
  | closed n => simp [step, reconnect, disposed]
  | expired n => simp [step, connect, disposed]
  | ticked n => rfl
  | disposed =>
    cases ws : b.ws <;> simp [step, dispose, close, ws]

theorem Invariant.steady {env : BridgeEnv} {b : Bridge} {old : List Socket} {current : Socket}
    (inv : b.Invariant old current) : b.Steady env := by
  refine ⟨fun running => ?_, fun event _ => step_timeouts env b event, ?_,
    inv.step_history env, fun n fresh => ?_, ?_, fun disposed => ?_⟩
  · rw [inv.live_iff]
    rcases inv.attempt running with ⟨not_closed, -, idle⟩ | ⟨closed, timer, -, only⟩
    · exact .inl ⟨not_closed, idle⟩
    · exact .inr ⟨by simp [closed], timer, only⟩
  · rcases inv.heartbeat with ⟨-, no_interval⟩ | ⟨timer, -, only, opened, not_closed⟩
    · exact .inl no_interval
    · refine .inr ⟨timer, old.length, current, only, inv.ws, ?_, opened, not_closed⟩
      rw [inv.sockets, List.getElem?_concat_length]
  · obtain ⟨rfl, -⟩ := inv.is_current (by simp) fresh
    exact ⟨inv.ws, by simp [Bridge.step, onOpen, backoffStartMs]⟩
  · intro earlier socket delay later parts
    have due := inv.delays earlier socket delay later parts
    refine ⟨due ▸ nextDelay_le earlier, ?_⟩
    rw [due, nextDelay]
    split
    · rw [nextBackoff, Nat.mul_comm]
      rfl
    · rfl
  · exact ⟨(inv.stopped disposed).1, inv.no_interval disposed,
      fun event _ => step_disposed_sockets env b event disposed⟩

end Bridge

/-- Whatever the sockets do and whenever the timers expire, the loop of an active bridge neither
stalls nor doubles. -/
theorem redials (env : BridgeEnv) (start : Bridge) (active : activate env = some start)
    (events : List Event)
    (along : Along (Bridge.step env) (fun b event => b.enabled event = true) start events) :
    (events.foldl (Bridge.step env) start).Steady env := by
  obtain ⟨old, current, inv⟩ := along.invariant
    (P := fun b => ∃ old current, b.Invariant old current)
    (fun b event ⟨_, _, inv⟩ met => inv.step event met) events start
    ⟨_, _, activate_invariant active⟩
  exact inv.steady

/-- A server that answers, goes away and is not there at the next dial, until the window closes. -/
theorem redials_disposed :
    (([.opened 0, .ticked 0, .errored 0, .closed 0, .expired 1, .errored 1, .closed 1,
      .disposed] : List Event).foldl
        (Bridge.step ⟨none, some "ws://fleet", some "a", none, none, none⟩)
        (Bridge.connect
          ⟨"ws://fleet", "a", none, false, none, 1000, none, [], [], [], 0, [], []⟩)).Steady
      ⟨none, some "ws://fleet", some "a", none, none, none⟩ :=
  redials ⟨none, some "ws://fleet", some "a", none, none, none⟩ _ (by decide) _ (by decide)

end FleetBridge

end VsFleet
