import VsFleet.Reporter.Proofs.Backlog

/-!
# What holds between the rounds of the driver

The backlog invariant, with any further fact `X` about the frames read, the deltas issued, the core
and what waits, is carried through sends, flushes and rounds. While a connection is served nothing
waits.
-/

namespace VsFleet

/-! ## What the core can do at once -/

/-- The sessions a command upserts are the reporter's own. -/
def ReporterCommand.Own (sessionId : String) : ReporterCommand → Prop
  | .upsertSession session => session.sessionId = sessionId
  | _ => True

/-- One move of the core: nothing but liveness, a registration, or a report. -/
inductive ReporterCore.Moves (core : ReporterCore) : ReporterCore → Prop
  | silent (liveness : HashMap String LivenessTracker) : Moves core { core with liveness }
  | register (session : Session) (own : session.sessionId = core.config.sessionId) : Moves core
      ({ core with registeredSession := some session }.enqueue (.sessionUpsert session))
  | report (liveness : HashMap String LivenessTracker) (run : AgentRun) :
      Moves core ({ core with liveness }.report run)

theorem ReporterCore.apply_moves (core : ReporterCore) (iso : String) {cmd : ReporterCommand}
    (own : cmd.Own core.config.sessionId) : core.Moves (core.apply iso cmd).2 := by
  cases cmd with
  | upsertSession session => exact .register session own
  | upsertRun run => exact .report _ run
  | liveness runId => exact .silent _
  | confirmExit runId reason => exact .report _ _
  | shutdown => exact .silent core.liveness

theorem ReporterCore.reapOne_moves (core : ReporterCore) (iso : String → String) (id : String) :
    core.Moves (core.reapOne iso id) := .report _ _

theorem ReporterCore.Moves.config {core core' : ReporterCore} (h : core.Moves core') :
    core'.config = core.config := by
  cases h <;> rfl

theorem Backlog.moves {hub : StateStore} {core core' : ReporterCore}
    (h : Backlog hub core core.buffer.queue) (moves : core.Moves core') :
    Backlog hub core' core'.buffer.queue := by
  cases moves with
  | silent liveness => exact { h with }
  | register session own => exact h.upsertSession own rfl
  | report liveness run =>
    have silent : Backlog hub { core with liveness } core.buffer.queue := { h with }
    exact silent.report run

theorem Backlog.new (config : ReporterConfig) (log : EventLog) :
    Backlog (.fromLog log) (.new config) [] where
  ordered := List.Pairwise.nil
  issued := by simp
  fits := Nat.zero_le _
  room := by simp [ReporterCore.new, DeltaBuffer.new, DeltaBuffer.withCapacity]
  own := by simp
  registered := by simp [ReporterCore.new]
  known := OrderedMap.Indexed.empty
  latest := by simp [lastReport, lastOf, reports]
  ascending := List.Pairwise.nil
  stamped := by simp
  firstEpoch := IdentityLedger.firstEpoch_new
  marks := by simp [StateStore.fromLog]
  fresh := by simp [Fresh]

/-! ## Facts carried along -/

/-- A fact about the frames read, the deltas issued, the core and the deltas that wait. -/
abbrev Fact := List Frame → List Delta → ReporterCore → List Delta → Prop

/-- The fact survives what the Hub reads of the backlog and what the core does; it looks neither
into the buffer nor at the clock. -/
structure Fact.Steady (start : StateStore) (X : Fact) : Prop where
  pop : ∀ {heard issued core d ds}, X heard issued core (d :: ds) → X heard issued core ds
  hear : ∀ {heard issued core d ds}, Backlog (heard.foldl StateStore.hear start) core (d :: ds) →
    X heard issued core (d :: ds) → X (heard ++ [.delta d]) issued core (d :: ds)
  queue : ∀ {heard issued core ds} (q : List Delta), X heard issued core ds →
    X heard issued { core with buffer := { core.buffer with queue := q } } ds
  now : ∀ {heard issued core ds} (now : Nat), X heard issued core ds →
    X heard issued { core with now } ds
  moves : ∀ {heard issued} {core core' : ReporterCore},
    Backlog (heard.foldl StateStore.hear start) core core.buffer.queue →
    X heard issued core core.buffer.queue → core.Moves core' →
    X heard (issued ++ core'.buffer.queue.filter (fun d => core.buffer.nextSeq ≤ d.seq)) core'
      core'.buffer.queue

namespace Link

section

variable {start : StateStore} {X : Fact} {link : Link} {d : Delta} {pending : List Delta}

/-- The invariant and the fact, with the given deltas waiting. -/
def At (start : StateStore) (X : Fact) (link : Link) (pending : List Delta) : Prop :=
  Backlog (link.hub start) link.core pending ∧ X link.heard link.issued link.core pending

/-- What holds between two rounds. -/
structure Rests (start : StateStore) (X : Fact) (link : Link) : Prop where
  at_ : link.At start X link.core.buffer.queue
  served : link.up = true → link.core.buffer.queue = []

theorem At.pop (steady : X.Steady start) (h : link.At start X (d :: pending)) :
    link.At start X pending := ⟨h.1.pop, steady.pop h.2⟩

/-- The oldest delta goes out on a connection that may have been cut. -/
theorem At.read (steady : X.Steady start) (h : link.At start X (d :: pending)) :
    At start X { link with
      heard := if link.cut then link.heard else link.heard ++ [.delta d] } (d :: pending) := by
  split
  · exact h
  · refine ⟨?_, steady.hear h.1 h.2⟩
    have hub : hub start { link with heard := link.heard ++ [.delta d] } =
        (link.hub start).hear (.delta d) := List.foldl_append ..
    rw [hub]
    exact h.1.hear

/-- The loop of a flush sends a beginning of the batch; a connection that is still up has taken
all of it. -/
theorem flushLoop_at (steady : X.Steady start) (batch : List Delta) :
    ∀ (net : List Sending) {link : Link}, link.At start X batch →
    (flushLoop batch net link).2.At start X (flushLoop batch net link).1 ∧
      (flushLoop batch net link).2.core = link.core ∧
      ((flushLoop batch net link).2.up = true → (flushLoop batch net link).1 = []) := by
  induction batch with
  | nil => exact fun net link h => ⟨h, rfl, fun _ => rfl⟩
  | cons d batch ih =>
    intro net link h
    unfold flushLoop
    cases net.headD .arrives with
    | arrives => exact ih net.tail ((h.read steady).pop steady)
    | lost =>
      have lost : At start X { link with cut := true } batch := h.pop steady
      exact ih net.tail lost
    | failed arrives =>
      cases arrives with
      | true => exact ⟨h.read steady, rfl, nofun⟩
      | false => exact ⟨h, rfl, nofun⟩

theorem At.flush (steady : X.Steady start) (h : link.At start X link.core.buffer.queue)
    (net : List Sending) : (link.flush net).Rests start X := by
  have drained : At start X { link with core := link.core.drain.2 } link.core.buffer.queue :=
    ⟨{ h.1 with }, steady.queue [] h.2⟩
  obtain ⟨rest, core, served⟩ := flushLoop_at steady _ net drained
  unfold Link.flush
  simp only [show link.core.drain.1 = link.core.buffer.queue from rfl]
  generalize flushLoop link.core.buffer.queue net { link with core := link.core.drain.2 } =
    outcome at rest core served ⊢
  obtain ⟨unsent, after⟩ := outcome
  have empty : after.core.buffer.queue = [] := by rw [core]; rfl
  cases unsent with
  | nil =>
    refine ⟨?_, fun _ => empty⟩
    simp only [List.isEmpty_nil, if_true, empty]
    exact rest
  | cons d unsent =>
    simp only [List.isEmpty_cons, Bool.false_eq_true, if_false]
    rw [ReporterCore.requeueUnsent_of_empty rest.1.ordered rest.1.issued rest.1.fits empty]
    refine ⟨⟨{ rest.1 with }, steady.queue _ rest.2⟩, fun up => ?_⟩
    cases served up

/-- A whole view may go out first; the fact must survive its reading. -/
theorem At.sync (steady : X.Steady start) (h : link.At start X link.core.buffer.queue)
    (net : List Sending) (whole : ∀ msg ∈ link.core.heartbeatMessage,
      X (link.heard ++ [.whole link.core.lastSeq msg]) link.issued link.core
        link.core.buffer.queue) :
    (link.sync link.core.heartbeatMessage net).Rests start X := by
  unfold Link.sync
  cases view : link.core.heartbeatMessage with
  | none => exact h.flush steady net
  | some msg =>
    have read : At start X { link with
        heard := if link.cut then link.heard
          else link.heard ++ [.whole link.core.lastSeq msg] } link.core.buffer.queue := by
      split
      · exact h
      · refine ⟨?_, whole msg view⟩
        have hub : hub start { link with
            heard := link.heard ++ [.whole link.core.lastSeq msg] } =
            (link.hub start).hear (.whole link.core.lastSeq msg) := List.foldl_append ..
        rw [hub]
        obtain ⟨s, registered, rfl⟩ := Option.map_eq_some_iff.mp view
        exact h.1.hearWhole _ _ (h.1.registered s registered)
    cases hnet : net.headD .arrives with
    | arrives => exact At.flush steady (by exact read) net.tail
    | lost =>
      have lost : At start X { link with cut := true } link.core.buffer.queue := h
      exact lost.flush steady net.tail
    | failed arrives =>
      cases arrives with
      | true => exact ⟨read, nofun⟩
      | false => exact ⟨h, nofun⟩

theorem At.absorb (steady : X.Steady start) (h : link.At start X link.core.buffer.queue)
    {core : ReporterCore} (moves : link.core.Moves core) :
    (link.absorb core).At start X core.buffer.queue := ⟨h.1.moves moves, steady.moves h.1 h.2 moves⟩

theorem At.advance (steady : X.Steady start) (h : link.At start X link.core.buffer.queue)
    (elapsed : Nat) : At start X { link with core := link.core.advanceTo elapsed }
      (link.core.advanceTo elapsed).buffer.queue := by
  unfold ReporterCore.advanceTo
  split
  · exact ⟨{ h.1 with }, steady.now elapsed h.2⟩
  · exact h

theorem At.reap (steady : X.Steady start) (iso : String → String) (runIds : List String) :
    ∀ {link : Link}, link.At start X link.core.buffer.queue →
    (link.reap iso runIds).At start X (link.reap iso runIds).core.buffer.queue := by
  induction runIds with
  | nil => exact fun h => h
  | cons id runIds ih => exact fun h => ih (h.absorb steady (ReporterCore.reapOne_moves _ iso id))

theorem At.pumpPending (steady : X.Steady start) (pending : List (String × ReporterCommand)) :
    ∀ {link : Link}, link.At start X link.core.buffer.queue →
    (∀ cmd ∈ pending, cmd.2.Own link.core.config.sessionId) →
    (link.pumpPending pending).At start X (link.pumpPending pending).core.buffer.queue ∧
      (link.pumpPending pending).up = link.up := by
  induction pending with
  | nil => exact fun h _ => ⟨h, rfl⟩
  | cons cmd pending ih =>
    intro link h own
    have moves := link.core.apply_moves cmd.1 (own cmd (by simp))
    refine ih (h.absorb steady moves) (fun cmd' hcmd' => ?_)
    have config : (link.absorb (link.core.apply cmd.1 cmd.2).2).core.config = link.core.config :=
      moves.config
    rw [config]
    exact own cmd' (by simp [hcmd'])

/-- The sessions of the commands of a step are the reporter's own. -/
def Step.Own (sessionId : String) : Step → Prop
  | .refused pending => ∀ cmd ∈ pending, cmd.2.Own sessionId
  | .command _ cmd _ => cmd.Own sessionId
  | _ => True

/-- The driver about to send a whole view, where the step is one that sends it. -/
def viewing (link : Link) : Step → Option Link
  | .connect _ => if link.up then none else some { link with up := true, cut := false }
  | .tick elapsed iter iso _ =>
    if link.up then
      some ({ link with core := link.core.advanceTo elapsed }.reap iso
        ((link.core.advanceTo elapsed).timedOut iter))
    else none
  | _ => none

/-- One round keeps the invariant, and the fact where the fact survives a whole view. -/
theorem Rests.step (steady : X.Steady start) (h : link.Rests start X) (s : Step)
    (own : s.Own link.core.config.sessionId)
    (whole : ∀ at_ ∈ link.viewing s, ∀ msg ∈ at_.core.heartbeatMessage,
      at_.At start X at_.core.buffer.queue →
      X (at_.heard ++ [.whole at_.core.lastSeq msg]) at_.issued at_.core at_.core.buffer.queue) :
    (link.step s).Rests start X := by
  cases s with
  | refused pending =>
    simp only [Link.step]
    split
    · exact h
    · rename_i down
      obtain ⟨pumped, up⟩ := h.at_.pumpPending steady pending own
      exact ⟨pumped, fun served => absurd (up.symm.trans served) down⟩
  | connect net =>
    simp only [Link.step]
    split
    · exact h
    · rename_i down
      have fresh : At start X { link with up := true, cut := false } link.core.buffer.queue := h.at_
      exact fresh.sync steady net (fun msg view =>
        whole { link with up := true, cut := false } (by simp [viewing, down]) msg view fresh)
  | command iso cmd net =>
    simp only [Link.step]
    split
    · have moves := link.core.apply_moves iso own
      cases cmd with
      | shutdown => exact ⟨h.at_, nofun⟩
      | _ => exact (h.at_.absorb steady moves).flush steady net
    · exact h
  | tick elapsed iter iso net =>
    simp only [Link.step]
    split
    · rename_i up
      have reaped := (h.at_.advance steady elapsed).reap steady iso
        ((link.core.advanceTo elapsed).timedOut iter)
      exact reaped.sync steady net (fun msg view =>
        whole _ (by simp [viewing, up]) msg view reaped)
    · exact h

/-- A driver that has done nothing, against a Hub that was just opened. -/
theorem rests_new (config : ReporterConfig) (log : EventLog)
    (initial : X [] [] (.new config) []) : (Link.new config).Rests (.fromLog log) X where
  at_ := ⟨Backlog.new config log, initial⟩
  served := nofun

end

end Link

end VsFleet
