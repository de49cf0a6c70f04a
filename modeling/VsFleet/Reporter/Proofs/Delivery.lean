import Mathlib.Data.List.TakeWhile
import VsFleet.Misc.Runs
import VsFleet.Reporter.Run

/-!
# Every delta once and in order, up to the end

Whatever fails, the deltas that were sent over all connections are those that were enqueued and
neither lost to an overflow nor still waiting, in the order of their numbers. The loop returns with
nothing waiting, and with every command applied that was there before the shutdown.
-/

namespace VsFleet

/-! ## The buffer -/

/-- The buffer takes one message, or none. -/
def ReporterCore.Enqueues (core core' : ReporterCore) : Prop :=
  core'.buffer = core.buffer ∨ ∃ msg, core'.buffer = core.buffer.push msg

/-- A push makes room at the front, counts what it drops, and goes behind the rest. -/
theorem DeltaBuffer.push_parts {b : DeltaBuffer} (room : 0 < b.capacity)
    (fits : b.queue.length ≤ b.capacity) (msg : ClientMessage) :
    ∃ gone kept, b.queue = gone ++ kept ∧ (b.push msg).queue = kept ++ [⟨b.nextSeq, msg⟩] ∧
      (b.push msg).dropped = b.dropped + gone.length ∧ kept.length < b.capacity := by
  by_cases full : b.capacity ≤ b.queue.length
  · obtain ⟨old, rest, parts⟩ := List.exists_cons_of_length_pos (Nat.lt_of_lt_of_le room full)
    refine ⟨[old], rest, parts, ?_, ?_, ?_⟩
    · rw [push_queue, makeRoom, if_pos full, parts]
      rfl
    · simp [push, makeRoom, full]
    · rw [parts, List.length_cons] at fits
      omega
  · refine ⟨[], b.queue, rfl, ?_, ?_, Nat.lt_of_not_le full⟩
    · simp [makeRoom, full]
    · simp [push, makeRoom, full]

namespace ReporterCore

/-- A report enqueues its delta. -/
theorem report_enqueues (core : ReporterCore) (run : AgentRun) : core.Enqueues (core.report run) :=
  Or.inr ⟨((core.rememberRun run).stampedRunUpsert run).1, rfl⟩

/-- A command enqueues one delta at most. -/
theorem apply_enqueues (core : ReporterCore) (iso : String) (cmd : ReporterCommand) :
    core.Enqueues (core.apply iso cmd).2 := by
  cases cmd with
  | upsertSession session => exact Or.inr ⟨.sessionUpsert session, rfl⟩
  | upsertRun run => exact report_enqueues { core with liveness := _ } run
  | liveness runId => exact Or.inl rfl
  | confirmExit runId reason => exact report_enqueues { core with liveness := _ } _
  | shutdown => exact Or.inl rfl

/-- A run that is reaped is reported. -/
theorem reapOne_enqueues (core : ReporterCore) (iso : String → String) (id : String) :
    core.Enqueues (core.reapOne iso id) :=
  report_enqueues { core with liveness := core.liveness.erase id } _

/-- Only a shutdown ends the loop. -/
theorem apply_fst (core : ReporterCore) (iso : String) (cmd : ReporterCommand) :
    (core.apply iso cmd).1 = !cmd.isShutdown := by
  cases cmd <;> rfl

end ReporterCore

/-! ## What waits -/

namespace Runner

variable {r : Runner} {link : Link} {evicted pending : List Delta}

/-- The deltas that were sent, then those that wait, are the ones that were enqueued and not
evicted, in the order of their numbers. -/
structure Kept (link : Link) (evicted pending : List Delta) : Prop where
  whole : link.cut = false
  room : 0 < link.core.buffer.capacity
  fits : pending.length ≤ link.core.buffer.capacity
  ordered : link.issued.Pairwise (fun d e => d.seq < e.seq)
  numbered : ∀ d ∈ link.issued, d.seq < link.core.buffer.nextSeq
  sorted : (link.deltas ++ pending).Pairwise (fun d e => d.seq < e.seq)
  split : link.issued.Perm (evicted ++ (link.deltas ++ pending))
  counted : link.core.buffer.dropped = evicted.length

/-- What waits is what the buffer holds. -/
def Keeps (r : Runner) : Prop := Kept r.link r.evicted r.link.core.buffer.queue

/-- What waits has a number below the next. -/
theorem Kept.pending_numbered (h : Kept link evicted pending) {d : Delta} (hd : d ∈ pending) :
    d.seq < link.core.buffer.nextSeq :=
  h.numbered d (h.split.mem_iff.mpr (by simp [hd]))

/-- At the start nothing waits. -/
theorem keeps_new (config : ReporterConfig) : (new config).Keeps where
  whole := rfl
  room := by simp [new, Link.new, ReporterCore.new, DeltaBuffer.new, DeltaBuffer.withCapacity]
  fits := Nat.zero_le _
  ordered := List.Pairwise.nil
  numbered := by simp [new, Link.new]
  sorted := List.Pairwise.nil
  split := List.Perm.refl []
  counted := rfl

/-- The core has moved on by one delta at most. -/
theorem Keeps.absorb (h : r.Keeps) {core : ReporterCore} (moves : r.link.core.Enqueues core) :
    (r.absorb core).Keeps := by
  have old : r.link.core.buffer.queue.filter
      (fun d => r.link.core.buffer.nextSeq ≤ d.seq) = [] := by
    rw [List.filter_eq_nil_iff]
    intro d hd
    have numbered := h.pending_numbered hd
    simpa using numbered
  rcases moves with same | ⟨msg, pushed⟩
  · refine ⟨h.whole, ?_, ?_, ?_, ?_, ?_, ?_, ?_⟩
    all_goals simp only [Runner.absorb, Link.absorb, Link.deltas, same, old, List.append_nil,
      Nat.sub_self, List.take_zero]
    · exact h.room
    · exact h.fits
    · exact h.ordered
    · exact h.numbered
    · exact h.sorted
    · exact h.split
    · exact h.counted
  · obtain ⟨gone, kept, parts, queue, dropped, short⟩ := DeltaBuffer.push_parts h.room h.fits msg
    have fresh : core.buffer.queue.filter (fun d => r.link.core.buffer.nextSeq ≤ d.seq) =
        [⟨r.link.core.buffer.nextSeq, msg⟩] := by
      rw [parts, List.filter_append, List.append_eq_nil_iff] at old
      rw [pushed, queue, List.filter_append, old.2]
      simp
    have lost : r.link.core.buffer.queue.take (core.buffer.dropped - r.link.core.buffer.dropped) =
        gone := by
      rw [pushed, dropped, parts, Nat.add_sub_cancel_left, List.take_left]
    have around : r.link.issued.Perm ((r.evicted ++ gone) ++ (r.link.deltas ++ kept)) := by
      refine h.split.trans ?_
      rw [parts, List.append_assoc]
      exact (List.perm_append_comm_assoc ..).append_left _
    have below : ∀ d ∈ r.link.deltas ++ kept, d.seq < r.link.core.buffer.nextSeq := fun d hd =>
      h.numbered d (around.mem_iff.mpr (List.mem_append_right _ hd))
    have thinned : (r.link.deltas ++ kept).Pairwise (fun d e => d.seq < e.seq) := by
      refine h.sorted.sublist ?_
      rw [parts]
      exact (List.sublist_append_right gone kept).append_left _
    refine ⟨h.whole, ?_, ?_, ?_, ?_, ?_, ?_, ?_⟩
    all_goals simp only [Runner.absorb, Link.absorb, Link.deltas, fresh, lost]
    · rw [pushed, DeltaBuffer.push_capacity]
      exact h.room
    · rw [pushed, queue, DeltaBuffer.push_capacity, List.length_append, List.length_singleton]
      exact short
    · rw [List.pairwise_append]
      refine ⟨h.ordered, List.pairwise_singleton .., fun d hd e he => ?_⟩
      rw [List.mem_singleton.mp he]
      exact h.numbered d hd
    · intro d hd
      rw [pushed, DeltaBuffer.push_nextSeq]
      rcases List.mem_append.mp hd with old | new
      · exact Nat.lt_succ_of_lt (h.numbered d old)
      · rw [List.mem_singleton.mp new]
        exact Nat.lt_succ_self _
    · rw [pushed, queue, ← List.append_assoc, List.pairwise_append]
      refine ⟨thinned, List.pairwise_singleton .., fun d hd e he => ?_⟩
      rw [List.mem_singleton.mp he]
      exact below d hd
    · rw [pushed, queue, ← List.append_assoc, ← List.append_assoc]
      refine List.Perm.append_right _ ?_
      rw [List.append_assoc]
      exact around
    · rw [pushed, dropped, h.counted, List.length_append]

/-! ## A flush -/

/-- The loop of a flush hands over a beginning of the batch; a connection that is still up has taken
all of it. -/
theorem flushLoop_parts (batch : List Delta) : ∀ (net : List Bool) (link : Link),
    link.cut = false → ∃ gone, batch = gone ++ (Link.flushLoop batch (net.map .ofOk) link).1 ∧
      (Link.flushLoop batch (net.map .ofOk) link).2 = { link with
        heard := link.heard ++ gone.map .delta
        up := link.up && (Link.flushLoop batch (net.map .ofOk) link).1.isEmpty } := by
  induction batch with
  | nil =>
    intro net link _
    exact ⟨[], rfl, by simp [Link.flushLoop]⟩
  | cons d batch ih =>
    intro net link whole
    have taken : (net.map Sending.ofOk).headD .arrives = .ofOk (net.headD true) := by
      cases net <;> rfl
    unfold Link.flushLoop
    rw [taken]
    cases net.headD true with
    | true =>
      obtain ⟨gone, parts, after⟩ := ih net.tail
        { link with heard := link.heard ++ [.delta d] } whole
      have sent : link.send (.ofOk true) (.delta d) =
          (true, { link with heard := link.heard ++ [.delta d] }) := by
        simp [Link.send, Sending.ofOk, whole]
      rw [sent, ← List.map_tail]
      refine ⟨d :: gone, congrArg (List.cons d) parts, after.trans ?_⟩
      simp
    | false => exact ⟨[], rfl, by simp [Sending.ofOk, Link.send]⟩

/-- A flush sends a beginning of what waits and puts the rest back without a loss. -/
theorem flush_parts (h : r.Keeps) (net : List Bool) :
    ∃ gone kept, r.link.core.buffer.queue = gone ++ kept ∧ r.flush net = { r with
      link := { r.link with
        heard := r.link.heard ++ gone.map .delta
        up := r.link.up && kept.isEmpty
        core := { r.link.core with buffer := { r.link.core.buffer with queue := kept } } } } := by
  obtain ⟨gone, parts, after⟩ := flushLoop_parts r.link.core.buffer.queue net
    { r.link with core := r.link.core.drain.2 } h.whole
  unfold Runner.flush Link.flush
  simp only [show r.link.core.drain.1 = r.link.core.buffer.queue from rfl]
  generalize Link.flushLoop r.link.core.buffer.queue (net.map .ofOk)
    { r.link with core := r.link.core.drain.2 } = outcome at parts after ⊢
  obtain ⟨kept, link⟩ := outcome
  refine ⟨gone, kept, parts, ?_⟩
  dsimp only at after ⊢
  subst after
  cases kept with
  | nil => rfl
  | cons d kept =>
    have waited : ∀ e ∈ d :: kept, e ∈ r.link.core.buffer.queue := fun e he =>
      parts ▸ List.mem_append_right _ he
    have ordered : (d :: kept).Pairwise (fun d e => d.seq < e.seq) := by
      refine h.sorted.sublist ?_
      rw [parts]
      exact (List.sublist_append_right gone _).trans (List.sublist_append_right r.link.deltas _)
    have fits : (d :: kept).length ≤ r.link.core.buffer.capacity := by
      refine Nat.le_trans ?_ h.fits
      rw [parts, List.length_append]
      exact Nat.le_add_left ..
    have again := @ReporterCore.requeueUnsent_of_empty r.link.core.drain.2 (d :: kept) ordered
      (fun e he => h.pending_numbered (waited e he)) fits rfl
    simp only [List.isEmpty_cons, Bool.false_eq_true, if_false, again]
    rfl

/-- A flush keeps the deltas in order, and with the link up it leaves none. -/
theorem Keeps.flush (h : r.Keeps) (net : List Bool) :
    (r.flush net).Keeps ∧
      ((r.flush net).link.up = true → (r.flush net).link.core.buffer.queue = []) := by
  obtain ⟨gone, kept, parts, eq⟩ := flush_parts h net
  rw [eq]
  have sent : (r.link.heard ++ gone.map Frame.delta).filterMap Frame.delta? =
      r.link.deltas ++ gone := by
    rw [List.filterMap_append, List.filterMap_map, show Frame.delta? ∘ Frame.delta = some from rfl,
      List.filterMap_some]
    rfl
  have fits := h.fits
  have sorted := h.sorted
  have split := h.split
  rw [parts] at fits sorted split
  refine ⟨⟨h.whole, h.room, ?_, h.ordered, h.numbered, ?_, ?_, h.counted⟩, fun up => ?_⟩
  · rw [List.length_append] at fits
    exact Nat.le_trans (Nat.le_add_left ..) fits
  · rw [Link.deltas, sent, List.append_assoc]
    exact sorted
  · rw [Link.deltas, sent, List.append_assoc r.link.deltas]
    exact split
  · rw [Bool.and_eq_true] at up
    exact List.isEmpty_iff.mp up.2

/-- Only the buffer of the core matters. -/
theorem Kept.congr (h : Kept link evicted pending) {core : ReporterCore}
    (same : core.buffer = link.core.buffer) (up : Bool) :
    Kept { link with core, up } evicted pending where
  whole := h.whole
  room := by simpa only [same] using h.room
  fits := by simpa only [same] using h.fits
  ordered := h.ordered
  numbered := by simpa only [same] using h.numbered
  sorted := h.sorted
  split := h.split
  counted := by simpa only [same] using h.counted

/-- So does a reaping. -/
theorem Keeps.reap (iso : String → String) (runIds : List String) :
    ∀ {r : Runner}, r.Keeps → (r.reap iso runIds).Keeps := by
  induction runIds with
  | nil => exact fun h => h
  | cons id runIds ih =>
    intro r h
    exact ih (h.absorb (r.link.core.reapOne_enqueues iso id))

/-- A whole view goes out, and the rest follows; or it does not, and the connection is gone. -/
theorem announce_cases (whole : r.link.cut = false) (view : Option ClientMessage) (net : List Bool)
    (rest : Runner → List Bool → Runner) :
    (∃ heard net', heard.filterMap Frame.delta? = r.link.deltas ∧
      r.announce view net rest = rest { r with link := { r.link with heard } } net') ∨
    r.announce view net rest = { r with link := { r.link with up := false } } := by
  unfold announce
  cases view with
  | none => exact Or.inl ⟨r.link.heard, net, rfl, rfl⟩
  | some msg =>
    cases net.headD true with
    | true =>
      refine Or.inl ⟨r.link.heard ++ [.whole r.link.core.lastSeq msg], net.tail, ?_, ?_⟩
      · rw [List.filterMap_append]
        exact List.append_nil _
      · simp [Sending.ofOk, Link.send, whole]
    | false => exact Or.inr rfl

/-- Frames that are no deltas play no part. -/
theorem Kept.heard (h : Kept link evicted pending) {heard : List Frame}
    (same : heard.filterMap Frame.delta? = link.deltas) :
    Kept { link with heard } evicted pending where
  whole := h.whole
  room := h.room
  fits := h.fits
  ordered := h.ordered
  numbered := h.numbered
  sorted := by simpa only [Link.deltas, same] using h.sorted
  split := by simpa only [Link.deltas, same] using h.split
  counted := h.counted

/-! ## The channel -/

/-- The part of the state that is about the channel. -/
def channel (r : Runner) : List (String × ReporterCommand) × Bool × Bool × Bool ×
    List (String × ReporterCommand) × List (String × ReporterCommand) :=
  (r.commands, r.closed, r.shutdownRequested, r.returned, r.submitted, r.applied)

/-- A reaping leaves the channel. -/
theorem reap_channel (iso : String → String) (runIds : List String) :
    ∀ r : Runner, (r.reap iso runIds).channel = r.channel := by
  induction runIds with
  | nil => exact fun _ => rfl
  | cons id runIds ih => exact fun r => ih (r.absorb (r.link.core.reapOne iso id))

/-- A shutdown is among the commands. -/
def Ends (cmds : List (String × ReporterCommand)) : Prop := ∃ cmd ∈ cmds, cmd.2.isShutdown = true

/-- What was submitted has been applied in its order, up to what waits in the channel, or, at the
end, up to a shutdown. -/
structure InOrder (r : Runner) : Prop where
  parts : ∃ rest, r.submitted = r.applied ++ rest ∧ (r.returned = false → rest = r.commands) ∧
    (r.returned = true → rest = [] ∨ Ends r.applied ∨
      ∃ cmd later, rest = cmd :: later ∧ cmd.2.isShutdown = true)
  requested : r.shutdownRequested = true → Ends r.applied

/-- The order of the commands depends on the channel alone. -/
theorem InOrder.congr (h : r.InOrder) {r' : Runner} (same : r'.channel = r.channel) :
    r'.InOrder := by
  simp only [channel, Prod.mk.injEq] at same
  obtain ⟨commands, -, requested, returned, submitted, applied⟩ := same
  refine ⟨?_, ?_⟩
  · rw [commands, returned, submitted, applied]
    exact h.parts
  · rw [requested, applied]
    exact h.requested

/-- Taking in what waits in the channel. -/
theorem pump_parts (cmds : List (String × ReporterCommand)) : ∀ (saw : Bool) (r : Runner),
    r.Keeps →
    let out := cmds.foldl (fun (saw, r) cmd =>
      (if (r.link.core.apply cmd.1 cmd.2).1 then saw else true, r.apply cmd)) (saw, r)
    out.1 = (saw || cmds.any (fun cmd => cmd.2.isShutdown)) ∧
      out.2.Keeps ∧ out.2.link.up = r.link.up ∧
      out.2.channel = { r with applied := r.applied ++ cmds }.channel := by
  induction cmds with
  | nil =>
    intro saw r h
    exact ⟨by simp, h, rfl, by simp [channel]⟩
  | cons cmd cmds ih =>
    intro saw r h
    have kept : (r.apply cmd).Keeps :=
      h.absorb (r.link.core.apply_enqueues cmd.1 cmd.2)
    obtain ⟨saw', kept', up, channel'⟩ := ih
      (if (r.link.core.apply cmd.1 cmd.2).1 then saw else true) (r.apply cmd) kept
    refine ⟨saw'.trans ?_, kept', up, channel'.trans ?_⟩
    · rw [ReporterCore.apply_fst, List.any_cons]
      cases cmd.2.isShutdown <;> simp
    · simp [channel, apply, absorb]

/-- What a failed connect takes out, and what it leaves. -/
theorem pumpPending_parts (h : r.Keeps) :
    r.pumpPending.1 = r.commands.any (fun cmd => cmd.2.isShutdown) ∧
      r.pumpPending.2.Keeps ∧
      r.pumpPending.2.link.up = r.link.up ∧ r.pumpPending.2.channel =
        { r with commands := [], applied := r.applied ++ r.commands }.channel :=
  pump_parts r.commands false { r with commands := [] } h

/-- The commands it takes out are applied in order. -/
theorem InOrder.pump (h : r.InOrder) (running : r.returned = false) :
    InOrder { r with commands := [], applied := r.applied ++ r.commands } := by
  obtain ⟨rest, parts, waiting, -⟩ := h.parts
  refine ⟨⟨[], ?_, fun _ => rfl, fun _ => Or.inl rfl⟩, fun requested => ?_⟩
  · rw [parts, waiting running, List.append_nil]
  · obtain ⟨cmd, there, ends⟩ := h.requested requested
    exact ⟨cmd, List.mem_append_left _ there, ends⟩

/-! ## The steps -/

/-- What holds between two steps: nothing waits while a connection is served, nor at the end. -/
structure Sound (r : Runner) : Prop where
  keeps : r.Keeps
  served : r.link.up = true ∨ r.returned = true → r.link.core.buffer.queue = []
  inOrder : r.InOrder

/-- At the start there is nothing. -/
theorem sound_new (config : ReporterConfig) : (new config).Sound where
  keeps := keeps_new config
  served _ := rfl
  inOrder := ⟨⟨[], rfl, fun _ => rfl, fun h => by cases h⟩, fun h => by cases h⟩

namespace Sound

/-- A flush is the last thing a step does on a connection that stays. -/
theorem flush (keeps : r.Keeps) (inOrder : r.InOrder) (running : r.returned = false)
    (net : List Bool) : (r.flush net).Sound := by
  obtain ⟨keeps', served⟩ := keeps.flush net
  refine ⟨keeps', ?_, inOrder.congr rfl⟩
  rintro (up | returned)
  · exact served up
  · exact absurd (running.symm.trans returned) Bool.false_ne_true

/-- The loop returns where a connection is served, for a reason. -/
theorem finish (h : r.Sound) (up : r.link.up = true) {rest : List (String × ReporterCommand)}
    (parts : r.submitted = r.applied ++ rest)
    (ends : rest = [] ∨ Ends r.applied ∨
      ∃ cmd later, rest = cmd :: later ∧ cmd.2.isShutdown = true) : r.finish.Sound where
  keeps := h.keeps.congr rfl false
  served _ := h.served (Or.inl up)
  inOrder := ⟨⟨rest, parts, fun running => absurd running Bool.noConfusion, fun _ => ends⟩,
    h.inOrder.requested⟩

/-- What is done first on a connection: a shutdown that was asked for, or a flush. -/
theorem deliver (keeps : r.Keeps) (inOrder : r.InOrder) (running : r.returned = false)
    (net : List Bool) : (r.deliver net).Sound := by
  have pumped : (if r.shutdownRequested then r.pumpPending.2 else r).Keeps ∧
      (if r.shutdownRequested then r.pumpPending.2 else r).InOrder ∧
      (if r.shutdownRequested then r.pumpPending.2 else r).returned = false := by
    split
    · obtain ⟨-, keeps', -, channel⟩ := pumpPending_parts keeps
      refine ⟨keeps', (inOrder.pump running).congr channel, ?_⟩
      simp only [Runner.channel, Prod.mk.injEq] at channel
      exact channel.2.2.2.1.trans running
    · exact ⟨keeps, inOrder, running⟩
  unfold Runner.deliver
  revert pumped
  generalize (if r.shutdownRequested then r.pumpPending.2 else r) = r
  rintro ⟨keeps, inOrder, running⟩
  have flushed := flush keeps inOrder running net
  dsimp only
  split
  · rename_i last
    rw [Bool.and_eq_true] at last
    obtain ⟨rest, parts, -⟩ := inOrder.parts
    exact flushed.finish last.1 parts (Or.inr (Or.inl (inOrder.requested last.2)))
  · exact flushed

/-- A whole view before the rest keeps what the rest does. -/
theorem announce (keeps : r.Keeps) (inOrder : r.InOrder) (running : r.returned = false)
    (view : Option ClientMessage) (net : List Bool) {rest : Runner → List Bool → Runner}
    (sound : ∀ {r : Runner}, r.Keeps → r.InOrder → r.returned = false → ∀ net,
      (rest r net).Sound) : (r.announce view net rest).Sound := by
  rcases announce_cases keeps.whole view net rest with ⟨heard, net', same, eq⟩ | eq
  · rw [eq]
    have heard : Keeps { r with link := { r.link with heard } } := Kept.heard keeps same
    exact sound heard (inOrder.congr rfl) running net'
  · rw [eq]
    refine ⟨keeps.congr rfl false, ?_, inOrder.congr rfl⟩
    rintro (up | returned)
    · cases up
    · exact absurd (running.symm.trans returned) Bool.false_ne_true

/-- A command is taken, or the loop ends. -/
theorem receive (h : r.Sound) (net : List Bool) : (r.step (.receive net)).Sound := by
  simp only [Runner.step, Bool.and_eq_true, Bool.not_eq_true']
  split
  · rename_i serves
    obtain ⟨up, running⟩ := serves
    obtain ⟨rest, parts, waiting, -⟩ := h.inOrder.parts
    rw [waiting running] at parts
    split
    · rename_i empty
      split
      · have drained : r.submitted = r.applied ++ [] := by rw [parts, empty]
        exact h.finish up drained (Or.inl rfl)
      · exact h
    · rename_i cmd later commands
      rw [commands] at parts
      split
      · rename_i ends
        exact ⟨h.keeps.congr rfl false, fun _ => h.served (Or.inl up),
          ⟨⟨cmd :: later, parts, fun still => absurd still Bool.noConfusion,
            fun _ => Or.inr (Or.inr ⟨cmd, later, rfl, ends⟩)⟩, h.inOrder.requested⟩⟩
      · have keeps : (apply { r with commands := later } cmd).Keeps :=
          Keeps.absorb (by exact h.keeps) (r.link.core.apply_enqueues cmd.1 cmd.2)
        refine flush keeps ⟨⟨later, ?_, fun _ => rfl, fun returned => ?_⟩, fun requested => ?_⟩
          running net
        · exact parts.trans (by simp [apply, absorb])
        · exact absurd (running.symm.trans returned) Bool.false_ne_true
        · obtain ⟨old, there, ends⟩ := h.inOrder.requested requested
          exact ⟨old, List.mem_append_left _ there, ends⟩
  · exact h

/-- A tick reaps, announces and flushes. -/
theorem tick (h : r.Sound) (elapsed : Nat)
    (iter : IterOrder (Sigma fun _ : String => LivenessTracker)) (iso : String → String)
    (net : List Bool) : (r.step (.tick elapsed iter iso net)).Sound := by
  simp only [Runner.step, Bool.and_eq_true, Bool.not_eq_true']
  split
  · rename_i serves
    have buffer : (r.link.core.advanceTo elapsed).buffer = r.link.core.buffer := by
      unfold ReporterCore.advanceTo
      split <;> rfl
    have advanced : Keeps { r with link := { r.link with
        core := r.link.core.advanceTo elapsed } } := by
      unfold Keeps
      simp only [buffer]
      exact h.keeps.congr buffer r.link.up
    have reaped := advanced.reap iso ((r.link.core.advanceTo elapsed).timedOut iter)
    have channel := reap_channel iso ((r.link.core.advanceTo elapsed).timedOut iter)
      { r with link := { r.link with core := r.link.core.advanceTo elapsed } }
    refine announce reaped (h.inOrder.congr channel) ?_ _ net flush
    simp only [Runner.channel, Prod.mk.injEq] at channel
    exact channel.2.2.2.1.trans serves.2
  · exact h

/-- Every event keeps the loop sound. -/
theorem step (h : r.Sound) (e : Event) : (r.step e).Sound := by
  cases e with
  | submit iso cmd =>
    simp only [Runner.step, Bool.or_eq_true]
    split
    · exact h
    · rename_i takes
      have running : r.returned = false := by simpa using (not_or.mp takes).2
      obtain ⟨rest, parts, waiting, -⟩ := h.inOrder.parts
      refine ⟨h.keeps, h.served, ⟨⟨rest ++ [(iso, cmd)], ?_, fun _ => ?_, fun returned => ?_⟩,
        h.inOrder.requested⟩⟩
      · dsimp only
        rw [parts, List.append_assoc]
      · dsimp only
        rw [waiting running]
      · exact absurd (running.symm.trans returned) Bool.false_ne_true
  | close => exact ⟨h.keeps, h.served, ⟨h.inOrder.parts, h.inOrder.requested⟩⟩
  | refused =>
    simp only [Runner.step, Bool.or_eq_true]
    split
    · exact h
    · rename_i down
      simp only [not_or, Bool.not_eq_true] at down
      obtain ⟨saw, keeps, up, channel⟩ := pumpPending_parts h.keeps
      have pumped := (h.inOrder.pump down.2).congr channel
      simp only [Runner.channel, Prod.mk.injEq] at channel
      obtain ⟨-, -, -, returned, -, applied⟩ := channel
      refine ⟨keeps, ?_, ⟨pumped.parts, fun asked => ?_⟩⟩
      · rintro (up' | returned')
        · exact absurd (up'.symm.trans (up.trans down.1)) Bool.noConfusion
        · exact absurd (returned'.symm.trans (returned.trans down.2)) Bool.noConfusion
      · rcases (Bool.or_eq_true ..).mp asked with before | now
        · exact pumped.requested before
        · rw [saw, List.any_eq_true] at now
          obtain ⟨cmd, there, ends⟩ := now
          exact ⟨cmd, applied.symm ▸ List.mem_append_right _ there, ends⟩
  | connect net =>
    simp only [Runner.step, Bool.or_eq_true]
    split
    · exact h
    · rename_i down
      simp only [not_or, Bool.not_eq_true] at down
      have fresh : Keeps { r with link := { r.link with up := true, cut := false } } :=
        { h.keeps with whole := rfl }
      exact announce fresh (h.inOrder.congr rfl) down.2 _ net deliver
  | receive net => exact h.receive net
  | tick elapsed iter iso net => exact h.tick elapsed iter iso net

end Sound

/-- What was applied reaches up to the first shutdown. -/
theorem InOrder.complete (h : r.InOrder) (returned : r.returned = true) :
    r.submitted.takeWhile (fun cmd => !cmd.2.isShutdown) <+: r.applied := by
  obtain ⟨rest, parts, -, ends⟩ := h.parts
  rw [parts, List.takeWhile_append]
  split
  · rename_i all
    have same : r.applied.takeWhile (fun cmd => !cmd.2.isShutdown) = r.applied :=
      (List.takeWhile_prefix _).eq_of_length all
    have stops : rest.takeWhile (fun cmd => !cmd.2.isShutdown) = [] := by
      rcases ends returned with rfl | ⟨cmd, there, stop⟩ | ⟨cmd, later, rfl, stop⟩
      · rfl
      · have runs := List.mem_takeWhile_imp (same.symm ▸ there)
        rw [stop] at runs
        cases runs
      · rw [List.takeWhile_cons_of_neg (by simp [stop])]
    exact ⟨[], by rw [stops, List.append_nil, List.append_nil]⟩
  · exact List.takeWhile_prefix _

/-! ## The submissions -/

/-- The command an event puts into the channel. -/
def Event.submission : Event → Option (String × ReporterCommand)
  | .submit iso cmd => some (iso, cmd)
  | .close | .refused | .connect _ | .receive _ | .tick .. => none

/-- The side of the channel that the handles have: whether it is closed, and what was put in. -/
def entry (r : Runner) : Bool × List (String × ReporterCommand) := (r.closed, r.submitted)

/-- The reaping leaves the side of the handles as it is. -/
theorem reap_entry (iso : String → String) (runIds : List String) (r : Runner) :
    (r.reap iso runIds).entry = r.entry :=
  congrArg (fun channel => (channel.2.1, channel.2.2.2.2.1)) (reap_channel iso runIds r)

/-- So do the commands taken after a failed connect. -/
theorem pump_entry (cmds : List (String × ReporterCommand)) : ∀ (saw : Bool) (r : Runner),
    (cmds.foldl (fun (saw, r) cmd =>
      (if (r.link.core.apply cmd.1 cmd.2).1 then saw else true, r.apply cmd)) (saw, r)).2.entry =
        r.entry := by
  induction cmds with
  | nil => exact fun _ _ => rfl
  | cons cmd cmds ih => exact fun saw r => ih _ (r.apply cmd)

theorem pumpPending_entry (r : Runner) : r.pumpPending.2.entry = r.entry :=
  pump_entry r.commands false { r with commands := [] }

/-- So does the beginning of a connection. -/
theorem deliver_entry (r : Runner) (net : List Bool) : (r.deliver net).entry = r.entry := by
  unfold deliver
  simp only
  split <;> split
  · exact r.pumpPending_entry
  · exact r.pumpPending_entry
  · rfl
  · rfl

/-- So does the sending of a whole view, where what follows it does. -/
theorem announce_entry (r : Runner) (view : Option ClientMessage) (net : List Bool)
    {rest : Runner → List Bool → Runner} (keeps : ∀ r net, (rest r net).entry = r.entry) :
    (r.announce view net rest).entry = r.entry := by
  unfold announce
  split
  · exact keeps r net
  · split
    · rename_i sent
      exact keeps _ _
    · rfl

/-- Whether an event drops the last handle. -/
def Event.closes : Event → Bool
  | .close => true
  | .submit .. | .refused | .connect _ | .receive _ | .tick .. => false

/-- What is submitted grows by the commands that are put in before the channel is closed and `run`
returns. -/
theorem step_entry (r : Runner) (e : Event) : (r.step e).entry = (r.closed || e.closes,
    r.submitted ++ if r.closed || r.returned then [] else e.submission.toList) := by
  cases e with
  | submit iso cmd =>
    simp only [step, Event.submission, Event.closes]
    split <;> simp [entry]
  | close => simp [step, entry, Event.submission, Event.closes]
  | refused =>
    have pumped := r.pumpPending_entry
    simp only [entry, Prod.mk.injEq] at pumped
    simp only [step, Event.submission, Event.closes]
    split <;> simp [entry, pumped]
  | connect net =>
    have announced := announce_entry { r with link := { r.link with up := true, cut := false } }
      r.link.core.registrationMessage net deliver_entry
    simp only [step, Event.submission, Event.closes]
    split
    · simp [entry]
    · rw [announced]
      simp [entry]
  | receive net =>
    simp only [step, Event.submission, Event.closes]
    split
    · split
      · split <;> simp [finish, entry]
      · split <;> simp [finish, flush, apply, absorb, entry]
    · simp [entry]
  | tick elapsed iter iso net =>
    simp only [step, Event.submission, Event.closes]
    split
    · rw [announce_entry _ _ net (show ∀ r net, (flush r net).entry = r.entry from fun _ _ => rfl),
        reap_entry]
      simp [entry]
    · simp [entry]

/-- A loop that has returned stays so. -/
theorem step_returned (r : Runner) (e : Event) (returned : r.returned = true) :
    (r.step e).returned = true := by
  cases e <;> simp [step, returned]

/-- What was submitted in a run are the commands of its events, in their order, up to the close of
the channel or the return of `run`. -/
theorem submitted_run (config : ReporterConfig) (events : List Event) :
    let r := events.foldl step (new config)
    r.submitted <+: events.filterMap Event.submission ∧
    ((r.closed || r.returned) = false → r.submitted = events.filterMap Event.submission) := by
  induction events using List.reverseRecOn with
  | nil => exact ⟨List.prefix_refl _, fun _ => rfl⟩
  | append_singleton events e ih =>
    obtain ⟨before, whole⟩ := ih
    simp only [List.foldl_append, List.foldl_cons, List.foldl_nil, List.filterMap_append]
    generalize events.foldl step (new config) = r at before whole
    have grown := r.step_entry e
    simp only [entry, Prod.mk.injEq] at grown
    obtain ⟨closed, submitted⟩ := grown
    have one : List.filterMap Event.submission [e] = e.submission.toList := by
      cases taken : e.submission <;> simp [taken]
    rw [submitted, one]
    cases takes : r.closed || r.returned with
    | false =>
      rw [whole takes, if_neg Bool.noConfusion]
      exact ⟨List.prefix_refl _, fun _ => rfl⟩
    | true =>
      rw [if_pos rfl, List.append_nil]
      refine ⟨before.trans (List.prefix_append _ _), fun still => ?_⟩
      rw [closed, Bool.or_eq_false_iff, Bool.or_eq_false_iff] at still
      rcases (Bool.or_eq_true ..).mp takes with shut | returned
      · rw [shut] at still
        cases still.1.1
      · rw [r.step_returned e returned] at still
        cases still.2

/-- In every run the deltas that were sent are the ones that were enqueued and neither evicted nor
wait, each once and in the order of their numbers; only overflows at the enqueueing of a delta
evict, and no flush does, failed or not. At the return nothing waits, and every command of before
the shutdown has been applied. -/
theorem delivers (config : ReporterConfig) (events : List Event) :
    let r := events.foldl step (new config)
    r.link.deltas.Pairwise (fun d e => d.seq < e.seq) ∧
    (∀ d, d ∈ r.link.deltas ↔
      d ∈ r.link.issued ∧ d ∉ r.evicted ∧ d ∉ r.link.core.buffer.queue) ∧
    r.link.core.buffer.dropped = r.evicted.length ∧
    (∀ net, (r.flush net).link.core.buffer.dropped = r.link.core.buffer.dropped) ∧
    (r.returned = true → r.link.core.buffer.queue = [] ∧
      r.submitted.takeWhile (fun cmd => !cmd.2.isShutdown) <+: r.applied) := by
  intro r
  have sound : r.Sound := foldl_invariant Sound (fun _ e h => h.step e) events _ (sound_new config)
  have sorted := sound.keeps.sorted
  have split := sound.keeps.split
  rw [List.pairwise_append] at sorted
  refine ⟨sorted.1, fun d => ?_, sound.keeps.counted, fun net => ?_, fun returned =>
    ⟨sound.served (Or.inr returned), sound.inOrder.complete returned⟩⟩
  · have once : r.link.issued.Nodup := by
      refine sound.keeps.ordered.imp ?_
      rintro d e lt rfl
      exact Nat.lt_irrefl _ lt
    have apart := split.nodup once
    rw [List.nodup_append, List.nodup_append] at apart
    rw [split.mem_iff, List.mem_append, List.mem_append]
    constructor
    · intro sent
      exact ⟨Or.inr (Or.inl sent),
        fun evicted => apart.2.2 d evicted d (List.mem_append_left _ sent) rfl,
        fun waits => apart.2.1.2.2 d sent d waits rfl⟩
    · rintro ⟨evicted | sent | waits, kept, gone⟩
      · exact absurd evicted kept
      · exact sent
      · exact absurd waits gone
  · obtain ⟨gone, kept, -, eq⟩ := flush_parts sound.keeps net
    rw [eq]

/-- A run that returns: a flush fails after the first of two deltas, and the shutdown is seen while
the link is down. What is submitted after it is not applied. -/
theorem delivers_returned :
    let events : List Event := [.submit "" (.upsertRun (.plain "r" "n" .working)),
      .submit "" (.upsertRun (.plain "q" "m" .waiting)), .refused, .connect [true, false],
      .submit "" .shutdown, .refused, .submit "" (.upsertRun (.plain "r" "n" .done)), .connect []]
    let r := events.foldl step (new (.new "s"))
    r.returned = true ∧ r.link.deltas.map (fun d => d.seq) = [1, 2, 3] ∧ r.evicted = [] ∧
    r.link.core.buffer.queue = [] ∧
    r.submitted.takeWhile (fun cmd => !cmd.2.isShutdown) <+: r.applied ∧
    r.submitted <+: events.filterMap Event.submission := by
  intro events r
  have returned : r.returned = true := by decide
  obtain ⟨-, -, -, -, ends⟩ := delivers (.new "s") events
  exact ⟨returned, by decide, by decide, (ends returned).1, (ends returned).2,
    (submitted_run (.new "s") events).1⟩

end Runner

end VsFleet
