import Mathlib.Data.List.InsertIdx
import Mathlib.Data.List.Induction
import VsFleet.Reporter.Driver

/-!
# What a round of the driver does

Sending leaves the core as it is but for its buffer, and what it hands to the Hub are deltas the
core has issued and the whole view it has. The rest of a round are the commands and the tick of the
core, which issue one delta at a time. A fact about the frames, the deltas and the core is carried
through a round from these.
-/

namespace VsFleet

namespace DeltaBuffer

variable {b : DeltaBuffer}

/-- What is left after making room was there. -/
theorem mem_makeRoom {d : Delta} (mem : d ∈ b.makeRoom.queue) : d ∈ b.queue := by
  rcases b.makeRoom_queue with tail | ⟨all, -⟩
  · rw [tail] at mem
    exact List.mem_of_mem_tail mem
  · rwa [all] at mem

theorem makeRoom_nextSeq (b : DeltaBuffer) : b.makeRoom.nextSeq = b.nextSeq := by
  unfold makeRoom
  split <;> rfl

/-- Every delta in the buffer is one of the list, under a number that was given out. -/
def Holds (issued : List Delta) (b : DeltaBuffer) : Prop :=
  ∀ d ∈ b.queue, d ∈ issued ∧ d.seq < b.nextSeq

variable {issued : List Delta}

/-- What a push adds is the one delta under the next number. -/
theorem Holds.fresh (h : b.Holds issued) (msg : ClientMessage) :
    (b.push msg).queue.filter (fun d => b.nextSeq ≤ d.seq) = [⟨b.nextSeq, msg⟩] := by
  have old : b.makeRoom.queue.filter (fun d => b.nextSeq ≤ d.seq) = [] := by
    rw [List.filter_eq_nil_iff]
    intro d mem
    have := (h d (mem_makeRoom mem)).2
    simp only [decide_eq_true_eq]
    omega
  simp [push_queue, List.filter_append, old]

/-- A delta that is pushed is one of those issued. -/
theorem Holds.push (h : b.Holds issued) (msg : ClientMessage) :
    (b.push msg).Holds (issued ++ [⟨b.nextSeq, msg⟩]) := by
  intro d mem
  rw [push_queue, List.mem_append, List.mem_singleton] at mem
  rw [push_nextSeq, List.mem_append, List.mem_singleton]
  rcases mem with old | rfl
  · have known := h d (mem_makeRoom old)
    exact ⟨Or.inl known.1, by omega⟩
  · exact ⟨Or.inr rfl, Nat.lt_succ_self _⟩

/-- So is one that is put back. -/
theorem Holds.pushPreserving (h : b.Holds issued) {d : Delta} (known : d ∈ issued) :
    (b.pushPreserving d.seq d.msg).Holds issued := by
  intro e mem
  unfold DeltaBuffer.pushPreserving at mem ⊢
  dsimp only at mem ⊢
  have next : b.nextSeq ≤ (if d.seq ≥ b.nextSeq then { b with nextSeq := d.seq + 1 }
      else b).makeRoom.nextSeq ∧ d.seq < (if d.seq ≥ b.nextSeq then
      { b with nextSeq := d.seq + 1 } else b).makeRoom.nextSeq := by
    rw [makeRoom_nextSeq]
    split
    · dsimp only
      omega
    · omega
  rcases List.eq_or_mem_of_mem_insertIdx mem with rfl | old
  · exact ⟨known, next.2⟩
  · have before := mem_makeRoom old
    have queued : e ∈ b.queue := by
      split at before
      · exact before
      · exact before
    have bound := (h e queued).2
    exact ⟨(h e queued).1, by omega⟩

/-- So are those of a batch that is put back. -/
theorem Holds.requeue (tail : List Delta) : ∀ {b : DeltaBuffer}, b.Holds issued →
    (∀ d ∈ tail, d ∈ issued) →
    (tail.foldl (fun b d => b.pushPreserving d.seq d.msg) b).Holds issued := by
  induction tail with
  | nil => exact fun h _ => h
  | cons d tail ih =>
    intro b h known
    exact ih (h.pushPreserving (known d (by simp))) (fun e he => known e (by simp [he]))

end DeltaBuffer

namespace Link

/-- What the buffer holds was issued, under numbers below the next. -/
def Sound (link : Link) : Prop := link.core.buffer.Holds link.issued

/-- At the start nothing was issued. -/
theorem sound_new (config : ReporterConfig) : (new config).Sound := by
  simp [Sound, DeltaBuffer.Holds, new, ReporterCore.new, DeltaBuffer.new, DeltaBuffer.withCapacity]

/-! ## Sending -/

/-- The frame is a delta that was issued or the whole view of the core. -/
inductive Offers (issued : List Delta) (core : ReporterCore) : Frame → Prop
  | delta {d : Delta} (known : d ∈ issued) : Offers issued core (.delta d)
  | whole (upto : Nat) {msg : ClientMessage} (view : msg ∈ core.heartbeatMessage) :
      Offers issued core (.whole upto msg)

/-- What sending does. -/
structure Sends (link link' : Link) : Prop where
  core : ∃ buffer, link'.core = { link.core with buffer }
  issued : link'.issued = link.issued
  heard : ∃ frames, link'.heard = link.heard ++ frames ∧
    ∀ frame ∈ frames, Offers link.issued link.core frame

variable {link link' : Link}

/-- Nothing was sent. -/
theorem Sends.refl (link : Link) : link.Sends link where
  core := ⟨link.core.buffer, rfl⟩
  issued := rfl
  heard := ⟨[], (List.append_nil _).symm, by simp⟩

/-- What is sent is sent in two parts. -/
theorem Sends.trans {link'' : Link} (h : link.Sends link') (h' : link'.Sends link'') :
    link.Sends link'' where
  core := by
    obtain ⟨buffer, core⟩ := h.core
    obtain ⟨buffer', core'⟩ := h'.core
    exact ⟨buffer', by rw [core', core]⟩
  issued := h'.issued.trans h.issued
  heard := by
    obtain ⟨buffer, core⟩ := h.core
    obtain ⟨frames, heard, offered⟩ := h.heard
    obtain ⟨frames', heard', offered'⟩ := h'.heard
    refine ⟨frames ++ frames', by rw [heard', heard, List.append_assoc], ?_⟩
    intro frame mem
    rcases List.mem_append.mp mem with first | second
    · exact offered frame first
    · have offer := offered' frame second
      rw [h.issued, core] at offer
      cases offer with
      | delta known => exact .delta known
      | whole upto view => exact .whole upto view

/-- One send offers its frame and leaves the core. -/
theorem send_sends (link : Link) (sending : Sending) {frame : Frame}
    (offer : Offers link.issued link.core frame) :
    link.Sends (link.send sending frame).2 ∧ (link.send sending frame).2.core = link.core := by
  have heard : ∃ frames, (if link.cut then link.heard else link.heard ++ [frame]) =
      link.heard ++ frames ∧ ∀ f ∈ frames, Offers link.issued link.core f := by
    split
    · exact ⟨[], (List.append_nil _).symm, by simp⟩
    · exact ⟨[frame], rfl, by simpa using offer⟩
  have still : ∃ frames, link.heard = link.heard ++ frames ∧
      ∀ f ∈ frames, Offers link.issued link.core f := (Sends.refl link).heard
  cases sending with
  | arrives => exact ⟨⟨⟨_, rfl⟩, rfl, heard⟩, rfl⟩
  | lost => exact ⟨⟨⟨_, rfl⟩, rfl, still⟩, rfl⟩
  | failed arrives =>
    cases arrives with
    | true => exact ⟨⟨⟨_, rfl⟩, rfl, heard⟩, rfl⟩
    | false => exact ⟨⟨⟨_, rfl⟩, rfl, still⟩, rfl⟩

/-- The loop offers deltas that were issued and gives back some of them. -/
theorem flushLoop_sends (batch : List Delta) : ∀ (net : List Sending) {link : Link},
    (∀ d ∈ batch, d ∈ link.issued) → link.Sends (flushLoop batch net link).2 ∧
      (flushLoop batch net link).2.core = link.core ∧
      ∀ d ∈ (flushLoop batch net link).1, d ∈ batch := by
  induction batch with
  | nil => exact fun net link _ => ⟨.refl link, rfl, fun d mem => mem⟩
  | cons d batch ih =>
    intro net link known
    have sent := link.send_sends (net.headD .arrives) (.delta (known d (by simp)))
    unfold flushLoop
    generalize link.send (net.headD .arrives) (.delta d) = outcome at sent ⊢
    obtain ⟨ok, after⟩ := outcome
    cases ok with
    | false => exact ⟨sent.1, sent.2, fun e mem => mem⟩
    | true =>
      have later : ∀ e ∈ batch, e ∈ after.issued := by
        intro e mem
        rw [sent.1.issued]
        exact known e (by simp [mem])
      obtain ⟨rest, core, unsent⟩ := ih net.tail later
      exact ⟨sent.1.trans rest, core.trans sent.2, fun e mem => List.mem_cons_of_mem d (unsent e mem)⟩

/-- A flush sends and keeps the buffer to what was issued. -/
theorem flush_sends (sound : link.Sound) (net : List Sending) :
    link.Sends (link.flush net) ∧ (link.flush net).Sound := by
  have drained : link.Sends { link with core := link.core.drain.2 } :=
    ⟨⟨_, rfl⟩, rfl, (Sends.refl link).heard⟩
  have known : ∀ d ∈ link.core.buffer.queue,
      d ∈ { link with core := link.core.drain.2 }.issued := fun d mem => (sound d mem).1
  obtain ⟨sent, core, unsent⟩ := flushLoop_sends link.core.buffer.queue net known
  unfold Link.flush
  simp only [show link.core.drain.1 = link.core.buffer.queue from rfl]
  generalize flushLoop link.core.buffer.queue net { link with core := link.core.drain.2 } =
    outcome at sent core unsent ⊢
  obtain ⟨tail, after⟩ := outcome
  dsimp only at sent core unsent ⊢
  have out := drained.trans sent
  have empty : after.core.buffer.queue = [] := by
    rw [core]
    rfl
  split
  · refine ⟨out, ?_⟩
    intro d mem
    rw [empty] at mem
    cases mem
  · have back : after.Sends { after with core := after.core.requeueUnsent tail } :=
      ⟨⟨_, rfl⟩, rfl, (Sends.refl after).heard⟩
    refine ⟨out.trans back, ?_⟩
    have nothing : after.core.drain.2.buffer.Holds after.issued := by
      intro d mem
      cases mem
    refine nothing.requeue _ ?_
    intro d mem
    rw [show after.core.buffer.drain.1 = [] from empty, List.append_nil] at mem
    rw [out.issued]
    exact (sound d (unsent d mem)).1

/-- So does a whole view with the flush behind it. -/
theorem sync_sends (sound : link.Sound) (net : List Sending) :
    link.Sends (link.sync link.core.heartbeatMessage net) ∧
      (link.sync link.core.heartbeatMessage net).Sound := by
  unfold Link.sync
  cases view : link.core.heartbeatMessage with
  | none => exact flush_sends sound net
  | some msg =>
    have sent := link.send_sends (net.headD .arrives) (.whole link.core.lastSeq view)
    dsimp only
    generalize link.send (net.headD .arrives) (.whole link.core.lastSeq msg) = outcome at sent ⊢
    obtain ⟨ok, after⟩ := outcome
    have kept : after.Sound := by
      unfold Sound
      rw [sent.1.issued, sent.2]
      exact sound
    cases ok with
    | false => exact ⟨sent.1, kept⟩
    | true =>
      obtain ⟨flushed, sound'⟩ := flush_sends kept net.tail
      exact ⟨sent.1.trans flushed, sound'⟩

/-! ## A round -/

/-- What a round does to the core before anything is sent. -/
def served (link : Link) : Step → ReporterCore
  | .refused pending =>
    if link.up then link.core
    else pending.foldl (fun core (iso, cmd) => (core.apply iso cmd).2) link.core
  | .connect _ => link.core
  | .command iso cmd _ => if link.up then (link.core.apply iso cmd).2 else link.core
  | .tick elapsed iter iso _ =>
    if link.up then (link.core.advanceTo elapsed).reapTimeouts iter iso else link.core

/-- The pending commands are applied one after the other. -/
theorem pumpPending_core (pending : List (String × ReporterCommand)) : ∀ link : Link,
    (link.pumpPending pending).core =
      pending.foldl (fun core (iso, cmd) => (core.apply iso cmd).2) link.core := by
  induction pending with
  | nil => exact fun _ => rfl
  | cons cmd pending ih => exact fun link => ih (link.absorb (link.core.apply cmd.1 cmd.2).2)

/-- A fact about the frames, the deltas issued and the core that holds through everything a round is
made of; it does not look into the buffer. -/
structure Kept (P : List Frame → List Delta → ReporterCore → Prop) : Prop where
  buffer : ∀ {heard issued core} (buffer : DeltaBuffer), P heard issued core →
    P heard issued { core with buffer }
  now : ∀ {heard issued core} (now : Nat), P heard issued core → P heard issued { core with now }
  liveness : ∀ {heard issued core} (liveness : HashMap String LivenessTracker),
    P heard issued core → P heard issued { core with liveness }
  register : ∀ {heard issued core} (session : Session), P heard issued core →
    P heard (issued ++ [⟨core.buffer.nextSeq, .sessionUpsert session⟩])
      { core with registeredSession := some session }
  report : ∀ {heard issued core} (run : AgentRun), P heard issued core →
    P heard (issued ++ [⟨core.buffer.nextSeq, ((core.rememberRun run).stampedRunUpsert run).1⟩])
      ((core.rememberRun run).stampedRunUpsert run).2
  hear : ∀ {heard issued core frame}, P heard issued core → Offers issued core frame →
    P (heard ++ [frame]) issued core

section

variable {P : List Frame → List Delta → ReporterCore → Prop}

/-- The fact and what the buffer holds. -/
def With (P : List Frame → List Delta → ReporterCore → Prop) (link : Link) : Prop :=
  link.Sound ∧ P link.heard link.issued link.core

/-- A fact that is kept holds after a send. -/
theorem Kept.sends (kept : Kept P) (sends : link.Sends link')
    (h : P link.heard link.issued link.core) : P link'.heard link'.issued link'.core := by
  obtain ⟨buffer, core⟩ := sends.core
  obtain ⟨frames, heard, offered⟩ := sends.heard
  rw [core, heard, sends.issued]
  apply kept.buffer
  clear core heard
  induction frames using List.reverseRecOn with
  | nil => rwa [List.append_nil]
  | append_singleton frames frame ih =>
    rw [← List.append_assoc]
    exact kept.hear (ih (fun f mem => offered f (by simp [mem]))) (offered frame (by simp))

/-- Enqueueing a message issues the one delta. -/
theorem absorb_enqueue (sound : link.Sound) (core : ReporterCore)
    (buffer : core.buffer = link.core.buffer) (msg : ClientMessage) :
    (link.absorb (core.enqueue msg)).issued =
        link.issued ++ [⟨link.core.buffer.nextSeq, msg⟩] ∧
      (link.absorb (core.enqueue msg)).Sound := by
  have fresh := sound.fresh msg
  have issued : (link.absorb (core.enqueue msg)).issued =
      link.issued ++ [⟨link.core.buffer.nextSeq, msg⟩] := by
    simp only [absorb, ReporterCore.enqueue, buffer, fresh]
  refine ⟨issued, ?_⟩
  unfold Sound
  rw [issued]
  simp only [absorb, ReporterCore.enqueue, buffer]
  exact sound.push msg

/-- A registration keeps the fact. -/
theorem With.register (kept : Kept P) (h : link.With P) (session : Session) :
    (link.absorb ({ link.core with registeredSession := some session }.enqueue
      (.sessionUpsert session))).With P := by
  obtain ⟨issued, sound⟩ := absorb_enqueue h.1
    { link.core with registeredSession := some session } rfl (.sessionUpsert session)
  refine ⟨sound, ?_⟩
  rw [issued]
  exact kept.buffer _ (kept.register session h.2)

/-- So does a report. -/
theorem With.report (kept : Kept P) (h : link.With P) (liveness : HashMap String LivenessTracker)
    (run : AgentRun) : (link.absorb ({ link.core with liveness }.report run)).With P := by
  obtain ⟨issued, sound⟩ := absorb_enqueue h.1
    (({ link.core with liveness }.rememberRun run).stampedRunUpsert run).2 rfl
    (({ link.core with liveness }.rememberRun run).stampedRunUpsert run).1
  refine ⟨sound, ?_⟩
  have reported := kept.buffer
    ((({ link.core with liveness }.rememberRun run).stampedRunUpsert run).2.buffer.push
      (({ link.core with liveness }.rememberRun run).stampedRunUpsert run).1)
    (kept.report run (kept.liveness liveness h.2))
  exact issued ▸ reported

/-- So does a change of the trackers. -/
theorem With.liveness (kept : Kept P) (h : link.With P)
    (liveness : HashMap String LivenessTracker) :
    (link.absorb { link.core with liveness }).With P := by
  have nothing : link.core.buffer.queue.filter (fun d => link.core.buffer.nextSeq ≤ d.seq) = [] := by
    rw [List.filter_eq_nil_iff]
    intro d mem
    have := (h.1 d mem).2
    simp only [decide_eq_true_eq]
    omega
  have issued : (link.absorb { link.core with liveness }).issued = link.issued := by
    simp only [absorb, nothing, List.append_nil]
  refine ⟨?_, ?_⟩
  · unfold Sound
    rw [issued]
    exact h.1
  · rw [issued]
    exact kept.liveness liveness h.2

/-- So does every command. -/
theorem With.apply (kept : Kept P) (h : link.With P) (iso : String) (cmd : ReporterCommand) :
    (link.absorb (link.core.apply iso cmd).2).With P := by
  cases cmd with
  | upsertSession session => exact h.register kept session
  | upsertRun run => exact h.report kept _ run
  | liveness runId => exact h.liveness kept _
  | confirmExit runId reason => exact h.report kept _ _
  | shutdown => exact h.liveness kept link.core.liveness

/-- So do the pending commands. -/
theorem With.pumpPending (kept : Kept P) (pending : List (String × ReporterCommand)) :
    ∀ {link : Link}, link.With P → (link.pumpPending pending).With P := by
  induction pending with
  | nil => exact fun h => h
  | cons cmd pending ih => exact fun h => ih (h.apply kept cmd.1 cmd.2)

/-- So does a reaping. -/
theorem With.reap (kept : Kept P) (iso : String → String) (runIds : List String) :
    ∀ {link : Link}, link.With P → (link.reap iso runIds).With P := by
  induction runIds with
  | nil => exact fun h => h
  | cons id runIds ih => exact fun h => ih (h.report kept _ _)

/-- So does the clock. -/
theorem With.advance (kept : Kept P) (h : link.With P) (elapsed : Nat) :
    With P { link with core := link.core.advanceTo elapsed } := by
  unfold ReporterCore.advanceTo
  split
  · exact ⟨h.1, kept.now elapsed h.2⟩
  · exact h

/-- So does a send. -/
theorem With.sends (kept : Kept P) (h : link.With P)
    (sends : link.Sends link' ∧ link'.Sound) : link'.With P := ⟨sends.2, kept.sends sends.1 h.2⟩

/-- Nothing but the buffer changes between what a round does to the core and its end. -/
theorem With.step (kept : Kept P) (h : link.With P) (s : Step) :
    (link.step s).With P ∧ ∃ buffer, (link.step s).core = { link.served s with buffer } := by
  cases s with
  | refused pending =>
    simp only [Link.step, served]
    split
    · exact ⟨h, _, rfl⟩
    · exact ⟨h.pumpPending kept pending, _, pumpPending_core pending link⟩
  | connect net =>
    simp only [Link.step, served]
    split
    · exact ⟨h, _, rfl⟩
    · have opened : With P { link with up := true, cut := false } := h
      have sends := sync_sends opened.1 net
      exact ⟨opened.sends kept sends, sends.1.core⟩
  | command iso cmd net =>
    simp only [Link.step, served]
    split
    · have sends := flush_sends (h.apply kept iso cmd).1 net
      cases cmd with
      | shutdown => exact ⟨h, _, rfl⟩
      | _ => exact ⟨(h.apply kept iso _).sends kept sends, sends.1.core⟩
    · exact ⟨h, _, rfl⟩
  | tick elapsed iter iso net =>
    simp only [Link.step, served]
    split
    · have reaped := (h.advance kept elapsed).reap kept iso
        ((link.core.advanceTo elapsed).timedOut iter)
      have sends := sync_sends reaped.1 net
      refine ⟨reaped.sends kept sends, ?_⟩
      rw [← reap_core { link with core := link.core.advanceTo elapsed } iter iso]
      exact sends.1.core
    · exact ⟨h, _, rfl⟩

/-- A fact that is kept holds at the end of every run. -/
theorem With.run (kept : Kept P) (steps : List Step) : ∀ {link : Link}, link.With P →
    (steps.foldl Link.step link).With P := by
  induction steps with
  | nil => exact fun h => h
  | cons s steps ih => exact fun h => ih (h.step kept s).1

end

theorem kept_true : Kept (fun _ _ _ => True) where
  buffer _ _ := trivial
  now _ _ := trivial
  liveness _ _ := trivial
  register _ _ := trivial
  report _ _ := trivial
  hear _ _ := trivial

/-- A step keeps the link sound and has the core that was served, but for the buffer. -/
theorem Sound.step (sound : link.Sound) (s : Step) : (link.step s).Sound ∧
    ∃ buffer, (link.step s).core = { link.served s with buffer } := by
  have known : link.With (fun _ _ _ => True) := ⟨sound, trivial⟩
  have round := known.step kept_true s
  exact ⟨round.1.1, round.2⟩

end Link

end VsFleet
