import VsFleet.Protocol.Wire

/-!
# The outbound buffer of a reporter

The bounded queue of deltas that wait for the Hub (`fleet-reporter/src/buffer.rs`). Each delta has
the sequence number it was enqueued with, and a delta that could not be sent goes back under its
old number.
-/

namespace VsFleet

/-- `Delta` (`buffer.rs:31-36`). -/
structure Delta where
  seq : Nat
  msg : ClientMessage

/-- `DeltaBuffer` (`buffer.rs:47-52`). -/
structure DeltaBuffer where
  queue : List Delta
  nextSeq : Nat
  capacity : Nat
  dropped : Nat

namespace DeltaBuffer

/-- `with_capacity` (`buffer.rs:65-72`). -/
def withCapacity (capacity : Nat) : DeltaBuffer := ⟨[], 1, max capacity 1, 0⟩

/-- `new` (`buffer.rs:60-62`), with `DEFAULT_CAPACITY`. -/
def new : DeltaBuffer := withCapacity 4096

/-- At capacity the oldest delta goes and is counted. -/
def makeRoom (b : DeltaBuffer) : DeltaBuffer :=
  if b.queue.length ≥ b.capacity then
    { b with queue := b.queue.tail, dropped := b.dropped + 1 }
  else b

/-- `push` (`buffer.rs:78-87`). -/
def push (b : DeltaBuffer) (msg : ClientMessage) : DeltaBuffer :=
  let seq := b.nextSeq
  let b := { b with nextSeq := b.nextSeq + 1 }.makeRoom
  { b with queue := b.queue ++ [⟨seq, msg⟩] }

/-- `push_preserving` (`buffer.rs:97-113`): before the first delta of a greater number. -/
def pushPreserving (b : DeltaBuffer) (seq : Nat) (msg : ClientMessage) : DeltaBuffer :=
  let b := if seq ≥ b.nextSeq then { b with nextSeq := seq + 1 } else b
  let b := b.makeRoom
  let pos := (b.queue.findIdx? (fun d => d.seq > seq)).getD b.queue.length
  { b with queue := b.queue.insertIdx pos ⟨seq, msg⟩ }

/-- `pop` (`buffer.rs:121-123`). -/
def pop (b : DeltaBuffer) : Option Delta × DeltaBuffer :=
  (b.queue.head?, { b with queue := b.queue.tail })

/-- `drain` (`buffer.rs:129-131`). -/
def drain (b : DeltaBuffer) : List Delta × DeltaBuffer := (b.queue, { b with queue := [] })

/-- `last_seq` (`buffer.rs:149-151`). -/
def lastSeq (b : DeltaBuffer) : Nat := b.nextSeq - 1

@[simp] theorem push_nextSeq (b : DeltaBuffer) (msg : ClientMessage) :
    (b.push msg).nextSeq = b.nextSeq + 1 := by
  unfold push makeRoom
  dsimp only
  split <;> rfl

@[simp] theorem push_capacity (b : DeltaBuffer) (msg : ClientMessage) :
    (b.push msg).capacity = b.capacity := by
  unfold push makeRoom
  dsimp only
  split <;> rfl

@[simp] theorem push_queue (b : DeltaBuffer) (msg : ClientMessage) :
    (b.push msg).queue = b.makeRoom.queue ++ [⟨b.nextSeq, msg⟩] := by
  unfold push makeRoom
  dsimp only
  split <;> rfl

/-- Room is made by dropping the oldest delta, or was there. -/
theorem makeRoom_queue (b : DeltaBuffer) : (b.makeRoom.queue = b.queue.tail) ∨
    (b.makeRoom.queue = b.queue ∧ b.queue.length < b.capacity) := by
  unfold makeRoom
  split
  · exact Or.inl rfl
  · rename_i room
    exact Or.inr ⟨rfl, Nat.lt_of_not_le room⟩

/-- A delta older than the next number goes back behind the ones older than it. -/
theorem pushPreserving_of_last {b : DeltaBuffer} {d : Delta} (room : b.queue.length < b.capacity)
    (issued : d.seq < b.nextSeq) (last : ∀ e ∈ b.queue, e.seq < d.seq) :
    b.pushPreserving d.seq d.msg = { b with queue := b.queue ++ [d] } := by
  have none : b.queue.findIdx? (fun e => e.seq > d.seq) = none := by
    rw [List.findIdx?_eq_none_iff]
    intro e he
    have := last e he
    simp only [decide_eq_false_iff_not]
    omega
  simp [pushPreserving, makeRoom, Nat.not_le.mpr issued, Nat.not_le.mpr room, none]

/-- Deltas put back in the order of their numbers are the queue again. -/
theorem foldl_pushPreserving (tail : List Delta) : ∀ {b : DeltaBuffer},
    (b.queue ++ tail).Pairwise (fun d e => d.seq < e.seq) → (∀ d ∈ tail, d.seq < b.nextSeq) →
    (b.queue ++ tail).length ≤ b.capacity →
    tail.foldl (fun b d => b.pushPreserving d.seq d.msg) b =
      { b with queue := b.queue ++ tail } := by
  induction tail with
  | nil => simp
  | cons d tail ih =>
    intro b ordered issued fits
    have last : ∀ e ∈ b.queue, e.seq < d.seq := by
      intro e he
      exact (List.pairwise_append.mp ordered).2.2 e he d (by simp)
    have room : b.queue.length < b.capacity := by
      simp only [List.length_append, List.length_cons] at fits
      omega
    have rest := @ih { b with queue := b.queue ++ [d] } (by simpa using ordered)
      (fun e he => issued e (by simp [he])) (by simpa using fits)
    rw [List.foldl_cons, pushPreserving_of_last room (issued d (by simp)) last, rest]
    simp

end DeltaBuffer

end VsFleet
