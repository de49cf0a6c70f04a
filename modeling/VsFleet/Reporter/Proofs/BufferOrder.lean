import VsFleet.Misc.Runs
import VsFleet.Reporter.Buffer

/-!
# Order and eviction in the outbound buffer

The buffer holds the deltas in the order of their numbers, and one that does not fit drops the
oldest. A delta that goes back into a full buffer has to be newer than the oldest there: the oldest
is dropped before the delta is compared with it.
-/

namespace VsFleet

namespace DeltaBuffer

/-! ## The operations -/

/-- What is done to a buffer. -/
inductive BufferOp where
  | push (msg : ClientMessage)
  | pushPreserving (seq : UInt64) (msg : ClientMessage)
  | pop
  | drain

/-- The counters are words of 64 bits, and wrap. -/
def wrap (b : DeltaBuffer) : DeltaBuffer :=
  { b with nextSeq := b.nextSeq % 2 ^ 64, dropped := b.dropped % 2 ^ 64 }

/-- The buffer after an operation, its counters in 64 bits. -/
def perform (b : DeltaBuffer) : BufferOp → DeltaBuffer
  | .push msg => (b.push msg).wrap
  | .pushPreserving seq msg => (b.pushPreserving seq.toNat msg).wrap
  | .pop => b.pop.2
  | .drain => b.drain.2

/-- The delta an operation puts into the buffer. -/
def inserted (b : DeltaBuffer) : BufferOp → Option Delta
  | .push msg => some ⟨b.nextSeq, msg⟩
  | .pushPreserving seq msg => some ⟨seq.toNat, msg⟩
  | .pop | .drain => none

/-- The operation puts a delta into a full buffer. -/
def overflows (b : DeltaBuffer) (op : BufferOp) : Bool :=
  (b.inserted op).isSome && b.capacity ≤ b.queue.length

/-- A delta that goes back is not there. -/
def Fresh (b : DeltaBuffer) : BufferOp → Prop
  | .pushPreserving seq _ => ∀ d ∈ b.queue, d.seq ≠ seq.toNat
  | .push _ | .pop | .drain => True

/-! ## The law -/

/-- Of the deltas held and the new one the one of the least number is lost, and no other. -/
def EvictsOldest (b : DeltaBuffer) (d : Delta) (b' : DeltaBuffer) : Prop :=
  ∃ e ∈ d :: b.queue, (∀ e' ∈ d :: b.queue, e.seq ≤ e'.seq) ∧
    (e :: b'.queue).Perm (d :: b.queue)

/-- A buffer after the first operations of a run. -/
def after (capacity : Nat) (ops : List BufferOp) (i : Nat) : DeltaBuffer :=
  (ops.take i).foldl perform (withCapacity capacity)

/-- The number of the first operations that drop a delta. -/
def evictions (capacity : Nat) (ops : List BufferOp) (i : Nat) : Nat :=
  ((List.range i).filter (fun k =>
    (ops[k]?.map (after capacity ops k).overflows).getD false)).length

/-- The law of the buffer, in every state of a run and at every step. -/
structure BufferLaw (capacity : Nat) (ops : List BufferOp) : Prop where
  increasing : ∀ i ≤ ops.length,
    (after capacity ops i).queue.Pairwise (fun d e => d.seq < e.seq)
  bounded : ∀ i ≤ ops.length, (after capacity ops i).queue.length ≤ max capacity 1
  oldest : ∀ i (hi : i < ops.length), (after capacity ops i).overflows ops[i] = true →
    ∀ d ∈ (after capacity ops i).inserted ops[i],
      EvictsOldest (after capacity ops i) d (after capacity ops (i + 1))
  counted : ∀ i ≤ ops.length, (after capacity ops i).dropped = evictions capacity ops i
  ahead : ∀ i ≤ ops.length, ∀ d ∈ (after capacity ops i).queue,
    d.seq < (after capacity ops i).nextSeq

/-- No counter wraps, and what goes back into a full buffer is newer than the oldest there. -/
def Fits (b : DeltaBuffer) (op : BufferOp) : Prop :=
  (b.overflows op = true → b.dropped + 1 < 2 ^ 64) ∧
  (∀ d ∈ b.inserted op, d.seq + 1 < 2 ^ 64) ∧
  (b.overflows op = true → ∀ d ∈ b.inserted op, ∀ front ∈ b.queue.head?, front.seq < d.seq)

instance (b : DeltaBuffer) : ∀ op, Decidable (b.Fresh op)
  | .pushPreserving seq _ => inferInstanceAs (Decidable (∀ d ∈ b.queue, d.seq ≠ seq.toNat))
  | .push _ | .pop | .drain => inferInstanceAs (Decidable True)

instance (b : DeltaBuffer) (op : BufferOp) : Decidable (b.Fits op) :=
  inferInstanceAs (Decidable ((_ → _) ∧ (∀ d ∈ b.inserted op, _) ∧
    (_ → ∀ d ∈ b.inserted op, ∀ front ∈ b.queue.head?, _)))

/-! ## Insertion -/

section Insertion

variable {q : List Delta} {d : Delta}

/-- Where a delta goes in. -/
def insertBySeq (q : List Delta) (d : Delta) : List Delta :=
  q.insertIdx ((q.findIdx? (fun e => e.seq > d.seq)).getD q.length) d

theorem insertBySeq_cons (e : Delta) : insertBySeq (e :: q) d =
    if e.seq > d.seq then d :: e :: q else e :: insertBySeq q d := by
  unfold insertBySeq
  rw [List.findIdx?_cons]
  by_cases after : e.seq > d.seq
  · simp [after]
  · simp only [after, decide_false, Bool.false_eq_true, if_false]
    cases q.findIdx? (fun e => e.seq > d.seq) <;> simp

theorem insertBySeq_perm : (insertBySeq q d).Perm (d :: q) := by
  induction q with
  | nil => simp [insertBySeq]
  | cons e q ih =>
    rw [insertBySeq_cons]
    split
    · exact List.Perm.refl _
    · exact (ih.cons e).trans (List.Perm.swap d e q)

theorem insertBySeq_increasing (increasing : q.Pairwise (fun d e => d.seq < e.seq))
    (fresh : ∀ e ∈ q, e.seq ≠ d.seq) :
    (insertBySeq q d).Pairwise (fun d e => d.seq < e.seq) := by
  induction q with
  | nil => simp [insertBySeq]
  | cons e q ih =>
    obtain ⟨later, increasing'⟩ := List.pairwise_cons.mp increasing
    rw [List.forall_mem_cons] at fresh
    rw [insertBySeq_cons]
    split
    · rename_i after
      refine List.pairwise_cons.mpr ⟨fun e' mem => ?_, increasing⟩
      rcases List.mem_cons.mp mem with rfl | mem
      · exact after
      · exact Nat.lt_trans after (later e' mem)
    · rename_i before
      refine List.pairwise_cons.mpr ⟨fun e' mem => ?_, ih increasing' fresh.2⟩
      rcases List.mem_cons.mp (insertBySeq_perm.mem_iff.mp mem) with rfl | mem
      · exact Nat.lt_of_le_of_ne (Nat.le_of_not_lt before) fresh.1
      · exact later e' mem

end Insertion

/-! ## What an operation does -/

section Steps

variable {capacity n : Nat} {b : DeltaBuffer} {op : BufferOp} {d : Delta}

/-- What is held once room is made for one more. -/
def room (b : DeltaBuffer) : List Delta :=
  if b.capacity ≤ b.queue.length then b.queue.tail else b.queue

theorem overflows_of_inserted (puts : b.inserted op = some d) :
    b.overflows op = decide (b.capacity ≤ b.queue.length) := by
  simp [overflows, puts]

theorem mem_room (mem : d ∈ b.room) : d ∈ b.queue := by
  unfold room at mem
  split at mem
  · exact List.mem_of_mem_tail mem
  · exact mem

/-- Past all that is there a delta goes to the end. -/
theorem insertBySeq_of_last {q : List Delta} (last : ∀ e ∈ q, e.seq < d.seq) :
    insertBySeq q d = q ++ [d] := by
  have none : q.findIdx? (fun e => e.seq > d.seq) = none := by
    rw [List.findIdx?_eq_none_iff]
    intro e mem
    exact decide_eq_false (Nat.not_lt_of_lt (last e mem))
  rw [insertBySeq, none]
  exact List.insertIdx_length_self

/-- A delta goes in by its number, after room is made. -/
theorem perform_of_inserted (ahead : ∀ d ∈ b.queue, d.seq < b.nextSeq)
    (puts : b.inserted op = some d) : b.perform op =
      { queue := insertBySeq b.room d
        nextSeq := max b.nextSeq (d.seq + 1) % 2 ^ 64
        capacity := b.capacity
        dropped := (b.dropped + if b.overflows op = true then 1 else 0) % 2 ^ 64 } := by
  rw [overflows_of_inserted puts]
  cases op with
  | push msg =>
    cases puts
    rw [insertBySeq_of_last (fun e mem => ahead e (mem_room mem)),
      Nat.max_eq_right (Nat.le_succ b.nextSeq)]
    by_cases full : b.capacity ≤ b.queue.length
    · simp [perform, wrap, push, makeRoom, room, full]
    · simp [perform, wrap, push, makeRoom, room, full]
  | pushPreserving seq msg =>
    cases puts
    have next : (if seq.toNat ≥ b.nextSeq then { b with nextSeq := seq.toNat + 1 } else b) =
        { b with nextSeq := max b.nextSeq (seq.toNat + 1) } := by
      split
      · rename_i newer
        rw [Nat.max_eq_right (Nat.le_succ_of_le newer)]
      · rename_i older
        rw [Nat.max_eq_left (Nat.lt_of_not_le older)]
    unfold perform pushPreserving
    dsimp only
    rw [next]
    by_cases full : b.capacity ≤ b.queue.length
    · simp [wrap, makeRoom, room, insertBySeq, full]
    · simp [wrap, makeRoom, room, insertBySeq, full]
  | pop => cases puts
  | drain => cases puts

/-- What is taken out is the oldest, or all. -/
theorem perform_of_none (puts : b.inserted op = none) :
    ∃ q, q <:+ b.queue ∧ b.perform op = { b with queue := q } := by
  cases op with
  | push msg => cases puts
  | pushPreserving seq msg => cases puts
  | pop => exact ⟨b.queue.tail, List.tail_suffix _, rfl⟩
  | drain => exact ⟨[], List.nil_suffix, rfl⟩

/-- A buffer in order, within its capacity, whose counters are right. -/
structure Held (capacity n : Nat) (b : DeltaBuffer) : Prop where
  increasing : b.queue.Pairwise (fun d e => d.seq < e.seq)
  bounded : b.queue.length ≤ max capacity 1
  ahead : ∀ d ∈ b.queue, d.seq < b.nextSeq
  counted : b.dropped = n

/-- What every operation keeps, whatever it is given. -/
structure Sized (capacity : Nat) (b : DeltaBuffer) : Prop where
  capacity : b.capacity = max capacity 1
  nextSeq : b.nextSeq < 2 ^ 64
  dropped : b.dropped < 2 ^ 64

theorem Sized.perform (h : b.Sized capacity) (op : BufferOp) : (b.perform op).Sized capacity := by
  have wrapped : ∀ b' : DeltaBuffer, b'.capacity = b.capacity → b'.wrap.Sized capacity :=
    fun b' same => ⟨same.trans h.capacity, Nat.mod_lt _ (by decide), Nat.mod_lt _ (by decide)⟩
  cases op with
  | push msg => exact wrapped _ (push_capacity b msg)
  | pushPreserving seq msg =>
    refine wrapped _ ?_
    unfold pushPreserving makeRoom
    dsimp only
    split <;> split <;> rfl
  | pop => exact ⟨h.capacity, h.nextSeq, h.dropped⟩
  | drain => exact ⟨h.capacity, h.nextSeq, h.dropped⟩

/-- The numbers a buffer holds do not include that of a delta that is put into it. -/
theorem Held.ne_inserted (h : b.Held capacity n) (fresh : b.Fresh op)
    (puts : b.inserted op = some d) : ∀ e ∈ b.queue, e.seq ≠ d.seq := by
  cases op with
  | push msg =>
    cases puts
    exact fun e mem => Nat.ne_of_lt (h.ahead e mem)
  | pushPreserving seq msg =>
    cases puts
    exact fresh
  | pop => cases puts
  | drain => cases puts

theorem Sized.inserted_lt (sized : b.Sized capacity) (puts : b.inserted op = some d) :
    d.seq < 2 ^ 64 := by
  cases op with
  | push msg =>
    cases puts
    exact sized.nextSeq
  | pushPreserving seq msg =>
    cases puts
    exact seq.toNat_lt
  | pop => cases puts
  | drain => cases puts

/-- A full buffer has an oldest delta, and is left with the others. -/
theorem Sized.room_of_full (sized : b.Sized capacity) (full : b.overflows op = true) :
    ∃ front, b.queue = front :: b.room := by
  have full : b.capacity ≤ b.queue.length := by
    simp only [overflows, Bool.and_eq_true, decide_eq_true_iff] at full
    exact full.2
  rw [room, if_pos full]
  cases held : b.queue with
  | nil =>
    rw [held, sized.capacity, List.length_nil] at full
    omega
  | cons front q => exact ⟨front, rfl⟩

theorem Held.room_length (h : b.Held capacity n) (sized : b.Sized capacity) :
    b.room.length + 1 ≤ max capacity 1 := by
  have bounded := h.bounded
  have cap := sized.capacity
  unfold room
  split
  · rw [List.length_tail]
    omega
  · omega

/-- The oldest delta, which goes, is the least of all just in case it is older than the new one. -/
theorem Held.evictsOldest_iff (h : b.Held capacity n) (fresh : ∀ e ∈ b.queue, e.seq ≠ d.seq)
    {front : Delta} (held : b.queue = front :: b.room) {b' : DeltaBuffer}
    (queue : b'.queue = insertBySeq b.room d) : EvictsOldest b d b' ↔ front.seq < d.seq := by
  have mem : front ∈ b.queue := held ▸ List.mem_cons_self
  have moved : ∀ e : Delta, (e :: b'.queue).Perm (d :: e :: b.room) := by
    intro e
    rw [queue]
    exact (insertBySeq_perm.cons e).trans (List.Perm.swap d e b.room)
  constructor
  · rintro ⟨e, -, least, perm⟩
    rw [held] at perm
    have same : ([e] ++ b.room).Perm ([front] ++ b.room) :=
      ((moved e).symm.trans perm).cons_inv
    rw [List.perm_append_right_iff, List.singleton_perm_singleton] at same
    subst same
    exact Nat.lt_of_le_of_ne (least d List.mem_cons_self) (fresh e mem)
  · intro older
    refine ⟨front, List.mem_cons_of_mem d mem, fun e' mem' => ?_, held ▸ moved front⟩
    have first := h.increasing
    rw [held, List.pairwise_cons] at first
    rcases List.mem_cons.mp mem' with rfl | mem'
    · exact Nat.le_of_lt older
    · rw [held] at mem'
      rcases List.mem_cons.mp mem' with rfl | mem'
      · exact Nat.le_refl _
      · exact Nat.le_of_lt (first.1 e' mem')

/-- An operation that fits keeps the order and the counters. -/
theorem Held.perform (h : b.Held capacity n) (sized : b.Sized capacity) (fresh : b.Fresh op)
    (fits : b.Fits op) :
    (b.perform op).Held capacity (n + if b.overflows op = true then 1 else 0) := by
  obtain ⟨dropped, next, -⟩ := fits
  have increasing : b.room.Pairwise (fun d e => d.seq < e.seq) := by
    unfold room
    split
    · exact h.increasing.sublist (List.tail_sublist _)
    · exact h.increasing
  cases puts : b.inserted op with
  | none =>
    obtain ⟨q, suffix, done⟩ := perform_of_none puts
    have no : b.overflows op = false := by simp [overflows, puts]
    rw [done, no]
    exact ⟨h.increasing.sublist suffix.sublist, Nat.le_trans suffix.length_le h.bounded,
      fun d mem => h.ahead d (suffix.subset mem), h.counted⟩
  | some d =>
    have words : max b.nextSeq (d.seq + 1) < 2 ^ 64 := Nat.max_lt.mpr ⟨sized.nextSeq, next d puts⟩
    have ne := h.ne_inserted fresh puts
    rw [perform_of_inserted h.ahead puts, Nat.mod_eq_of_lt words, Nat.mod_eq_of_lt]
    · refine ⟨insertBySeq_increasing increasing (fun e mem => ne e (mem_room mem)), ?_, ?_, ?_⟩
      · rw [insertBySeq_perm.length_eq, List.length_cons]
        exact h.room_length sized
      · intro e mem
        rcases List.mem_cons.mp (insertBySeq_perm.mem_iff.mp mem) with rfl | mem
        · exact Nat.le_max_right _ _
        · exact Nat.lt_of_lt_of_le (h.ahead e (mem_room mem)) (Nat.le_max_left _ _)
      · rw [h.counted]
    · have small := sized.dropped
      split
      · rename_i full
        exact dropped full
      · exact small

/-- Where the order and the counters are kept, the operation fitted. -/
theorem Held.fits (h : b.Held capacity n) (sized : b.Sized capacity) (fresh : b.Fresh op)
    (keeps : (b.perform op).Held capacity (n + if b.overflows op = true then 1 else 0))
    (oldest : b.overflows op = true → ∀ d ∈ b.inserted op, EvictsOldest b d (b.perform op)) :
    b.Fits op := by
  refine ⟨fun full => ?_, fun d puts => ?_, fun full d puts front first => ?_⟩
  · obtain ⟨d, puts⟩ : ∃ d, b.inserted op = some d := by
      simp only [overflows, Bool.and_eq_true] at full
      exact Option.isSome_iff_exists.mp full.1
    have counted := keeps.counted
    rw [perform_of_inserted h.ahead puts, if_pos full, ← h.counted] at counted
    rw [← counted]
    exact Nat.mod_lt _ (by decide)
  · have ahead := keeps.ahead d
    rw [perform_of_inserted h.ahead puts] at ahead
    have behind := ahead (insertBySeq_perm.mem_iff.mpr List.mem_cons_self)
    have small := sized.nextSeq
    have seq := sized.inserted_lt puts
    dsimp only at behind
    omega
  · obtain ⟨front', held⟩ := sized.room_of_full full
    rw [held] at first
    cases first
    refine (h.evictsOldest_iff (h.ne_inserted fresh puts) held ?_).mp (oldest full d puts)
    rw [perform_of_inserted h.ahead puts]

end Steps

/-! ## Runs -/

section Run

variable {capacity i : Nat} {ops : List BufferOp}

theorem after_succ (hi : i < ops.length) :
    after capacity ops (i + 1) = (after capacity ops i).perform ops[i] := by
  rw [after, List.take_add_one, List.getElem?_eq_getElem hi, List.foldl_append]
  rfl

theorem evictions_succ (hi : i < ops.length) : evictions capacity ops (i + 1) =
    evictions capacity ops i + if (after capacity ops i).overflows ops[i] = true then 1 else 0 := by
  rw [evictions, List.range_succ, List.filter_append, List.length_append, List.filter_singleton,
    List.getElem?_eq_getElem hi, Option.map_some, Option.getD_some, evictions]
  cases (after capacity ops i).overflows ops[i] <;> rfl

theorem sized_after (capacity : Nat) (ops : List BufferOp) (i : Nat) :
    (after capacity ops i).Sized capacity :=
  foldl_invariant (Sized capacity) (fun _ op h => h.perform op) (ops.take i) _
    ⟨rfl, by simp [withCapacity], by simp [withCapacity]⟩

theorem held_start (capacity : Nat) : (withCapacity capacity).Held capacity 0 :=
  ⟨List.Pairwise.nil, Nat.zero_le _, fun _ mem => absurd mem List.not_mem_nil, rfl⟩

/-- Along a run that fits every state is in order. -/
theorem held_after (fresh : Along perform Fresh (withCapacity capacity) ops)
    (fits : Along perform Fits (withCapacity capacity) ops) : i ≤ ops.length →
    (after capacity ops i).Held capacity (evictions capacity ops i) := by
  induction i with
  | zero => exact fun _ => held_start capacity
  | succ i ih =>
    intro lt
    rw [after_succ lt, evictions_succ lt]
    exact (ih (Nat.le_of_lt lt)).perform (sized_after capacity ops i)
      (Along.iff_take.mp fresh i lt) (Along.iff_take.mp fits i lt)

theorem BufferLaw.held (law : BufferLaw capacity ops) (hi : i ≤ ops.length) :
    (after capacity ops i).Held capacity (evictions capacity ops i) :=
  ⟨law.increasing i hi, law.bounded i hi, law.ahead i hi, law.counted i hi⟩

theorem BufferLaw.fits (law : BufferLaw capacity ops)
    (fresh : Along perform Fresh (withCapacity capacity) ops) :
    Along perform Fits (withCapacity capacity) ops := by
  refine Along.iff_take.mpr (fun i hi => ?_)
  refine (law.held (Nat.le_of_lt hi)).fits (sized_after capacity ops i)
    (Along.iff_take.mp fresh i hi) ?_ ?_
  · show ((after capacity ops i).perform ops[i]).Held capacity
      (evictions capacity ops i + if (after capacity ops i).overflows ops[i] = true then 1 else 0)
    rw [← after_succ hi, ← evictions_succ hi]
    exact law.held hi
  · show _ → ∀ d ∈ (after capacity ops i).inserted ops[i],
      EvictsOldest (after capacity ops i) d ((after capacity ops i).perform ops[i])
    rw [← after_succ hi]
    exact law.oldest i hi

theorem bufferLaw_of_fits (fresh : Along perform Fresh (withCapacity capacity) ops)
    (fits : Along perform Fits (withCapacity capacity) ops) : BufferLaw capacity ops where
  increasing _ hi := (held_after fresh fits hi).increasing
  bounded _ hi := (held_after fresh fits hi).bounded
  oldest i hi full d puts := by
    have h := held_after fresh fits (Nat.le_of_lt hi)
    obtain ⟨front, held⟩ := (sized_after capacity ops i).room_of_full full
    have first : (after capacity ops i).queue.head? = some front := by
      rw [held]
      rfl
    refine (h.evictsOldest_iff (h.ne_inserted (Along.iff_take.mp fresh i hi) puts) held ?_).mpr
      ((Along.iff_take.mp fits i hi).2.2 full d puts front first)
    rw [after_succ hi, perform_of_inserted h.ahead puts]
  counted _ hi := (held_after fresh fits hi).counted
  ahead _ hi := (held_after fresh fits hi).ahead

end Run

/-- The law holds of a run just in case no counter wraps in it and every delta that goes into a full
buffer is newer than the oldest there. -/
theorem buffer_law_iff (capacity : Nat) (ops : List BufferOp)
    (fresh : Along perform Fresh (withCapacity capacity) ops) :
    BufferLaw capacity ops ↔ Along perform Fits (withCapacity capacity) ops :=
  ⟨fun law => law.fits fresh, bufferLaw_of_fits fresh⟩

/-- A buffer of two drops the first of three, and takes the second back after it was sent. -/
theorem buffer_law_iff_requeue :
    let msg := ClientMessage.sessionRemove "a"
    let ops := [BufferOp.push msg, .push msg, .push msg, .pop, .pushPreserving 2 msg]
    BufferLaw 2 ops ↔ Along perform Fits (withCapacity 2) ops := by
  intro msg ops
  exact buffer_law_iff 2 ops (by decide)

/-- A full buffer that takes back what is older than all it holds drops the oldest it held. -/
theorem older_delta_kept : ¬ ∀ (capacity : Nat) (ops : List BufferOp),
    Along perform Fresh (withCapacity capacity) ops → BufferLaw capacity ops := by
  intro law
  let msg := ClientMessage.sessionRemove "a"
  let ops := [BufferOp.pushPreserving 2 msg, .pushPreserving 3 msg, .pushPreserving 1 msg]
  have fresh : Along perform Fresh (withCapacity 2) ops := by decide
  exact absurd ((law 2 ops fresh).fits fresh) (by decide)

end DeltaBuffer

end VsFleet
