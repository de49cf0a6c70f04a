import VsFleet.Misc.OrderedMap

/-!
# The reclaim table

The gate on stamped run deltas (`fleet-hub/src/reclaim.rs`): one mark for each durable id, the
epoch and the highest sequence number applied in it. Epochs and sequence numbers are only ever
compared, so they are natural numbers here.
-/

namespace VsFleet

/-- `DurableId` (`reclaim.rs:52`). -/
structure DurableId where
  val : String
  deriving DecidableEq, Repr

/-- `Decision` (`reclaim.rs:78-92`). -/
inductive Decision where
  | applyFresh
  | apply
  | duplicateDrop
  | staleEpochDrop
  deriving DecidableEq, Repr

/-- `Decision::applies` (`reclaim.rs:96-98`). -/
def Decision.applies : Decision → Bool
  | .applyFresh | .apply => true
  | .duplicateDrop | .staleEpochDrop => false

/-- `Decision::drops` (`reclaim.rs:100-102`). -/
def Decision.drops (decision : Decision) : Bool := !decision.applies

/-- `Mark` (`reclaim.rs:108-111`). -/
structure Mark where
  epoch : Nat
  highSeq : Nat
  deriving DecidableEq, Repr

/-- `ReclaimTable` (`reclaim.rs:117-119`). -/
structure ReclaimTable where
  marks : HashMap DurableId Mark

namespace ReclaimTable

/-- `new` (`reclaim.rs:123-125`). -/
def new : ReclaimTable := ⟨∅⟩

/-- `contains` (`reclaim.rs:138-140`). -/
def contains (t : ReclaimTable) (id : DurableId) : Bool := id ∈ t.marks

/-- `classify` (`reclaim.rs:156-165`). -/
def classify (t : ReclaimTable) (id : DurableId) (epoch seq : Nat) : Decision :=
  match t.marks.lookup id with
  | none => .applyFresh
  | some m =>
    if epoch > m.epoch then .applyFresh
    else if epoch < m.epoch then .staleEpochDrop
    else if seq > m.highSeq then .apply
    else .duplicateDrop

/-- `commit` (`reclaim.rs:170-188`). -/
def commit (t : ReclaimTable) (id : DurableId) (epoch seq : Nat) : ReclaimTable :=
  match t.marks.lookup id with
  | none => ⟨t.marks.insert id ⟨epoch, seq⟩⟩
  | some m =>
    if epoch > m.epoch then ⟨t.marks.insert id ⟨epoch, seq⟩⟩
    else if epoch = m.epoch ∧ seq > m.highSeq then ⟨t.marks.insert id { m with highSeq := seq }⟩
    else t

/-- `admit` (`reclaim.rs:197-203`). -/
def admitDelta (t : ReclaimTable) (id : DurableId) (epoch seq : Nat) : Decision × ReclaimTable :=
  let decision := t.classify id epoch seq
  (decision, if decision.applies then t.commit id epoch seq else t)

/-- `drop_id` (`reclaim.rs:208-210`). -/
def dropId (t : ReclaimTable) (id : DurableId) : Bool × ReclaimTable :=
  (t.contains id, ⟨t.marks.erase id⟩)

/-- `drop_ids` (`reclaim.rs:216-224`), with the number of marks dropped. -/
def dropIds (t : ReclaimTable) : List DurableId → Nat × ReclaimTable
  | [] => (0, t)
  | id :: ids =>
    let (found, t) := t.dropId id
    let (dropped, t) := t.dropIds ids
    (if found then dropped + 1 else dropped, t)

/-- The mark of a delta. -/
def mark (t : ReclaimTable) (id : DurableId) : Option Mark := t.marks.lookup id

@[simp] theorem mark_new (id : DurableId) : new.mark id = none := by simp [mark, new]

theorem mark_dropId (t : ReclaimTable) (id id' : DurableId) :
    (t.dropId id).2.mark id' = if id' = id then none else t.mark id' := by
  unfold dropId mark
  split
  · rename_i h
    rw [h, AList.lookup_erase]
  · rename_i h
    exact AList.lookup_erase_ne h

theorem mark_dropIds (ids : List DurableId) (t : ReclaimTable) (id : DurableId) :
    (t.dropIds ids).2.mark id = if id ∈ ids then none else t.mark id := by
  induction ids generalizing t with
  | nil => rfl
  | cons id' ids ih =>
    simp only [dropIds, ih, mark_dropId, List.mem_cons]
    by_cases h : id = id' <;> by_cases h' : id ∈ ids <;> simp [h, h']

/-- What an admitted or dropped delta does to the marks. -/
theorem mark_admitDelta (t : ReclaimTable) (id id' : DurableId) (epoch seq : Nat) :
    (t.admitDelta id epoch seq).2.mark id' =
      if id' = id ∧ (t.classify id epoch seq).applies then some ⟨epoch, seq⟩ else t.mark id' := by
  by_cases applies : (t.classify id epoch seq).applies
  · by_cases h : id' = id
    · subst h
      simp only [admitDelta, applies, if_true, and_self]
      unfold classify at applies
      unfold commit
      split
      · simp [mark]
      · rename_i m found
        simp only [found] at applies
        by_cases newer : epoch > m.epoch
        · simp [newer, mark]
        · by_cases older : epoch < m.epoch
          · simp [newer, older, Decision.applies] at applies
          · have same : epoch = m.epoch := by omega
            by_cases later : seq > m.highSeq
            · simp [same, later, mark]
            · simp [same, later, Decision.applies] at applies
    · simp only [admitDelta, applies, if_true, h, false_and, if_false]
      unfold commit mark
      split
      · exact AList.lookup_insert_ne h
      · split
        · exact AList.lookup_insert_ne h
        · split
          · exact AList.lookup_insert_ne h
          · rfl
  · simp [admitDelta, applies, mark]

theorem classify_of_none {t : ReclaimTable} {id : DurableId} (h : t.mark id = none)
    (epoch seq : Nat) : t.classify id epoch seq = .applyFresh := by
  rw [mark] at h
  simp [classify, h]

/-- A delta is applied exactly when it is above the mark, epoch first. -/
theorem classify_applies_iff {t : ReclaimTable} {id : DurableId} {m : Mark}
    (h : t.mark id = some m) (epoch seq : Nat) :
    (t.classify id epoch seq).applies = true ↔
      m.epoch < epoch ∨ (m.epoch = epoch ∧ m.highSeq < seq) := by
  rw [mark] at h
  simp only [classify, h]
  split
  · simp [Decision.applies]
    omega
  · split
    · simp [Decision.applies]
      omega
    · split
      · simp [Decision.applies]
        omega
      · simp [Decision.applies]
        omega

end ReclaimTable

end VsFleet
