import VsFleet.Misc.OrderedMap
import VsFleet.Protocol.Wire

/-!
# The durable identity of a run

The ledger that stamps run deltas on the side of the reporter (`fleet-reporter/src/identity.rs`).
The durable id of the reporter is a string in a wrapper of its own; here it is the string.
-/

namespace VsFleet

/-- `RunIdentity` (`identity.rs:52-57`). -/
structure RunIdentity where
  durableId : String
  epoch : Nat
  lastSeq : Nat

/-- `RunIdentity::new` (`identity.rs:61-67`). -/
def RunIdentity.new (durableId : String) (epoch : Nat) : RunIdentity := ⟨durableId, epoch, 0⟩

/-- `IdentityLedger` (`identity.rs:114-116`). -/
structure IdentityLedger where
  runs : HashMap String RunIdentity

namespace IdentityLedger

/-- `new` (`identity.rs:120-122`). -/
def new : IdentityLedger := ⟨∅⟩

/-- `contains` (`identity.rs:135-137`). -/
def contains (ledger : IdentityLedger) (id : String) : Bool := id ∈ ledger.runs

/-- `reclaim` (`identity.rs:154-160`). -/
def reclaim (ledger : IdentityLedger) (id : String) : IdentityLedger :=
  match ledger.runs.lookup id with
  | some _ => ledger
  | none => ⟨ledger.runs.insert id (.new id 0)⟩

/-- `fresh_start` (`identity.rs:166-180`). -/
def freshStart (ledger : IdentityLedger) (id : String) : IdentityLedger :=
  match ledger.runs.lookup id with
  | some r => ⟨ledger.runs.insert id { r with epoch := r.epoch + 1, lastSeq := 0 }⟩
  | none => ⟨ledger.runs.insert id (.new id 0)⟩

/-- `declare` (`identity.rs:184-191`). -/
def declare (ledger : IdentityLedger) (id : String) (cleanStart : Bool) : IdentityLedger :=
  if cleanStart then ledger.freshStart id else ledger.reclaim id

/-- The first sighting of an anchored id declares it (`reporter.rs:194-198`). -/
def sight (ledger : IdentityLedger) (id : String) (cleanStart : Bool) : IdentityLedger :=
  if id ≠ "" ∧ ¬ ledger.contains id then ledger.declare id cleanStart else ledger

/-- `stamp` (`identity.rs:198-213`). -/
def stamp (ledger : IdentityLedger) (id : String) : Option SeqStamp × IdentityLedger :=
  if id = "" then (none, ledger)
  else
    let run := (ledger.runs.lookup id).getD (.new id 0)
    let run := { run with lastSeq := run.lastSeq + 1 }
    (some ⟨id, run.epoch, run.lastSeq⟩, ⟨ledger.runs.insert id run⟩)

/-- `forget` (`identity.rs:217-219`). -/
def forget (ledger : IdentityLedger) (id : String) : Bool × IdentityLedger :=
  (id ∈ ledger.runs, ⟨ledger.runs.erase id⟩)

/-- The number last assigned to a durable id, 0 for one not tracked. -/
def assigned (ledger : IdentityLedger) (id : String) : Nat :=
  ((ledger.runs.lookup id).map (fun r => r.lastSeq)).getD 0

/-- No series was started over. -/
def FirstEpoch (ledger : IdentityLedger) : Prop :=
  ∀ id r, ledger.runs.lookup id = some r → r.epoch = 0

theorem firstEpoch_new : new.FirstEpoch := by simp [FirstEpoch, new]

theorem FirstEpoch.insert {ledger : IdentityLedger} (h : ledger.FirstEpoch) {id : String}
    {r : RunIdentity} (hr : r.epoch = 0) : FirstEpoch ⟨ledger.runs.insert id r⟩ := by
  intro id' r' found
  by_cases same : id' = id
  · subst same
    rw [AList.lookup_insert, Option.some.injEq] at found
    exact found ▸ hr
  · rw [AList.lookup_insert_ne same] at found
    exact h id' r' found

/-- Declaring an id that is not tracked starts its series at zero, cleanly or not. -/
theorem declare_new {ledger : IdentityLedger} {id : String} (absent : ¬ ledger.contains id)
    (cleanStart : Bool) : ledger.declare id cleanStart = ⟨ledger.runs.insert id (.new id 0)⟩ := by
  have none : ledger.runs.lookup id = none := by
    rw [AList.lookup_eq_none]
    simpa [contains] using absent
  cases cleanStart <;> simp [declare, freshStart, reclaim, none]

theorem FirstEpoch.sight {ledger : IdentityLedger} (h : ledger.FirstEpoch) (id : String)
    (cleanStart : Bool) : (ledger.sight id cleanStart).FirstEpoch := by
  unfold IdentityLedger.sight
  split
  · rename_i absent
    rw [declare_new absent.2]
    exact h.insert rfl
  · exact h

@[simp] theorem assigned_sight (ledger : IdentityLedger) (id id' : String) (cleanStart : Bool) :
    (ledger.sight id cleanStart).assigned id' = ledger.assigned id' := by
  unfold sight
  split
  · rename_i absent
    rw [declare_new absent.2]
    by_cases same : id' = id
    · subst same
      have none : ledger.runs.lookup id' = none := by
        rw [AList.lookup_eq_none]
        simpa [contains] using absent.2
      simp [assigned, none, RunIdentity.new]
    · simp [assigned, AList.lookup_insert_ne same]
  · rfl

/-- A stamp of the first epoch takes the number after the last one assigned. -/
theorem FirstEpoch.stamp {ledger : IdentityLedger} (h : ledger.FirstEpoch) {id : String}
    (anchored : id ≠ "") : (ledger.stamp id).1 = some ⟨id, 0, ledger.assigned id + 1⟩ ∧
      (ledger.stamp id).2.FirstEpoch ∧ ∀ id', (ledger.stamp id).2.assigned id' =
        if id' = id then ledger.assigned id + 1 else ledger.assigned id' := by
  have first : ((ledger.runs.lookup id).getD (.new id 0)).epoch = 0 := by
    cases found : ledger.runs.lookup id with
    | none => rfl
    | some r => exact h id r found
  have last : ((ledger.runs.lookup id).getD (.new id 0)).lastSeq = ledger.assigned id := by
    unfold assigned
    cases ledger.runs.lookup id <;> rfl
  rw [IdentityLedger.stamp, if_neg anchored]
  refine ⟨by dsimp only; rw [first, last], h.insert first, ?_⟩
  intro id'
  by_cases same : id' = id
  · subst same
    simp only [assigned, AList.lookup_insert, Option.map_some, Option.getD_some, if_true]
    rw [last]
    rfl
  · simp [assigned, AList.lookup_insert_ne same, same]

end IdentityLedger

end VsFleet
