import VsFleet.Cli.Render
import VsFleet.Hub.Proofs.Readers
import Mathlib.Data.Prod.Lex
import Mathlib.Data.String.Basic

/-!
# The command line lists what the Hub holds

The hash map of the command line shows a list of sessions when it has the list's lookups; every
event then does to it what a reader of the stream may do. Its rows are sorted by a total order
whose last key is the id, so there is one way to sort the rows of a list with distinct ids, and
neither the iteration order of the map nor the arrival order of the sessions is left in it.
-/

namespace VsFleet

open MergeEngine (Mutation)

/-! ## The map -/

/-- The map has the lookups of the list. -/
structure CliState.Holds (c : CliState) (l : List Session) : Prop where
  distinct : (l.map (fun s => s.sessionId)).Nodup
  lookup : ∀ id, c.sessions.lookup id = KeyedList.get? (fun s => s.sessionId) l id

@[simp] theorem CliState.upsertRun_sessionId (sess : Session) (run : AgentRun) :
    (CliState.upsertRun sess run).sessionId = sess.sessionId := by
  unfold CliState.upsertRun
  split <;> rfl

@[simp] theorem recomputeRollupsLocally_sessionId (sess : Session) :
    (recomputeRollupsLocally sess).sessionId = sess.sessionId := rfl

namespace CliState.Holds

variable {c : CliState} {l : List Session}

theorem new : CliState.new.Holds [] := ⟨List.nodup_nil, fun _ => rfl⟩

theorem insert (h : c.Holds l) (session : Session) :
    (c.insert session).Holds (KeyedList.upsert (fun s => s.sessionId) l session) := by
  refine ⟨KeyedList.upsert_nodup h.distinct, ?_⟩
  intro id
  rw [KeyedList.get?_upsert h.distinct, ← h.lookup, CliState.insert]
  split
  · rename_i own
    rw [← own, AList.lookup_insert]
  · rename_i other
    exact AList.lookup_insert_ne (Ne.symm other)

theorem inserts (sessions : List Session) (h : c.Holds l) :
    (sessions.foldl CliState.insert c).Holds
      (sessions.foldl (KeyedList.upsert (fun s => s.sessionId)) l) := by
  induction sessions generalizing c l with
  | nil => exact h
  | cons s sessions ih => exact ih (h.insert s)

theorem erase (h : c.Holds l) (id : String) :
    CliState.Holds ⟨c.sessions.erase id⟩ (KeyedList.erase (fun s => s.sessionId) l id) := by
  refine ⟨KeyedList.erase_nodup h.distinct, ?_⟩
  intro k
  rw [KeyedList.get?_erase, ← h.lookup]
  split
  · rename_i own
    rw [own, AList.lookup_erase]
  · rename_i other
    exact AList.lookup_erase_ne other

theorem modify (h : c.Holds l) (id : String) {f : Session → Session}
    (hf : ∀ s, (f s).sessionId = s.sessionId) :
    CliState.Holds ⟨HashMap.modify c.sessions id f⟩
      (KeyedList.modify (fun s => s.sessionId) l id f) := by
  refine ⟨by rw [KeyedList.modify_map_key hf]; exact h.distinct, ?_⟩
  intro k
  rw [HashMap.lookup_modify, KeyedList.get?_modify hf, h.lookup]
  cases found : KeyedList.get? (fun s : Session => s.sessionId) l k with
  | none => simp
  | some s =>
    have own := ((KeyedList.get?_eq_some_iff h.distinct).mp found).2
    rw [Option.map_some, Option.map_some, own]
    split <;> rfl

/-- Each event does to the map what a reader of the stream may do to a list. -/
theorem apply (h : c.Holds l) (event : Event) :
    ∃ l', event.Reads l l' ∧ (c.apply event).Holds l' := by
  cases event with
  | snapshot version sessions => exact ⟨_, rfl, inserts sessions new⟩
  | sessionAdded version session => exact ⟨_, rfl, h.insert session⟩
  | sessionUpdated version session => exact ⟨_, rfl, h.insert session⟩
  | sessionRemoved version sessionId => exact ⟨_, rfl, h.erase sessionId⟩
  | runAdded version sessionId run => exact ⟨_, ⟨_, by simp, rfl⟩, h.modify sessionId (by simp)⟩
  | runUpdated version sessionId run => exact ⟨_, ⟨_, by simp, rfl⟩, h.modify sessionId (by simp)⟩
  | runRemoved version sessionId runId =>
    exact ⟨_, ⟨_, by simp, rfl⟩, h.modify sessionId (by simp)⟩

theorem applyAll (events : List Event) (h : c.Holds l) :
    ∃ l', ReadsAll events l l' ∧ (c.applyAll events).Holds l' := by
  induction events generalizing c l with
  | nil => exact ⟨l, rfl, h⟩
  | cons event events ih =>
    obtain ⟨mid, one, holds⟩ := h.apply event
    obtain ⟨l', rest, holds'⟩ := ih holds
    exact ⟨l', ⟨mid, one, rest⟩, holds'⟩

theorem snapshot (c : CliState) (distinct : (l.map (fun s => s.sessionId)).Nodup) :
    (c.apply (.ofSnapshot l)).Holds l := by
  have put := inserts l new
  rw [KeyedList.foldl_upsert l [] distinct] at put
  exact put

end CliState.Holds

/-! ## The order of the rows -/

/-- The rank a row has for its urgency, where none and the named token are one. -/
def Row.urgencyRank (row : Row) : Nat := VsFleet.urgencyRank (row.rollupUrgency.getD .none)

/-- Muted last, then the more urgent first, then the higher state, then the id. -/
def Row.Precedes (a b : Row) : Prop :=
  a.muted = false ∧ b.muted = true ∨ a.muted = b.muted ∧
    (b.urgencyRank < a.urgencyRank ∨ a.urgencyRank = b.urgencyRank ∧
      (stateRank b.rollupState < stateRank a.rollupState ∨
        stateRank a.rollupState = stateRank b.rollupState ∧ a.sessionId < b.sessionId))

/-- The key with the id as its last place, in the linear order of tuples. -/
def Row.place (row : Row) : Nat ×ₗ Nat ×ₗ Nat ×ₗ String :=
  toLex ((sortKey row).1, toLex ((sortKey row).2.1, toLex ((sortKey row).2.2, row.sessionId)))

theorem Row.cmp_eq (a b : Row) : a.cmp b = compare a.place b.place := by
  simp [Row.cmp, Row.place, Prod.Lex.compare_def, compareLex, compareOn, Ordering.then_assoc]

theorem Row.cmp_isLE (a b : Row) : (a.cmp b).isLE = true ↔ a.place ≤ b.place := by
  rw [Row.cmp_eq, ← compare_le_iff_le]
  cases compare a.place b.place <;> simp

section

variable (row a b : Row)

theorem sortKey_muted_lt :
    (sortKey a).1 < (sortKey b).1 ↔ a.muted = false ∧ b.muted = true := by
  cases ha : a.muted <;> cases hb : b.muted <;> simp [sortKey, ha, hb]

theorem sortKey_muted_eq : (sortKey a).1 = (sortKey b).1 ↔ a.muted = b.muted := by
  cases ha : a.muted <;> cases hb : b.muted <;> simp [sortKey, ha, hb]

theorem sortKey_urgency : (sortKey row).2.1 = 255 - row.urgencyRank := by
  rcases h : row.rollupUrgency with _ | _ | _ <;>
    simp [sortKey, Row.urgencyRank, VsFleet.urgencyRank, h]

theorem sortKey_state : (sortKey row).2.2 = 255 - stateRank row.rollupState := rfl

theorem Row.urgencyRank_le : row.urgencyRank ≤ 3 := by
  unfold Row.urgencyRank
  cases row.rollupUrgency.getD .none <;> decide

theorem stateRank_le (s : State) : stateRank s ≤ 5 := by cases s <;> decide

/-- The order of the keys is the one a reader of the list is told. -/
theorem Row.precedes_iff : a.Precedes b ↔ a.place < b.place := by
  have ua := a.urgencyRank_le
  have ub := b.urgencyRank_le
  have sa := stateRank_le a.rollupState
  have sb := stateRank_le b.rollupState
  have urgency_lt : (sortKey a).2.1 < (sortKey b).2.1 ↔ b.urgencyRank < a.urgencyRank := by
    rw [sortKey_urgency, sortKey_urgency]
    omega
  have urgency_eq : (sortKey a).2.1 = (sortKey b).2.1 ↔ a.urgencyRank = b.urgencyRank := by
    rw [sortKey_urgency, sortKey_urgency]
    omega
  have state_lt : (sortKey a).2.2 < (sortKey b).2.2 ↔
      stateRank b.rollupState < stateRank a.rollupState := by
    rw [sortKey_state, sortKey_state]
    omega
  have state_eq : (sortKey a).2.2 = (sortKey b).2.2 ↔
      stateRank a.rollupState = stateRank b.rollupState := by
    rw [sortKey_state, sortKey_state]
    omega
  rw [Row.place, Row.place, Prod.Lex.toLex_lt_toLex, Prod.Lex.toLex_lt_toLex,
    Prod.Lex.toLex_lt_toLex, sortKey_muted_lt, sortKey_muted_eq, urgency_lt, urgency_eq, state_lt,
    state_eq]
  rfl

end

/-- Rows in order are the only ones in order among their rearrangements. -/
theorem Row.eq_of_perm {rows rows' : List Row} (perm : rows.Perm rows')
    (inOrder : rows.Pairwise Row.Precedes) (inOrder' : rows'.Pairwise Row.Precedes) :
    rows = rows' := by
  apply perm.eq_of_pairwise _ inOrder inOrder'
  intro a b _ _ before after
  rw [Row.precedes_iff] at before after
  exact absurd after (lt_asymm before)

/-- Sorting rows of distinct ids puts them in order. -/
theorem Row.pairwise_sorted {rows : List Row} (distinct : (rows.map (fun r => r.sessionId)).Nodup) :
    (rows.mergeSort (fun a b => (a.cmp b).isLE)).Pairwise Row.Precedes := by
  have trans : ∀ a b c : Row, (a.cmp b).isLE = true → (b.cmp c).isLE = true →
      (a.cmp c).isLE = true := by
    intro a b c hab hbc
    rw [Row.cmp_isLE] at hab hbc ⊢
    exact hab.trans hbc
  have total : ∀ a b : Row, ((a.cmp b).isLE || (b.cmp a).isLE) = true := by
    intro a b
    rw [Bool.or_eq_true, Row.cmp_isLE, Row.cmp_isLE]
    exact le_total _ _
  have sorted := List.pairwise_mergeSort trans total rows
  have apart : (rows.mergeSort (fun a b => (a.cmp b).isLE)).Pairwise
      (fun a b => a.sessionId ≠ b.sessionId) := by
    rw [← List.pairwise_map]
    exact ((List.mergeSort_perm rows _).map _).nodup_iff.mpr distinct
  refine (sorted.and apart).imp ?_
  intro a b h
  rw [Row.precedes_iff]
  refine lt_of_le_of_ne ((Row.cmp_isLE a b).mp h.1) ?_
  intro same
  have ids := congrArg (fun p => (ofLex (ofLex (ofLex p).2).2).2) same
  exact h.2 ids

/-- The rows of a map that shows a list are the rows of the list in order, and no others. -/
theorem CliState.Holds.rows_eq_iff {c : CliState} {l : List Session} (h : c.Holds l)
    (iter : IterOrder Session) (rows : List Row) :
    rows = c.rows iter ↔ rows.Perm (l.map sessionToRow) ∧ rows.Pairwise Row.Precedes := by
  have values : (iter.perm (OrderedMap.unordered c.sessions)).Perm l :=
    (iter.isPerm _).trans (OrderedMap.unordered_perm h.distinct h.lookup)
  have listed : (c.rows iter).Perm (l.map sessionToRow) :=
    (List.mergeSort_perm _ _).trans (values.map sessionToRow)
  have inOrder : (c.rows iter).Pairwise Row.Precedes := by
    apply Row.pairwise_sorted
    rw [List.map_map]
    exact (values.map _).nodup_iff.mpr h.distinct
  constructor
  · rintro rfl
    exact ⟨listed, inOrder⟩
  · intro spec
    exact Row.eq_of_perm (spec.1.trans listed.symm) spec.2 inOrder

/-! ## In step with the engine -/

/-- The command line that reads the snapshot of the engine after `before` and then the events of
`after` holds the sessions the engine holds after `after`, and its rows are these sessions in the
one order of rows, whatever it held before and however its map is walked. -/
theorem list_agrees (before after : List Mutation) (returns : ∀ m ∈ after, m.ReturnsAll)
    (cli : CliState) :
    let e := (MergeEngine.mutateAll before .new).1
    let e' := (MergeEngine.mutateAll after e).1
    let shown := (cli.apply (.ofSnapshot e.snapshot)).applyAll (MergeEngine.mutateAll after e).2
    (∀ id, shown.sessions.lookup id = e'.sessions.lookup id) ∧
      ∀ (iter : IterOrder Session) (rows : List Row), rows = shown.rows iter ↔
        rows.Perm (e'.snapshot.map sessionToRow) ∧ rows.Pairwise Row.Precedes := by
  intro e e' shown
  have engine : Refines e _ := Refines.mutateAll before Refines.new
  have engine' : Refines e' _ := Refines.mutateAll after engine
  have start : (cli.apply (.ofSnapshot e.snapshot)).Holds
      (before.foldl Fleet.mutate .empty).sessions := by
    rw [engine.snapshot]
    exact CliState.Holds.snapshot cli (Fleet.distinct _)
  obtain ⟨l, reads, holds⟩ := start.applyAll (MergeEngine.mutateAll after e).2
  obtain rfl := Refines.mutateAll_reads after engine returns reads
  constructor
  · intro id
    rw [engine'.lookup]
    exact holds.lookup id
  · intro iter rows
    rw [engine'.snapshot]
    exact holds.rows_eq_iff iter rows

/-- Two waiting sessions of which the first is soloed, and the first muted. -/
theorem list_agrees_muted_solo :
    let a := Session.plain "a" [.plain "r" "n" .waiting]
    let b := Session.plain "b" [.plain "q" "m" .waiting]
    let before := [Mutation.upsertSession a, .upsertSession b, .applySolo "a"]
    let e := (MergeEngine.mutateAll before .new).1
    let after := [Mutation.applyMute "a"]
    let e' := (MergeEngine.mutateAll after e).1
    let shown := (CliState.new.apply (.ofSnapshot e.snapshot)).applyAll
      (MergeEngine.mutateAll after e).2
    (∀ id, shown.sessions.lookup id = e'.sessions.lookup id) ∧
      ∀ (iter : IterOrder Session) (rows : List Row), rows = shown.rows iter ↔
        rows.Perm (e'.snapshot.map sessionToRow) ∧ rows.Pairwise Row.Precedes :=
  list_agrees _ [.applyMute "a"] (by simp [MergeEngine.Mutation.ReturnsAll]) _

/-- `remove_session` of the soloed one of two waiting sessions makes the other unread and returns
the removal only, so the list goes on showing it read. -/
theorem removeSession_hides_unread_row :
    ¬ ∀ (before after : List Mutation) (cli : CliState),
      let e := (MergeEngine.mutateAll before .new).1
      let e' := (MergeEngine.mutateAll after e).1
      let shown := (cli.apply (.ofSnapshot e.snapshot)).applyAll (MergeEngine.mutateAll after e).2
      (∀ id, shown.sessions.lookup id = e'.sessions.lookup id) ∧
        ∀ (iter : IterOrder Session) (rows : List Row), rows = shown.rows iter ↔
          rows.Perm (e'.snapshot.map sessionToRow) ∧ rows.Pairwise Row.Precedes := by
  intro agrees
  have lookups := (agrees
    [.upsertSession (Session.plain "a" [.plain "r" "n" .waiting]),
      .upsertSession (Session.plain "b" [.plain "q" "m" .waiting]), .applySolo "a"]
    [.removeSession "a"] .new).1 "b"
  have unread := congrArg (Option.map (fun s => s.unread)) lookups
  revert unread
  decide

end VsFleet
