import Mathlib.Data.List.Induction
import Mathlib.Data.Prod.Lex
import VsFleet.Reporter.Identity

/-!
# The stamps of a ledger

The epoch and the number that a durable id has come to in a ledger are never set back but by
`forget`, which erases them, and a stamp is above what its id had come to. So the stamps of an id
increase from one `forget` of it to the next.
-/

namespace VsFleet

/-- What is asked of a ledger. -/
inductive LedgerOp where
  | stamp (id : String)
  | declare (id : String) (cleanStart : Bool)
  | reclaim (id : String)
  | freshStart (id : String)
  | forget (id : String)
  deriving DecidableEq, Repr

/-- What the Hub compares of a stamp. -/
def SeqStamp.mark (stamp : SeqStamp) : ℕ ×ₗ ℕ := toLex (stamp.epoch, stamp.seq)

namespace IdentityLedger

/-- The ledger after an operation, with the stamp a `stamp` hands out. -/
def apply (ledger : IdentityLedger) : LedgerOp → Option SeqStamp × IdentityLedger
  | .stamp id => ledger.stamp id
  | .declare id cleanStart => (none, ledger.declare id cleanStart)
  | .reclaim id => (none, ledger.reclaim id)
  | .freshStart id => (none, ledger.freshStart id)
  | .forget id => (none, (ledger.forget id).2)

/-- The ledger after some operations. -/
def after (ledger : IdentityLedger) (ops : List LedgerOp) : IdentityLedger :=
  ops.foldl (fun ledger op => (ledger.apply op).2) ledger

/-- The stamp that the operation at a place of a run hands out. -/
def stampAt (ledger : IdentityLedger) (ops : List LedgerOp) (i : Nat) : Option SeqStamp :=
  ops[i]?.bind (fun op => ((ledger.after (ops.take i)).apply op).1)

/-- The epoch and the number a durable id has come to. -/
def mark (ledger : IdentityLedger) (id : String) : ℕ ×ₗ ℕ :=
  let run := (ledger.runs.lookup id).getD (.new id 0)
  toLex (run.epoch, run.lastSeq)

section Mark

variable {ledger : IdentityLedger} {id other : String}

@[simp] theorem mark_insert (run : RunIdentity) :
    mark ⟨ledger.runs.insert id run⟩ id = toLex (run.epoch, run.lastSeq) := by
  rw [mark, AList.lookup_insert, Option.getD_some]

theorem mark_insert_ne (run : RunIdentity) (apart : other ≠ id) :
    mark ⟨ledger.runs.insert id run⟩ other = ledger.mark other := by
  rw [mark, AList.lookup_insert_ne apart, mark]

/-- An id that is tracked from now on starts where one that is not is taken to be. -/
theorem mark_track (untracked : ledger.runs.lookup id = none) :
    mark ⟨ledger.runs.insert id (.new id 0)⟩ other = ledger.mark other := by
  by_cases same : other = id
  · subst same
    rw [mark_insert, mark, untracked, Option.getD_none]
  · exact mark_insert_ne _ same

theorem mark_reclaim : (ledger.reclaim id).mark other = ledger.mark other := by
  unfold reclaim
  split
  · rfl
  · exact mark_track ‹_›

theorem mark_freshStart : (ledger.freshStart id).mark other = ledger.mark other ∨
    (ledger.freshStart id).mark other = toLex ((ofLex (ledger.mark other)).1 + 1, 0) := by
  unfold freshStart
  split
  · rename_i run tracked
    by_cases same : other = id
    · subst same
      rw [mark_insert, mark, tracked]
      exact .inr rfl
    · exact .inl (mark_insert_ne _ same)
  · exact .inl (mark_track ‹_›)

theorem mark_stamp (ledger : IdentityLedger) (id : String) :
    (ledger.stamp id = (none, ledger)) ∨
    (ledger.stamp id).1 = some ⟨id, (ofLex (ledger.mark id)).1, (ofLex (ledger.mark id)).2 + 1⟩ ∧
      ∀ other, (ledger.stamp id).2.mark other = if other = id then
        toLex ((ofLex (ledger.mark id)).1, (ofLex (ledger.mark id)).2 + 1)
      else ledger.mark other := by
  unfold IdentityLedger.stamp
  split
  · exact .inl rfl
  · refine .inr ⟨rfl, fun other => ?_⟩
    split
    · subst other
      exact mark_insert _
    · exact mark_insert_ne _ ‹_›

theorem mark_forget : (ledger.forget id).2.mark other =
    if other = id then toLex (0, 0) else ledger.mark other := by
  split
  · subst other
    rw [mark, forget, AList.lookup_erase]
    rfl
  · rw [mark, forget, AList.lookup_erase_ne ‹_›, mark]

end Mark

/-- What an operation does to the mark of an id: it leaves it, goes on to the next epoch or to the
next number, or forgets the id. -/
theorem apply_mark (ledger : IdentityLedger) (op : LedgerOp) (id : String) :
    (ledger.apply op).2.mark id = ledger.mark id ∨
    (ledger.apply op).2.mark id = toLex ((ofLex (ledger.mark id)).1 + 1, 0) ∨
    (ledger.apply op).2.mark id =
      toLex ((ofLex (ledger.mark id)).1, (ofLex (ledger.mark id)).2 + 1) ∨
    op = .forget id ∧ (ledger.apply op).2.mark id = toLex (0, 0) := by
  cases op with
  | stamp other =>
    rcases mark_stamp ledger other with none_out | ⟨-, marks⟩
    · exact .inl (by rw [apply, none_out])
    · rw [apply, marks]
      split
      · subst other
        exact .inr (.inr (.inl rfl))
      · exact .inl rfl
  | declare other cleanStart =>
    cases cleanStart with
    | false => exact .inl mark_reclaim
    | true => exact mark_freshStart.imp_right .inl
  | reclaim other => exact .inl mark_reclaim
  | freshStart other => exact mark_freshStart.imp_right .inl
  | forget other =>
    rw [apply, mark_forget]
    split
    · subst other
      exact .inr (.inr (.inr ⟨rfl, rfl⟩))
    · exact .inl rfl

theorem mark_le_apply {ledger : IdentityLedger} {id : String} {op : LedgerOp}
    (kept : op ≠ .forget id) : ledger.mark id ≤ (ledger.apply op).2.mark id := by
  rcases apply_mark ledger op id with same | epoch | number | ⟨forgotten, -⟩
  · exact same.ge
  · rw [epoch, ← toLex_ofLex (ledger.mark id), Prod.Lex.toLex_le_toLex]
    exact .inl (Nat.lt_succ_self _)
  · rw [number, ← toLex_ofLex (ledger.mark id), Prod.Lex.toLex_le_toLex]
    exact .inr ⟨rfl, Nat.le_succ _⟩
  · exact absurd forgotten kept

/-- A stamp is above what its id had come to, which is then what the stamp says. -/
theorem apply_stamp {ledger : IdentityLedger} {op : LedgerOp} {stamp : SeqStamp}
    (out : (ledger.apply op).1 = some stamp) : ledger.mark stamp.durableId < stamp.mark ∧
      (ledger.apply op).2.mark stamp.durableId = stamp.mark := by
  cases op with
  | stamp id =>
    rcases mark_stamp ledger id with none_out | ⟨handed, marks⟩
    · rw [apply, none_out] at out
      cases out
    · obtain rfl := Option.some.inj (handed.symm.trans out)
      refine ⟨?_, (marks id).trans (if_pos rfl)⟩
      rw [SeqStamp.mark, ← toLex_ofLex (ledger.mark id), Prod.Lex.toLex_lt_toLex]
      exact .inr ⟨rfl, Nat.lt_succ_self _⟩
  | declare | reclaim | freshStart | forget => cases out

theorem after_take_succ {ledger : IdentityLedger} {ops : List LedgerOp} {i : Nat} {op : LedgerOp}
    (at_i : ops[i]? = some op) : ledger.after (ops.take (i + 1)) =
      ((ledger.after (ops.take i)).apply op).2 := by
  rw [List.take_add_one, at_i, after, List.foldl_append]
  rfl

/-- What a stamp says, its id keeps as long as it is not forgotten. -/
theorem mark_after_stamp {ledger : IdentityLedger} {ops : List LedgerOp} {i j : Nat}
    {stamp : SeqStamp} (out : ledger.stampAt ops i = some stamp) (later : i < j)
    (kept : ∀ k, i < k → k < j → ops[k]? ≠ some (.forget stamp.durableId)) :
    stamp.mark ≤ (ledger.after (ops.take j)).mark stamp.durableId := by
  induction j, later using Nat.le_induction with
  | base =>
    obtain ⟨op, at_i, out⟩ := Option.bind_eq_some_iff.mp out
    rw [after_take_succ at_i]
    exact (apply_stamp out).2.ge
  | succ j later ih =>
    have before := ih (fun k above below => kept k above (Nat.lt_succ_of_lt below))
    cases at_j : ops[j]? with
    | none =>
      rw [List.take_add_one, at_j, Option.toList_none, List.append_nil]
      exact before
    | some op =>
      rw [after_take_succ at_j]
      refine before.trans (mark_le_apply ?_)
      rintro rfl
      exact kept j later (Nat.lt_succ_self j) at_j

/-- The stamps of an id increase as long as it is not forgotten in between, so that no stamp is
handed out again. -/
theorem stamps_increase (ledger : IdentityLedger) (ops : List LedgerOp) (i j : Nat)
    (first second : SeqStamp) (later : i < j) (out_i : ledger.stampAt ops i = some first)
    (out_j : ledger.stampAt ops j = some second)
    (kept : ∀ k, i < k → k < j → ops[k]? ≠ some (.forget first.durableId)) :
    first ≠ second ∧ (first.durableId = second.durableId → first.mark < second.mark) := by
  have increase : first.durableId = second.durableId → first.mark < second.mark := by
    intro same
    obtain ⟨op, -, out⟩ := Option.bind_eq_some_iff.mp out_j
    have reached := mark_after_stamp out_i later kept
    rw [same] at reached
    exact reached.trans_lt (apply_stamp out).1
  refine ⟨?_, increase⟩
  rintro rfl
  exact (increase rfl).false

/-- A run that is taken up again, and one that starts afresh. -/
theorem stamps_increase_freshStart :
    (⟨"a", 0, 1⟩ : SeqStamp) ≠ ⟨"a", 1, 1⟩ ∧ toLex (0, 1) < (toLex (1, 1) : ℕ ×ₗ ℕ) :=
  have kept : ∀ k < 5, ([.stamp "a", .stamp "b", .reclaim "a", .forget "b", .freshStart "a",
      .stamp "a"] : List LedgerOp)[k]? ≠ some (.forget "a") := by decide
  have both := stamps_increase new _ 0 5 ⟨"a", 0, 1⟩ ⟨"a", 1, 1⟩ (by decide) (by decide) (by decide)
    (fun k _ => kept k)
  ⟨both.1, both.2 rfl⟩

/-- A durable id that is forgotten starts over, and its first stamp is handed out again. -/
theorem forget_reuses : ¬ ∀ (ops : List LedgerOp) (i j : Nat) (first second : SeqStamp), i < j →
    new.stampAt ops i = some first → new.stampAt ops j = some second →
    first ≠ second ∧ (first.durableId = second.durableId → first.mark < second.mark) :=
  fun never => (never [.stamp "a", .forget "a", .stamp "a"] 0 2 ⟨"a", 0, 1⟩ ⟨"a", 0, 1⟩ (by decide)
    (by decide) (by decide)).1 rfl

end IdentityLedger

end VsFleet
