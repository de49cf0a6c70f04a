import Mathlib.Data.List.Basic
import Mathlib.Data.List.Induction
import Mathlib.Data.Nat.Find

/-!
# The order of arrival

A history of keys that enter and leave, and the list that a table with a vector of keys keeps of it:
a key that enters is appended unless it is there, and a key that leaves is taken out. The list holds
the keys whose last entry nothing has undone, in the order of the first such entry.
-/

namespace VsFleet

/-- What a table undergoes: a key enters, a key leaves, all keys leave. -/
inductive Passage (κ : Type) where
  | enters (k : κ)
  | leaves (k : κ)
  | clears

namespace Passage

variable {κ : Type}

/-- The passage takes the key out. -/
def Undoes (k : κ) : Passage κ → Prop
  | enters _ => False
  | leaves k' => k' = k
  | clears => True

/-- The key enters here, and nothing that comes later takes it out: an entry since its last
removal. -/
def InsertedAt (history : List (Passage κ)) (k : κ) (n : Nat) : Prop :=
  history[n]? = some (enters k) ∧
    ∀ m passage, n < m → history[m]? = some passage → ¬ passage.Undoes k

/-- The first entry of the key since its last removal. -/
def ArrivedAt (history : List (Passage κ)) (k : κ) (n : Nat) : Prop :=
  InsertedAt history k n ∧ ∀ m, m < n → ¬ InsertedAt history k m

/-- The keys that are there, each once, in the order of their first entry since their last
removal. -/
structure InArrivalOrder (history : List (Passage κ)) (order : List κ) : Prop where
  nodup : order.Nodup
  mem : ∀ k, k ∈ order ↔ ∃ n, ArrivedAt history k n
  sorted : order.Pairwise
    (fun a b => ∀ m n, ArrivedAt history a m → ArrivedAt history b n → m < n)

/-- The keys in the order of a vector after a passage. -/
def attend [DecidableEq κ] (order : List κ) : Passage κ → List κ
  | enters k => if k ∈ order then order else order ++ [k]
  | leaves k => order.filter (fun k' => k' ≠ k)
  | clears => []

variable {history : List (Passage κ)} {k : κ} {n : Nat} {passage : Passage κ} {order : List κ}

theorem InsertedAt.lt (h : InsertedAt history k n) : n < history.length :=
  (List.getElem?_eq_some_iff.mp h.1).1

/-- There is a first entry where there is one at all. -/
theorem exists_arrivedAt_iff : (∃ n, ArrivedAt history k n) ↔ ∃ n, InsertedAt history k n := by
  classical
  constructor
  · rintro ⟨n, h, -⟩
    exact ⟨n, h⟩
  · intro h
    exact ⟨Nat.find h, Nat.find_spec h, fun m hm => Nat.find_min h hm⟩

theorem ArrivedAt.unique {n' : Nat} (h : ArrivedAt history k n) (h' : ArrivedAt history k n') :
    n = n' := by
  rcases Nat.lt_trichotomy n n' with before | same | after
  · exact absurd h.1 (h'.2 n before)
  · exact same
  · exact absurd h'.1 (h.2 n' after)

/-- An entry stands after one more passage where that does not undo it, and the passage may be one
itself. -/
theorem insertedAt_append : InsertedAt (history ++ [passage]) k n ↔
    (InsertedAt history k n ∧ ¬ passage.Undoes k) ∨ (n = history.length ∧ passage = enters k) := by
  constructor
  · rintro ⟨here, later⟩
    rcases Nat.lt_trichotomy n history.length with before | rfl | after
    · refine Or.inl ⟨⟨?_, fun m passage' hm there => ?_⟩, ?_⟩
      · rwa [List.getElem?_append_left before] at here
      · refine later m passage' hm ?_
        rwa [List.getElem?_append_left (List.getElem?_eq_some_iff.mp there).1]
      · exact later _ passage before (List.getElem?_concat_length ..)
    · right
      simpa using here
    · rw [List.getElem?_eq_none (by simp; omega)] at here
      cases here
  · rintro (⟨h, spared⟩ | ⟨rfl, rfl⟩)
    · refine ⟨?_, fun m passage' hm there => ?_⟩
      · rw [List.getElem?_append_left h.lt]
        exact h.1
      · rcases Nat.lt_trichotomy m history.length with before | rfl | after
        · rw [List.getElem?_append_left before] at there
          exact h.2 m passage' hm there
        · rw [List.getElem?_concat_length] at there
          cases there
          exact spared
        · rw [List.getElem?_eq_none (by simp; omega)] at there
          cases there
    · refine ⟨List.getElem?_concat_length .., fun m passage' hm there => ?_⟩
      rw [List.getElem?_eq_none (by simp; omega)] at there
      cases there

/-- A passage that takes the key out leaves no entry of it. -/
theorem not_arrivedAt_of_undone (passage : Passage κ) (undone : passage.Undoes k) :
    ¬ ArrivedAt (history ++ [passage]) k n := by
  intro h
  rcases insertedAt_append.mp h.1 with ⟨-, kept⟩ | ⟨-, rfl⟩
  · exact kept undone
  · exact undone

/-- A passage of another key leaves the arrival of a key alone. -/
theorem arrivedAt_of_other (kept : ¬ passage.Undoes k) (other : passage ≠ enters k) :
    ArrivedAt (history ++ [passage]) k n ↔ ArrivedAt history k n := by
  simp [ArrivedAt, insertedAt_append, kept, other]

/-- A key that is there arrived when it did, though it enters again. -/
theorem arrivedAt_again (there : ∃ m, ArrivedAt history k m) :
    ArrivedAt (history ++ [enters k]) k n ↔ ArrivedAt history k n := by
  obtain ⟨m, arrived⟩ := there
  have still : ArrivedAt (history ++ [enters k]) k m := by
    refine ⟨insertedAt_append.mpr (Or.inl ⟨arrived.1, id⟩), fun m' hm' entered => ?_⟩
    rcases insertedAt_append.mp entered with ⟨before, -⟩ | ⟨rfl, -⟩
    · exact arrived.2 m' hm' before
    · exact absurd arrived.1.lt (Nat.not_lt.mpr (Nat.le_of_lt hm'))
  constructor
  · intro h
    rwa [h.unique still]
  · intro h
    rwa [h.unique arrived]

/-- A key that is not there arrives when it enters. -/
theorem arrivedAt_new (absent : ¬ ∃ m, ArrivedAt history k m) :
    ArrivedAt (history ++ [enters k]) k n ↔ n = history.length := by
  rw [exists_arrivedAt_iff] at absent
  have only : ∀ m, InsertedAt (history ++ [enters k]) k m ↔ m = history.length := by
    intro m
    rw [insertedAt_append]
    constructor
    · rintro (⟨before, -⟩ | ⟨last, -⟩)
      · exact absurd ⟨m, before⟩ absent
      · exact last
    · exact fun last => Or.inr ⟨last, rfl⟩
  simp only [ArrivedAt, only]
  constructor
  · exact fun h => h.1
  · exact fun last => ⟨last, fun m hm same => absurd same (by omega)⟩

namespace InArrivalOrder

theorem nil : InArrivalOrder ([] : List (Passage κ)) [] where
  nodup := List.nodup_nil
  mem k := by
    refine iff_of_false List.not_mem_nil ?_
    rintro ⟨n, h⟩
    exact absurd h.1.lt (Nat.not_lt_zero n)
  sorted := .nil

variable [DecidableEq κ]

theorem attend_enters (h : InArrivalOrder history order) (k : κ) :
    InArrivalOrder (history ++ [enters k]) (attend order (enters k)) := by
  have others : ∀ {k' : κ}, k' ≠ k → ∀ n,
      (ArrivedAt (history ++ [enters k]) k' n ↔ ArrivedAt history k' n) := fun other n =>
    arrivedAt_of_other id (by simpa using Ne.symm other)
  by_cases there : k ∈ order
  · rw [Passage.attend, if_pos there]
    have same : ∀ k' n, ArrivedAt (history ++ [enters k]) k' n ↔ ArrivedAt history k' n := by
      intro k' n
      by_cases own : k' = k
      · rw [own]
        exact arrivedAt_again ((h.mem k).mp there)
      · exact others own n
    refine ⟨h.nodup, fun k' => ?_, ?_⟩
    · simp only [same]
      exact h.mem k'
    · simp only [same]
      exact h.sorted
  · rw [Passage.attend, if_neg there]
    have new : ∀ n, ArrivedAt (history ++ [enters k]) k n ↔ n = history.length := fun n =>
      arrivedAt_new (fun arrived => there ((h.mem k).mpr arrived))
    have apart : ∀ {k'}, k' ∈ order → k' ≠ k := by
      rintro k' old rfl
      exact there old
    refine ⟨?_, fun k' => ?_, ?_⟩
    · rw [List.nodup_append]
      refine ⟨h.nodup, List.pairwise_singleton .., ?_⟩
      intro a ha b hb
      rw [List.mem_singleton.mp hb]
      exact apart ha
    · rw [List.mem_append, List.mem_singleton]
      by_cases own : k' = k
      · rw [own]
        exact iff_of_true (Or.inr rfl) ⟨_, (new _).mpr rfl⟩
      · simp only [others own, h.mem, own, or_false]
    · rw [List.pairwise_append]
      refine ⟨?_, List.pairwise_singleton .., ?_⟩
      · refine h.sorted.imp_of_mem ?_
        intro a b ha hb lt m n hm hn
        exact lt m n ((others (apart ha) m).mp hm) ((others (apart hb) n).mp hn)
      · intro a ha b hb m n hm hn
        rw [List.mem_singleton.mp hb] at hn
        rw [(new n).mp hn]
        exact ((others (apart ha) m).mp hm).1.lt

theorem attend_leaves (h : InArrivalOrder history order) (k : κ) :
    InArrivalOrder (history ++ [leaves k]) (attend order (leaves k)) := by
  have others : ∀ {k' : κ}, k' ≠ k → ∀ n,
      (ArrivedAt (history ++ [leaves k]) k' n ↔ ArrivedAt history k' n) := fun other n =>
    arrivedAt_of_other (Ne.symm other) (by simp)
  refine ⟨h.nodup.filter _, fun k' => ?_, ?_⟩
  · simp only [attend, List.mem_filter, decide_eq_true_eq]
    by_cases own : k' = k
    · refine iff_of_false (fun there => there.2 own) ?_
      rintro ⟨n, arrived⟩
      exact not_arrivedAt_of_undone (leaves k) own.symm arrived
    · simp only [others own, h.mem, ne_eq, own, not_false_eq_true, and_true]
  · have kept : ∀ {k'}, k' ∈ attend order (leaves k) → k' ≠ k := by
      intro k' there
      simpa using (List.mem_filter.mp there).2
    refine (h.sorted.filter _).imp_of_mem ?_
    intro a b ha hb lt m n hm hn
    exact lt m n ((others (kept ha) m).mp hm) ((others (kept hb) n).mp hn)

theorem attend_clears (history : List (Passage κ)) (order : List κ) :
    InArrivalOrder (history ++ [clears]) (attend order clears) where
  nodup := List.nodup_nil
  mem k := by
    refine iff_of_false List.not_mem_nil ?_
    rintro ⟨n, arrived⟩
    exact not_arrivedAt_of_undone clears trivial arrived
  sorted := .nil

/-- One passage keeps the order. -/
theorem attend (h : InArrivalOrder history order) (passage : Passage κ) :
    InArrivalOrder (history ++ [passage]) (Passage.attend order passage) := by
  cases passage with
  | enters k => exact h.attend_enters k
  | leaves k => exact h.attend_leaves k
  | clears => exact attend_clears history order

/-- Any number of passages keep it. -/
theorem foldl_attend (h : InArrivalOrder history order) (passages : List (Passage κ)) :
    InArrivalOrder (history ++ passages) (passages.foldl Passage.attend order) := by
  induction passages using List.reverseRecOn with
  | nil => simpa using h
  | append_singleton passages passage ih =>
    rw [List.foldl_append, ← List.append_assoc]
    exact ih.attend passage

end InArrivalOrder

/-- Distinct keys that enter an empty table stand in their order. -/
theorem foldl_attend_enters [DecidableEq κ] (ks : List κ) : ∀ before : List κ,
    (before ++ ks).Nodup → (ks.map enters).foldl attend before = before ++ ks := by
  induction ks with
  | nil => simp
  | cons k ks ih =>
    intro before distinct
    have fresh : k ∉ before := by
      intro there
      rw [List.nodup_append] at distinct
      exact distinct.2.2 k there k List.mem_cons_self rfl
    rw [List.map_cons, List.foldl_cons, attend, if_neg fresh, ih _ (by simpa using distinct)]
    simp

end Passage

end VsFleet
