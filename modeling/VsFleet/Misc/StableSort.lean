import Mathlib.Data.Fin.Tuple.Sort
import Mathlib.Data.List.OfFn

/-!
# The order a stable sort leaves

A merge sort by keys lists the elements in the order of the one permutation of the places under
which the keys are sorted and equal keys keep their places. Keys that compare alike are sorted
alike.
-/

namespace VsFleet

open List Tuple

section StableSort

variable {α κ κ' : Type} [LinearOrder κ] [LinearOrder κ']

/-- The places of a list in the order of a stable sort, the larger key first. -/
def stableOrder (key : α → κ) (l : List α) : Equiv.Perm (Fin l.length) :=
  sort (fun i => OrderDual.toDual (key (l.get i)))

/-- The larger key first, and equal keys in the order of their places. -/
structure StableOrder (key : α → κ) (l : List α) (order : Equiv.Perm (Fin l.length)) : Prop where
  sorted : ∀ i j, i < j → key (l.get (order j)) ≤ key (l.get (order i))
  stable : ∀ i j, i < j → key (l.get (order i)) = key (l.get (order j)) → order i < order j

variable {key : α → κ} {key' : α → κ'} {l : List α} {order : Equiv.Perm (Fin l.length)}

theorem stableOrder_unique : StableOrder key l order ↔ order = stableOrder key l := by
  rw [stableOrder, eq_sort_iff]
  constructor
  · refine fun h => ⟨fun i j le => ?_, h.stable⟩
    rcases eq_or_lt_of_le le with rfl | lt
    · exact le_refl _
    · exact h.sorted i j lt
  · exact fun h => ⟨fun i j lt => h.1 (le_of_lt lt), h.2⟩

theorem stableOrder_stableOrder : StableOrder key l (stableOrder key l) :=
  stableOrder_unique.mpr rfl

/-- What compares the elements alike leaves their places in one order. -/
theorem StableOrder.congr (alike : ∀ a ∈ l, ∀ b ∈ l, key a ≤ key b ↔ key' a ≤ key' b)
    (h : StableOrder key l order) : StableOrder key' l order := by
  have mem : ∀ i, l.get i ∈ l := List.get_mem l
  refine ⟨fun i j lt => (alike _ (mem _) _ (mem _)).mp (h.sorted i j lt), fun i j lt same => ?_⟩
  refine h.stable i j lt (le_antisymm ?_ (h.sorted i j lt))
  exact (alike _ (mem _) _ (mem _)).mpr (le_of_eq same)

/-- Elements with their places compare by key, and by place where the keys are equal. -/
theorem zipIdxLE_iff {le : α → α → Bool} (by_key : ∀ a b, le a b = true ↔ key b ≤ key a)
    (a b : α × Nat) : zipIdxLE le a b = true ↔
      key b.1 ≤ key a.1 ∧ (key a.1 = key b.1 → a.2 ≤ b.2) := by
  unfold zipIdxLE
  by_cases ab : key b.1 ≤ key a.1
  · by_cases ba : key a.1 ≤ key b.1
    · simp [by_key, le_antisymm ba ab]
    · have ne : key a.1 ≠ key b.1 := fun same => ba (le_of_eq same)
      simp [by_key, ab, ba, ne]
  · simp [by_key, ab]

theorem zipIdx_eq_ofFn (l : List α) : l.zipIdx = ofFn (fun i => (l.get i, i.val)) := by
  refine List.ext_getElem (by simp) (fun k hk hk' => ?_)
  simp

/-- A merge sort lists the elements in their stable order. -/
theorem mergeSort_eq_ofFn {le : α → α → Bool} (by_key : ∀ a b, le a b = true ↔ key b ≤ key a)
    (l : List α) : l.mergeSort le = ofFn (l.get ∘ stableOrder key l) := by
  have trans : ∀ a b c, le a b → le b c → le a c := by
    simp only [by_key]
    exact fun a b c ba cb => le_trans cb ba
  have total : ∀ a b, le a b || le b a := by
    simp only [Bool.or_eq_true, by_key]
    exact fun a b => le_total (key b) (key a)
  -- with its place at its side, no two elements compare alike
  have placed : l.zipIdx.mergeSort (zipIdxLE le) =
      ofFn ((fun i => (l.get i, i.val)) ∘ stableOrder key l) := by
    refine @Perm.eq_of_pairwise _ (fun a b => zipIdxLE le a b) _ _ ?_
      (pairwise_mergeSort (zipIdxLE_trans trans) (zipIdxLE_total total) _) ?_ ?_
    · intro a b ha hb ab ba
      rw [zipIdxLE_iff by_key] at ab ba
      have same : key a.1 = key b.1 := le_antisymm ba.1 ab.1
      have place : a.2 = b.2 := Nat.le_antisymm (ab.2 same) (ba.2 same.symm)
      obtain ⟨i, rfl⟩ := mem_ofFn.mp hb
      have here := mem_zipIdx_iff_getElem?.mp (mem_mergeSort.mp ha)
      rw [place] at here
      exact Prod.ext (by simpa using here.symm) place
    · refine pairwise_ofFn.mpr (fun i j lt => (zipIdxLE_iff by_key _ _).mpr ⟨?_, fun same => ?_⟩)
      · exact stableOrder_stableOrder.sorted i j lt
      · exact le_of_lt (stableOrder_stableOrder.stable i j lt same)
    · rw [zipIdx_eq_ofFn]
      exact (mergeSort_perm _ _).trans (Equiv.Perm.ofFn_comp_perm _ _).symm
  rw [← mergeSort_zipIdx, placed, map_ofFn]
  rfl

/-- A merge sort keeps what holds of a pair in its order only where the keys are equal. -/
theorem mergeSort_pairwise {le : α → α → Bool} (by_key : ∀ a b, le a b = true ↔ key b ≤ key a)
    {R : α → α → Prop} (placed : l.Pairwise R) :
    (l.mergeSort le).Pairwise (fun a b => key b < key a ∨ key a = key b ∧ R a b) := by
  rw [mergeSort_eq_ofFn by_key, pairwise_ofFn]
  intro i j lt
  have ordered : StableOrder key l (stableOrder key l) := stableOrder_stableOrder
  rcases lt_or_eq_of_le (ordered.sorted i j lt) with less | same
  · exact Or.inl less
  · exact Or.inr ⟨same.symm, List.pairwise_iff_get.mp placed _ _
      (ordered.stable i j lt same.symm)⟩

end StableSort

end VsFleet
