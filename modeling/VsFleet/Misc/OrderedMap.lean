import Mathlib.Data.List.AList

/-!
# Insertion-ordered keyed collections

A hash map from a key to a value that stores its own key, kept beside a vector of the keys in
the order of their insertion: the two are read together as the list of the values in that
order. `KeyedList` is that list on its own, with the three updates such a pair supports
(replace in place or append, change in place, drop a key); `Indexed` says when a map and a
vector belong together; the `values_` lemmas carry each update of the pair to the one of the
list.
-/

namespace VsFleet

/-- A finite map with values of one type. Lookups do not depend on the order of the entries. -/
abbrev HashMap (κ ν : Type) [DecidableEq κ] := AList (fun _ : κ => ν)

/-- An iteration order of an unordered collection: which permutation a walk over it takes. -/
structure IterOrder (α : Type) where
  perm : List α → List α
  isPerm : ∀ l, (perm l).Perm l

/-- The walk in the order of the representation. -/
def IterOrder.asStored (α : Type) : IterOrder α := ⟨id, List.Perm.refl⟩

namespace KeyedList

variable {κ ν : Type} [DecidableEq κ] (key : ν → κ)

/-- The first value stored under `k`. -/
def get? (l : List ν) (k : κ) : Option ν := l.find? (fun v => key v = k)

/-- Put `v` in the place of the value of its key, or at the end where there is none. -/
def upsert (l : List ν) (v : ν) : List ν :=
  if key v ∈ l.map key then l.map (fun w => if key w = key v then v else w) else l ++ [v]

/-- Change the value of key `k` in place. -/
def modify (l : List ν) (k : κ) (f : ν → ν) : List ν :=
  l.map (fun w => if key w = k then f w else w)

/-- Drop the value of key `k`. -/
def erase (l : List ν) (k : κ) : List ν := l.filter (fun v => key v ≠ k)

variable {key} {l : List ν} {k : κ} {v : ν}

theorem get?_eq_some_of_mem (distinct : (l.map key).Nodup) (hv : v ∈ l) (hk : key v = k) :
    get? key l k = some v := by
  induction l with
  | nil => simp at hv
  | cons w l ih =>
    have hd := List.nodup_cons.mp distinct
    simp only [get?, List.find?_cons]
    rcases List.mem_cons.mp hv with rfl | hv
    · simp [hk]
    · have different : key w ≠ k := by
        rintro rfl
        exact hd.1 (hk ▸ List.mem_map_of_mem hv)
      simpa [different, get?] using ih hd.2 hv

/-- With distinct keys a key stands for the one value that has it. -/
theorem get?_eq_some_iff (distinct : (l.map key).Nodup) :
    get? key l k = some v ↔ v ∈ l ∧ key v = k := by
  constructor
  · intro h
    exact ⟨List.mem_of_find?_eq_some h, by simpa using List.find?_some h⟩
  · rintro ⟨hv, hk⟩
    exact get?_eq_some_of_mem distinct hv hk

/-- A key stands for none if no value has it. -/
theorem get?_eq_none_iff : get? key l k = none ↔ k ∉ l.map key := by
  simp [get?, List.find?_eq_none]

@[simp] theorem modify_map_key {f : ν → ν} (hf : ∀ w, key (f w) = key w) :
    (modify key l k f).map key = l.map key := by
  simp only [modify, List.map_map]
  apply List.map_congr_left
  intro w _
  simp only [Function.comp_apply]
  split <;> simp [hf]

/-- Two changes at one key are one. -/
theorem modify_modify {f g : ν → ν} (hf : ∀ w, key (f w) = key w) :
    modify key (modify key l k f) k g = modify key l k (fun w => g (f w)) := by
  simp only [modify, List.map_map]
  apply List.map_congr_left
  intro w _
  by_cases hk : key w = k <;> simp [hk, hf]

/-- Changes that agree at the key are the same. -/
theorem modify_congr {f g : ν → ν} (h : ∀ w ∈ l, key w = k → f w = g w) :
    modify key l k f = modify key l k g := by
  apply List.map_congr_left
  intro w hw
  split
  · exact h w hw ‹_›
  · rfl

/-- A value whose key is there takes the place of the old one. -/
theorem upsert_of_mem (h : key v ∈ l.map key) :
    upsert key l v = modify key l (key v) (fun _ => v) := if_pos h

/-- A value whose key is new comes last. -/
theorem upsert_of_notMem (h : key v ∉ l.map key) : upsert key l v = l ++ [v] := if_neg h

theorem upsert_map_key :
    (upsert key l v).map key =
      if key v ∈ l.map key then l.map key else l.map key ++ [key v] := by
  unfold upsert
  split
  · rw [List.map_map]
    apply List.map_congr_left
    intro w _
    simp only [Function.comp_apply]
    split <;> simp_all
  · simp

/-- An upsert keeps the keys distinct. -/
theorem upsert_nodup (distinct : (l.map key).Nodup) : ((upsert key l v).map key).Nodup := by
  rw [upsert_map_key]
  split
  · exact distinct
  · rename_i h
    rw [List.nodup_append]
    exact ⟨distinct, by simp, by intro a ha b hb; simp at hb; rintro rfl; exact h (hb ▸ ha)⟩

theorem mem_upsert {w : ν} :
    w ∈ upsert key l v ↔ w = v ∨ (w ∈ l ∧ key w ≠ key v) := by
  unfold upsert
  split
  · rename_i h
    obtain ⟨u, hu, hk⟩ := List.mem_map.mp h
    simp only [List.mem_map]
    constructor
    · rintro ⟨x, hx, rfl⟩
      split
      · exact Or.inl rfl
      · exact Or.inr ⟨hx, ‹_›⟩
    · rintro (rfl | ⟨hw, hne⟩)
      · exact ⟨u, hu, by simp [hk]⟩
      · exact ⟨w, hw, by simp [hne]⟩
  · rename_i h
    simp only [List.mem_append, List.mem_singleton]
    constructor
    · rintro (hw | rfl)
      · exact Or.inr ⟨hw, fun hk => h (hk ▸ List.mem_map_of_mem hw)⟩
      · exact Or.inl rfl
    · rintro (rfl | ⟨hw, -⟩)
      · exact Or.inr rfl
      · exact Or.inl hw

/-- An upsert is found under its key, and the others are as before. -/
theorem get?_upsert (distinct : (l.map key).Nodup) :
    get? key (upsert key l v) k = if key v = k then some v else get? key l k := by
  have distinct' := upsert_nodup (v := v) distinct
  split
  · rename_i hk
    exact get?_eq_some_of_mem distinct' (mem_upsert.mpr (Or.inl rfl)) hk
  · rename_i hk
    apply Option.ext
    intro w
    simp only [get?_eq_some_iff distinct', get?_eq_some_iff distinct, mem_upsert]
    constructor
    · rintro ⟨rfl | hw, rfl⟩
      · exact absurd rfl hk
      · exact ⟨hw.1, rfl⟩
    · rintro ⟨hw, rfl⟩
      exact ⟨Or.inr ⟨hw, Ne.symm hk⟩, rfl⟩

/-- An erase keeps the keys distinct. -/
theorem erase_nodup (distinct : (l.map key).Nodup) : ((erase key l k).map key).Nodup :=
  distinct.sublist (List.filter_sublist.map key)

theorem mem_erase {w : ν} : w ∈ erase key l k ↔ w ∈ l ∧ key w ≠ k := by simp [erase]

/-- What is erased is not found, and the others are as before. -/
theorem get?_erase (k' : κ) :
    get? key (erase key l k) k' = if k' = k then none else get? key l k' := by
  rw [get?, erase, List.find?_filter, get?]
  split
  · rename_i own
    rw [List.find?_eq_none]
    intro v _
    simp [own]
  · rename_i other
    congr 1
    funext v
    by_cases hk : key v = k' <;> simp [hk, other]

/-- With distinct keys a value is the only one with its key. -/
theorem filter_key_eq (distinct : (l.map key).Nodup) (hv : v ∈ l) :
    l.filter (fun w => key w = key v) = [v] := by
  induction l with
  | nil => simp at hv
  | cons w l ih =>
    have hd := List.nodup_cons.mp distinct
    rcases List.mem_cons.mp hv with rfl | hv
    · have none : l.filter (fun w => decide (key w = key v)) = [] := by
        rw [List.filter_eq_nil_iff]
        intro u hu same
        exact hd.1 (of_decide_eq_true same ▸ List.mem_map_of_mem hu)
      simp [none]
    · have different : key w ≠ key v := by
        intro same
        exact hd.1 (same ▸ List.mem_map_of_mem hv)
      simp [different, ih hd.2 hv]

/-- A change at a key is found there, and the others are as before. -/
theorem get?_modify {f : ν → ν} (hf : ∀ w, key (f w) = key w) (k' : κ) :
    get? key (modify key l k f) k' =
      (get? key l k').map (fun w => if key w = k then f w else w) := by
  have same : (fun v => decide (key v = k')) ∘ (fun w => if key w = k then f w else w) =
      fun v => decide (key v = k') := by
    funext w
    simp only [Function.comp_apply]
    split <;> simp [hf]
  rw [get?, modify, List.find?_map, same, get?]

/-- A value in the middle of a list is replaced where it stands. -/
theorem upsert_middle {before after : List ν} {v w : ν} (same : key v = key w)
    (distinct : ((before ++ w :: after).map key).Nodup) :
    upsert key (before ++ w :: after) v = before ++ v :: after := by
  rw [upsert_of_mem (by simp [same]), modify, List.map_append, List.map_cons, if_pos same.symm]
  rw [List.map_append, List.nodup_append, List.map_cons, List.nodup_cons] at distinct
  congr 1
  · calc before.map (fun u => if key u = key v then v else u) = before.map id := by
          apply List.map_congr_left
          intro u hu
          have other : key u ≠ key v := by
            intro huv
            exact distinct.2.2 _ (List.mem_map_of_mem hu) _ (by simp) (huv.trans same)
          rw [if_neg other, id]
      _ = before := List.map_id _
  · congr 1
    calc after.map (fun u => if key u = key v then v else u) = after.map id := by
          apply List.map_congr_left
          intro u hu
          have other : key u ≠ key v := by
            intro huv
            exact distinct.2.1.1 (huv.trans same ▸ List.mem_map_of_mem hu)
          rw [if_neg other, id]
      _ = after := List.map_id _

/-- Putting distinct keys in one by one appends them. -/
theorem foldl_upsert (l : List ν) : ∀ before : List ν, ((before ++ l).map key).Nodup →
    l.foldl (upsert key) before = before ++ l := by
  induction l with
  | nil => simp
  | cons v l ih =>
    intro before distinct
    have fresh : key v ∉ before.map key := by
      intro hv
      rw [List.map_append, List.nodup_append] at distinct
      exact distinct.2.2 _ hv _ (by simp) rfl
    rw [List.foldl_cons, upsert_of_notMem fresh, ih _ (by simpa using distinct)]
    simp

/-- Some of the edited values, put back one by one: after `n` values of the list it holds the
first `n` edited and the others not yet. -/
theorem foldl_upsert_edited {g : ν → ν} (hg : ∀ v, key (g v) = key v) {moved : ν → Bool}
    (rest todo : List ν) : ∀ before : List ν, ((before ++ (todo ++ rest)).map key).Nodup →
    (∀ v ∈ todo, moved v = false → g v = v) →
    ((todo.filter moved).map g).foldl (upsert key) (before ++ (todo ++ rest)) =
      before ++ (todo.map g ++ rest) := by
  induction todo with
  | nil => exact fun _ _ _ => rfl
  | cons v todo ih =>
    intro before distinct still
    have distinct' : (((before ++ [g v]) ++ (todo ++ rest)).map key).Nodup := by
      simpa [hg] using distinct
    have later := ih (before ++ [g v]) distinct' (fun w hw => still w (List.mem_cons_of_mem v hw))
    rw [List.append_assoc, List.append_assoc, List.singleton_append, List.singleton_append] at later
    cases hv : moved v with
    | false =>
      rw [List.filter_cons_of_neg (by simp [hv]), List.map_cons]
      rw [still v (by simp) hv] at later ⊢
      exact later
    | true =>
      rw [List.filter_cons_of_pos hv, List.map_cons, List.foldl_cons, List.map_cons]
      have put : upsert key (before ++ (v :: todo ++ rest)) (g v) =
          before ++ g v :: (todo ++ rest) := upsert_middle (hg v) distinct
      rw [put]
      exact later

end KeyedList

namespace HashMap

variable {κ ν : Type} [DecidableEq κ]

/-- Change the value of `k` in place (a write through `get_mut`); nothing where `k` is absent. -/
def modify (m : HashMap κ ν) (k : κ) (f : ν → ν) : HashMap κ ν :=
  match m.lookup k with
  | none => m
  | some v => m.insert k (f v)

variable {m : HashMap κ ν} {k k' : κ} {f : ν → ν}

/-- A change at a key, read back. -/
theorem lookup_modify :
    (modify m k f).lookup k' = if k' = k then (m.lookup k').map f else m.lookup k' := by
  unfold modify
  split
  · rename_i absent
    split
    · rename_i h
      subst h
      simp [absent]
    · rfl
  · rename_i v found
    split
    · rename_i h
      subst h
      simp [found]
    · rename_i h
      exact AList.lookup_insert_ne h

end HashMap

namespace OrderedMap

variable {κ ν : Type} [DecidableEq κ]

/-- The values of a map in the order of a vector of keys. -/
def values (m : HashMap κ ν) (order : List κ) : List ν := order.filterMap (fun k => m.lookup k)

/-- The values of a map in the order of its representation. -/
def unordered (m : HashMap κ ν) : List ν := m.entries.map Sigma.snd

/-- The vector lists exactly the keys of the map, each once, and every value sits under its
own key. -/
structure Indexed (key : ν → κ) (m : HashMap κ ν) (order : List κ) : Prop where
  nodup : order.Nodup
  mem : ∀ k, k ∈ order ↔ k ∈ m
  keyed : ∀ k v, m.lookup k = some v → key v = k

variable {key : ν → κ} {m : HashMap κ ν} {order : List κ}

/-- The empty map with no order. -/
theorem Indexed.empty : Indexed key (∅ : HashMap κ ν) [] :=
  ⟨List.nodup_nil, by simp, by simp⟩

/-- Only the lookups of a map matter. -/
theorem Indexed.congr (h : Indexed key m order) {m' : HashMap κ ν}
    (same : ∀ k, m'.lookup k = m.lookup k) : Indexed key m' order where
  nodup := h.nodup
  mem k := by rw [h.mem, ← AList.lookup_isSome, ← AList.lookup_isSome, same]
  keyed k v := by rw [same]; exact h.keyed k v

/-- The values are those of the lookups. -/
theorem values_congr {m' : HashMap κ ν} (same : ∀ k, m'.lookup k = m.lookup k) :
    values m' order = values m order := by
  rw [values, values, funext same]

/-- A key of the order has its value in the map. -/
theorem Indexed.lookup_of_mem (h : Indexed key m order) {k : κ} (hk : k ∈ order) :
    ∃ v, m.lookup k = some v ∧ key v = k := by
  obtain ⟨v, hv⟩ := Option.isSome_iff_exists.mp (AList.lookup_isSome.mpr ((h.mem k).mp hk))
  exact ⟨v, hv, h.keyed k v hv⟩

/-- The values have the keys of the order, in that order. -/
theorem Indexed.values_map_key (h : Indexed key m order) : (values m order).map key = order := by
  have hmem : ∀ k ∈ order, ∃ v, m.lookup k = some v ∧ key v = k := fun k => h.lookup_of_mem
  clear h
  induction order with
  | nil => rfl
  | cons k order ih =>
    obtain ⟨v, hv, hk⟩ := hmem k (by simp)
    simp only [values, List.filterMap_cons, hv, List.map_cons, hk, List.cons.injEq, true_and]
    exact ih (fun k' hk' => hmem k' (List.mem_cons_of_mem _ hk'))

theorem Indexed.values_nodup (h : Indexed key m order) : ((values m order).map key).Nodup := by
  rw [h.values_map_key]
  exact h.nodup

/-- A value is listed if the map has it under its key. -/
theorem Indexed.mem_values (h : Indexed key m order) {v : ν} :
    v ∈ values m order ↔ m.lookup (key v) = some v := by
  simp only [values, List.mem_filterMap]
  constructor
  · rintro ⟨k, -, hk⟩
    rw [h.keyed k v hk]
    exact hk
  · intro hv
    exact ⟨key v, (h.mem _).mpr (AList.lookup_isSome.mp (by simp [hv])), hv⟩

/-- The list and the map have the same value under a key. -/
theorem Indexed.get?_values (h : Indexed key m order) (k : κ) :
    KeyedList.get? key (values m order) k = m.lookup k := by
  apply Option.ext
  intro v
  rw [KeyedList.get?_eq_some_iff h.values_nodup, h.mem_values]
  constructor
  · rintro ⟨hv, rfl⟩
    exact hv
  · intro hv
    obtain rfl := h.keyed k v hv
    exact ⟨hv, rfl⟩

theorem Indexed.mem_iff (h : Indexed key m order) {k : κ} :
    k ∈ m ↔ k ∈ (values m order).map key := by
  rw [h.values_map_key, h.mem]

/-- A test for some value does not depend on the order. -/
theorem Indexed.values_any (h : Indexed key m order) (p : ν → Bool) :
    (unordered m).any p = (values m order).any p := by
  rw [Bool.eq_iff_iff]
  simp only [List.any_eq_true, unordered, List.mem_map]
  constructor
  · rintro ⟨v, ⟨e, he, rfl⟩, hp⟩
    have found : m.lookup e.1 = some e.2 := AList.mem_lookup_iff.mpr he
    exact ⟨e.2, h.mem_values.mpr (by rw [h.keyed _ _ found]; exact found), hp⟩
  · rintro ⟨v, hv, hp⟩
    exact ⟨v, ⟨⟨key v, v⟩, AList.mem_lookup_iff.mp (h.mem_values.mp hv), rfl⟩, hp⟩

/-- Storing a value whose key the map holds leaves the order as it is. -/
theorem Indexed.insert_mem (h : Indexed key m order) {v : ν} (hv : key v ∈ m) :
    Indexed key (m.insert (key v) v) order := by
  refine ⟨h.nodup, ?_, ?_⟩
  · intro k
    rw [h.mem, AList.mem_insert]
    constructor
    · exact Or.inr
    · rintro (rfl | hk)
      · exact hv
      · exact hk
  · intro k w hw
    by_cases hk : k = key v
    · subst hk
      simp only [AList.lookup_insert, Option.some.injEq] at hw
      rw [hw]
    · rw [AList.lookup_insert_ne hk] at hw
      exact h.keyed k w hw

/-- A new key comes last in the order. -/
theorem Indexed.insert_new (h : Indexed key m order) {v : ν} (hv : key v ∉ m) :
    Indexed key (m.insert (key v) v) (order ++ [key v]) := by
  refine ⟨?_, ?_, ?_⟩
  · rw [List.nodup_append]
    refine ⟨h.nodup, by simp, ?_⟩
    intro a ha b hb hab
    simp only [List.mem_singleton] at hb
    exact hv ((h.mem _).mp (hb ▸ hab ▸ ha))
  · intro k
    simp only [List.mem_append, List.mem_singleton, AList.mem_insert, h.mem]
    exact or_comm
  · intro k w hw
    by_cases hk : k = key v
    · subst hk
      simp only [AList.lookup_insert, Option.some.injEq] at hw
      rw [hw]
    · rw [AList.lookup_insert_ne hk] at hw
      exact h.keyed k w hw

/-- A key goes from both. -/
theorem Indexed.erase (h : Indexed key m order) (k : κ) :
    Indexed key (m.erase k) (order.filter (fun k' => k' ≠ k)) := by
  refine ⟨h.nodup.filter _, ?_, ?_⟩
  · intro k'
    simp only [List.mem_filter, AList.mem_erase, h.mem, decide_eq_true_eq]
    exact and_comm
  · intro k' w hw
    by_cases hk : k' = k
    · subst hk
      simp at hw
    · rw [AList.lookup_erase_ne hk] at hw
      exact h.keyed k' w hw

/-- An insert under a key that is there is an upsert of the list. -/
theorem Indexed.values_insert_mem (h : Indexed key m order) {v : ν} (hv : key v ∈ m) :
    values (m.insert (key v) v) order = KeyedList.upsert key (values m order) v := by
  rw [KeyedList.upsert, if_pos (h.mem_iff.mp hv)]
  simp only [values, List.map_filterMap]
  apply List.filterMap_congr
  intro k hk
  obtain ⟨w, hw, hwk⟩ := h.lookup_of_mem hk
  by_cases hkv : k = key v
  · subst hkv
    simp [hw, hwk]
  · rw [AList.lookup_insert_ne hkv]
    simp [hw, hwk, hkv]

/-- So is one under a new key. -/
theorem Indexed.values_insert_new (h : Indexed key m order) {v : ν} (hv : key v ∉ m) :
    values (m.insert (key v) v) (order ++ [key v]) = KeyedList.upsert key (values m order) v := by
  rw [KeyedList.upsert, if_neg (fun hk => hv (h.mem_iff.mpr hk))]
  simp only [values, List.filterMap_append, List.filterMap_cons, AList.lookup_insert,
    List.filterMap_nil]
  congr 1
  apply List.filterMap_congr
  intro k hk
  apply AList.lookup_insert_ne
  rintro rfl
  exact hv ((h.mem _).mp hk)

/-- An erase is one of the list. -/
theorem Indexed.values_erase (h : Indexed key m order) (k : κ) :
    values (m.erase k) (order.filter (fun k' => k' ≠ k)) =
      KeyedList.erase key (values m order) k := by
  have hmem : ∀ k' ∈ order, ∃ v, m.lookup k' = some v ∧ key v = k' := fun k' => h.lookup_of_mem
  clear h
  induction order with
  | nil => rfl
  | cons k' order ih =>
    obtain ⟨v, hv, hk'⟩ := hmem k' (by simp)
    have rest := ih (fun x hx => hmem x (List.mem_cons_of_mem _ hx))
    by_cases hk : k' = k
    · subst hk
      simpa [values, KeyedList.erase, hv, hk'] using rest
    · have kept : (m.erase k).lookup k' = some v := by rw [AList.lookup_erase_ne hk, hv]
      simpa [values, KeyedList.erase, hv, hk', hk, kept] using rest

/-- Changing values in place, whatever the way it is done, is read off the lookups alone. -/
theorem Indexed.revise (h : Indexed key m order) {m' : HashMap κ ν} {g : κ → ν → ν}
    (hg : ∀ k v, key (g k v) = key v) (hlookup : ∀ k, m'.lookup k = (m.lookup k).map (g k)) :
    Indexed key m' order ∧ values m' order = (values m order).map (fun v => g (key v) v) := by
  refine ⟨⟨h.nodup, ?_, ?_⟩, ?_⟩
  · intro k
    rw [h.mem, ← AList.lookup_isSome, ← AList.lookup_isSome, hlookup, Option.isSome_map]
  · intro k v hv
    rw [hlookup] at hv
    obtain ⟨w, hw, rfl⟩ := Option.map_eq_some_iff.mp hv
    rw [hg, h.keyed k w hw]
  · simp only [values, List.map_filterMap]
    apply List.filterMap_congr
    intro k hk
    obtain ⟨w, hw, hwk⟩ := h.lookup_of_mem hk
    rw [hlookup, hw]
    simp [hwk]

/-- A map with the lookups of a list has the values of the list, in some order. -/
theorem unordered_perm {l : List ν} (distinct : (l.map key).Nodup)
    (lookups : ∀ k, m.lookup k = KeyedList.get? key l k) : (unordered m).Perm l := by
  have keyed : ∀ e ∈ m.entries, key e.2 = e.1 := by
    intro e he
    have found : m.lookup e.1 = some e.2 := AList.mem_lookup_iff.mpr he
    rw [lookups] at found
    exact ((KeyedList.get?_eq_some_iff distinct).mp found).2
  rw [List.perm_ext_iff_of_nodup]
  · intro v
    have here : v ∈ l ↔ m.lookup (key v) = some v := by
      rw [lookups, KeyedList.get?_eq_some_iff distinct, and_iff_left rfl]
    rw [here, unordered, List.mem_map]
    constructor
    · rintro ⟨e, he, rfl⟩
      rw [keyed e he]
      exact AList.mem_lookup_iff.mpr he
    · intro found
      exact ⟨⟨key v, v⟩, AList.mem_lookup_iff.mp found, rfl⟩
  · have keys : ((unordered m).map key) = m.keys := by
      rw [unordered, List.map_map]
      exact List.map_congr_left keyed
    apply List.Nodup.of_map key
    rw [keys]
    exact m.keys_nodup
  · exact distinct.of_map key

end OrderedMap

end VsFleet
