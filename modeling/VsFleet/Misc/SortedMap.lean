import Mathlib.Order.Lattice

/-!
# Maps in key order

A map kept as the list of its entries in increasing key order. An entry is put in its place or
over the one of its key, so a map built from any list of entries holds the last entry of each
key, and a list that is in key order already is the map of itself.
-/

namespace VsFleet

namespace SortedMap

variable {κ ν : Type} [LinearOrder κ]

/-- The first value under a key. -/
def get? (entries : List (κ × ν)) (k : κ) : Option ν :=
  (entries.find? (fun e => e.1 = k)).map (fun e => e.2)

/-- Put a value in the place of its key. -/
def insert (k : κ) (v : ν) : List (κ × ν) → List (κ × ν)
  | [] => [(k, v)]
  | e :: m =>
    if k < e.1 then (k, v) :: e :: m
    else if k = e.1 then (k, v) :: m
    else e :: insert k v m

/-- The map of the entries, put in one by one. -/
def ofList (entries : List (κ × ν)) : List (κ × ν) :=
  entries.foldl (fun m e => insert e.1 e.2 m) []

/-- The keys increase. -/
def Sorted (m : List (κ × ν)) : Prop := m.Pairwise (fun a b => a.1 < b.1)

variable {m entries : List (κ × ν)} {e : κ × ν} {k k' : κ} {v : ν}

@[simp] theorem get?_nil : get? ([] : List (κ × ν)) k = none := rfl

theorem get?_cons : get? (e :: m) k = if e.1 = k then some e.2 else get? m k := by
  unfold get?
  rw [List.find?_cons]
  by_cases own : e.1 = k <;> simp [own]

theorem get?_append (l l' : List (κ × ν)) : get? (l ++ l') k = (get? l k).or (get? l' k) := by
  induction l with
  | nil => rfl
  | cons e l ih =>
    rw [List.cons_append, get?_cons, get?_cons, ih]
    split <;> rfl

theorem get?_eq_none (absent : ∀ e ∈ m, e.1 ≠ k) : get? m k = none := by
  rw [get?, List.find?_eq_none.mpr (by simpa using absent)]
  rfl

theorem get?_map {ν' : Type} (f : ν → ν') :
    get? (m.map (fun e => (e.1, f e.2))) k = (get? m k).map f := by
  induction m with
  | nil => rfl
  | cons e m ih =>
    rw [List.map_cons, get?_cons, get?_cons, ih]
    split <;> rfl

theorem get?_filter {p : κ → Bool} (kept : p k = true) :
    get? (m.filter (fun e => p e.1)) k = get? m k := by
  induction m with
  | nil => rfl
  | cons e m ih =>
    by_cases own : e.1 = k
    · rw [List.filter_cons_of_pos (by rw [own, kept]), get?_cons, get?_cons, if_pos own, if_pos own]
    · rw [get?_cons, if_neg own, ← ih, List.filter_cons]
      split
      · rw [get?_cons, if_neg own]
      · rfl

/-- Where every key is there once the last value under a key is the first. -/
theorem get?_reverse (distinct : (m.map Prod.fst).Nodup) : get? m.reverse k = get? m k := by
  induction m with
  | nil => rfl
  | cons e m ih =>
    obtain ⟨fresh, distinct⟩ := List.nodup_cons.mp distinct
    rw [List.reverse_cons, get?_append, ih distinct, get?_cons, get?_cons]
    split
    · rename_i own
      have none : get? m k = none := by
        apply get?_eq_none
        intro f hf same
        exact fresh (own ▸ same ▸ List.mem_map_of_mem hf)
      rw [none]
      rfl
    · rw [get?_nil, Option.or_none]

theorem get?_insert : get? (insert k v m) k' = if k = k' then some v else get? m k' := by
  induction m with
  | nil => exact get?_cons
  | cons e m ih =>
    unfold insert
    split
    · exact get?_cons
    · split
      · rename_i own
        rw [get?_cons, get?_cons, own]
        split <;> rfl
      · rename_i other
        rw [get?_cons, get?_cons, ih]
        by_cases here : e.1 = k'
        · rw [if_pos here, if_pos here, if_neg (by rw [← here]; exact other)]
        · rw [if_neg here, if_neg here]

theorem get?_foldl_insert : get? (entries.foldl (fun m e => insert e.1 e.2 m) m) k =
    (get? entries.reverse k).or (get? m k) := by
  induction entries generalizing m with
  | nil => rfl
  | cons e entries ih =>
    rw [List.foldl_cons, ih, List.reverse_cons, get?_append, get?_insert, get?_cons]
    cases get? entries.reverse k with
    | some v => rfl
    | none =>
      rw [Option.none_or, Option.none_or]
      split <;> rfl

/-- A map holds the last value of each key. -/
theorem get?_ofList : get? (ofList entries) k = get? entries.reverse k := by
  rw [ofList, get?_foldl_insert, get?_nil, Option.or_none]

theorem mem_insert (h : e ∈ insert k v m) : e = (k, v) ∨ e ∈ m := by
  induction m with
  | nil => exact Or.inl (List.mem_singleton.mp h)
  | cons f m ih =>
    unfold insert at h
    split at h
    · exact List.mem_cons.mp h
    · split at h
      · exact (List.mem_cons.mp h).imp id (List.mem_cons_of_mem f)
      · rcases List.mem_cons.mp h with rfl | old
        · exact Or.inr (by simp)
        · exact (ih old).imp id (List.mem_cons_of_mem f)

theorem mem_of_mem_ofList (h : e ∈ ofList entries) : e ∈ entries := by
  have go : ∀ m : List (κ × ν), e ∈ entries.foldl (fun m e => insert e.1 e.2 m) m →
      e ∈ entries ∨ e ∈ m := by
    clear h
    induction entries with
    | nil => exact fun m h => Or.inr h
    | cons f entries ih =>
      intro m h
      rcases ih _ h with later | here
      · exact Or.inl (List.mem_cons_of_mem f later)
      · exact (mem_insert here).imp (fun own => by rw [own]; exact List.mem_cons_self) id
  exact (go [] h).resolve_right (by simp)

theorem Sorted.insert (h : Sorted m) : Sorted (insert k v m) := by
  induction m with
  | nil => exact List.pairwise_singleton _ _
  | cons e m ih =>
    obtain ⟨below, rest⟩ := List.pairwise_cons.mp h
    unfold SortedMap.insert
    split
    · rename_i first
      refine List.pairwise_cons.mpr ⟨?_, h⟩
      intro f hf
      rcases List.mem_cons.mp hf with rfl | hf
      · exact first
      · exact first.trans (below f hf)
    · split
      · rename_i own
        exact List.pairwise_cons.mpr ⟨by rw [own]; exact below, rest⟩
      · rename_i before other
        refine List.pairwise_cons.mpr ⟨?_, ih rest⟩
        intro f hf
        rcases mem_insert hf with own | old
        · rw [own]
          exact lt_of_le_of_ne (not_lt.mp before) (Ne.symm other)
        · exact below f old

theorem sorted_ofList : Sorted (ofList entries) := by
  have go : ∀ m : List (κ × ν), Sorted m →
      Sorted (entries.foldl (fun m e => insert e.1 e.2 m) m) := by
    induction entries with
    | nil => exact fun m h => h
    | cons f entries ih => exact fun m h => ih _ h.insert
  exact go [] List.Pairwise.nil

theorem Sorted.keys_nodup (h : Sorted m) : (m.map Prod.fst).Nodup := by
  rw [List.Nodup, List.pairwise_map]
  exact List.Pairwise.imp (fun below => ne_of_lt below) h

/-- Every entry is the one under its key. -/
theorem Sorted.get?_of_mem (h : Sorted m) (stored : e ∈ m) : get? m e.1 = some e.2 := by
  induction m with
  | nil => exact absurd stored List.not_mem_nil
  | cons f m ih =>
    obtain ⟨below, rest⟩ := List.pairwise_cons.mp h
    rw [get?_cons]
    rcases List.mem_cons.mp stored with rfl | stored
    · rw [if_pos rfl]
    · rw [if_neg (ne_of_lt (below e stored)), ih rest stored]

theorem insert_last (above : ∀ e ∈ m, e.1 < k) : insert k v m = m ++ [(k, v)] := by
  induction m with
  | nil => rfl
  | cons e m ih =>
    have here := above e (by simp)
    rw [insert, if_neg (not_lt_of_gt here), if_neg (ne_of_gt here),
      ih (fun f hf => above f (List.mem_cons_of_mem e hf))]
    rfl

/-- A value that is put where it is changes nothing. -/
theorem Sorted.insert_self (h : Sorted m) (there : get? m k = some v) :
    SortedMap.insert k v m = m := by
  induction m with
  | nil => cases there
  | cons e m ih =>
    obtain ⟨below, rest⟩ := List.pairwise_cons.mp h
    rw [get?_cons] at there
    split at there
    · rename_i own
      cases there
      rw [SortedMap.insert, if_neg (own ▸ lt_irrefl _), if_pos own.symm, ← own]
    · rename_i other
      obtain ⟨f, found, rfl⟩ := Option.map_eq_some_iff.mp there
      have key : f.1 = k := by simpa using List.find?_some found
      have after := below f (List.mem_of_find?_eq_some found)
      rw [key] at after
      rw [SortedMap.insert, if_neg (not_lt_of_gt after), if_neg (Ne.symm other), ih rest there]

/-- A list in key order is the map of itself. -/
theorem Sorted.ofList_eq (h : Sorted m) : ofList m = m := by
  have go : ∀ before : List (κ × ν), Sorted (before ++ m) →
      m.foldl (fun m e => SortedMap.insert e.1 e.2 m) before = before ++ m := by
    clear h
    induction m with
    | nil => simp
    | cons e m ih =>
      intro before sorted
      have above : ∀ f ∈ before, f.1 < e.1 := fun f hf =>
        (List.pairwise_append.mp sorted).2.2 f hf e (by simp)
      rw [List.foldl_cons, insert_last above, ih _ (by simpa using sorted)]
      simp
  exact go [] h

end SortedMap

end VsFleet
