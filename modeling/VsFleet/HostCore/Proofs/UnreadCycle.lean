import VsFleet.HostCore.Palette
import VsFleet.HostCore.Sort
import VsFleet.Misc.Cycle
import VsFleet.Misc.StableSort

/-!
# Cycling through the unread tabs

The jump from the focused tab and the cycle of the palette go around one list, of the unread tabs in
the order of the view. The jump enters it after the unread tabs that are not past its cursor.
-/

namespace VsFleet

/-! ## The unread tabs -/

/-- The tab at an index is there and unread. -/
def unreadAt (tabs : List SessionTab) (i : Nat) : Bool :=
  (tabs[i]?.map SessionTab.unread).getD false

theorem unreadAt_iff {tabs : List SessionTab} {i : Nat} :
    unreadAt tabs i = true ↔ ∃ tab, tabs[i]? = some tab ∧ tab.unread = true := by
  unfold unreadAt
  cases tabs[i]? <;> simp

/-- The indices of the unread tabs. -/
def unreads (tabs : List SessionTab) : List Nat :=
  (List.range tabs.length).filter (unreadAt tabs)

theorem unreads_increasing (tabs : List SessionTab) : (unreads tabs).Pairwise (· < ·) :=
  List.pairwise_lt_range.filter _

theorem mem_unreads {tabs : List SessionTab} {i : Nat} :
    i ∈ unreads tabs ↔ ∃ tab, tabs[i]? = some tab ∧ tab.unread = true := by
  rw [unreads, List.mem_filter, List.mem_range, unreadAt_iff]
  refine and_iff_right_of_imp (fun ⟨tab, there, _⟩ => ?_)
  exact (List.getElem?_eq_some_iff.mp there).1

theorem unreadIndices_eq (view : InboxView) : unreadIndices view = unreads view.tabs := by
  have range : List.range view.tabs.length = view.tabs.zipIdx.map Prod.snd := by
    rw [List.range_eq_range', List.zipIdx_map_snd]
  rw [unreads, range, List.filter_map, unreadIndices, ← List.filterMap_eq_map,
    List.filterMap_filter]
  refine List.filterMap_congr (fun ⟨tab, i⟩ mem => ?_)
  have there := List.mem_zipIdx_iff_getElem?.mp mem
  simp [unreadAt, show view.tabs[i]? = some tab from there]

/-! ## The jump -/

/-- Where a cursor sends the search. -/
def startOf : Option Nat → Nat
  | some i => i + 1
  | none => 0

theorem scanUnread_eq (tabs : List SessionTab) (start : Nat) : ∀ left offset,
    scanUnread tabs start offset left =
      ((List.range' offset left).map (fun i => (start + i) % tabs.length)).find?
        (unreadAt tabs) := by
  intro left
  induction left with
  | zero => exact fun _ => rfl
  | succ left ih =>
    intro offset
    rw [scanUnread, List.range'_succ, List.map_cons, List.find?_cons, ih]
    simp only [unreadAt]
    split <;> simp_all

/-- The jump goes to the first unread tab of the list turned to its start. -/
theorem nextUnread_eq_find (view : InboxView) (cursor : Option Nat) : nextUnread view cursor =
    ((List.range view.tabs.length).rotate (startOf cursor)).find? (unreadAt view.tabs) := by
  rw [rotate_range]
  unfold nextUnread
  dsimp only
  split
  · rename_i empty
    rw [empty]
    rfl
  · rw [scanUnread_eq, List.range_eq_range']
    cases cursor <;> rfl

/-- The number of the unread tabs before an index. -/
def rank (tabs : List SessionTab) (m : Nat) : Nat :=
  (((List.range tabs.length).take m).filter (unreadAt tabs)).length

theorem nextUnread_eq (view : InboxView) (cursor : Option Nat) : nextUnread view cursor =
    (unreads view.tabs)[rank view.tabs (startOf cursor % view.tabs.length) %
      (unreads view.tabs).length]? := by
  rw [nextUnread_eq_find, ← List.head?_filter, filter_rotate, List.length_range,
    head?_rotate_mod]
  rfl

/-- An unread tab is in the list after as many as are unread before it. -/
theorem rank_succ {tabs : List SessionTab} {j i : Nat} (there : (unreads tabs)[j]? = some i) :
    rank tabs (i + 1) = j + 1 := by
  obtain ⟨tab, own, unread⟩ := mem_unreads.mp (List.mem_of_getElem? there)
  have lt : i < tabs.length := (List.getElem?_eq_some_iff.mp own).1
  have before : ((List.range tabs.length).take (i + 1)).filter (unreadAt tabs) =
      (List.range i).filter (unreadAt tabs) ++ [i] := by
    rw [List.take_range, Nat.min_eq_left lt, List.range_succ, List.filter_append,
      List.filter_singleton, unreadAt_iff.mpr ⟨tab, own, unread⟩]
    rfl
  have split : unreads tabs = (List.range i).filter (unreadAt tabs) ++ [i] ++
      ((List.range tabs.length).drop (i + 1)).filter (unreadAt tabs) := by
    rw [← before, ← List.filter_append, List.take_append_drop]
    rfl
  have here : (unreads tabs)[((List.range i).filter (unreadAt tabs)).length]? = some i := by
    rw [split]
    simp
  have nodup : (unreads tabs).Nodup := (unreads_increasing tabs).imp Nat.ne_of_lt
  have same := (List.getElem?_inj (List.getElem?_eq_some_iff.mp there).1 nodup).mp
    (there.trans here.symm)
  rw [rank, before, List.length_append, List.length_singleton, ← same]

/-- From an unread tab the jump goes to the one after it. -/
theorem nextUnread_of_unread {view : InboxView} {j i : Nat}
    (there : (unreads view.tabs)[j]? = some i) : nextUnread view (some i) =
      (unreads view.tabs)[(j + 1) % (unreads view.tabs).length]? := by
  have lt : i < view.tabs.length := by
    obtain ⟨tab, own, -⟩ := mem_unreads.mp (List.mem_of_getElem? there)
    exact (List.getElem?_eq_some_iff.mp own).1
  rw [nextUnread_eq, startOf]
  rcases Nat.lt_or_eq_of_le (show i + 1 ≤ view.tabs.length from lt) with inside | last
  · rw [Nat.mod_eq_of_lt inside, rank_succ there]
  · -- past the last tab of the view the search starts over, and the list is at its end
    have all : rank view.tabs (i + 1) = (unreads view.tabs).length := by
      rw [rank, last, List.take_of_length_le (Nat.le_of_eq List.length_range)]
      rfl
    rw [last, Nat.mod_self, ← rank_succ there, all, Nat.mod_self]
    rfl

theorem iterate_nextUnread (view : InboxView) (cursor : Option Nat) (s : Nat) :
    (nextUnread view)^[s + 1] cursor =
      (unreads view.tabs)[(rank view.tabs (startOf cursor % view.tabs.length) + s) %
        (unreads view.tabs).length]? := by
  induction s with
  | zero => exact nextUnread_eq view cursor
  | succ s ih =>
    rw [Function.iterate_succ_apply', ih]
    cases there : (unreads view.tabs)[(rank view.tabs (startOf cursor % view.tabs.length) + s) %
        (unreads view.tabs).length]? with
    | none =>
      have empty : unreads view.tabs = [] := by
        by_contra ne
        have pos := List.length_pos_of_ne_nil ne
        exact absurd (Nat.mod_lt _ pos) (Nat.not_lt_of_le (List.getElem?_eq_none_iff.mp there))
      rw [nextUnread_eq, empty]
      rfl
    | some i => rw [nextUnread_of_unread there, Nat.mod_add_mod, Nat.add_assoc]

/-! ## The cycle of the palette -/

/-- The cursor the palette goes on from. -/
def cyclePos (view : InboxView) (cursor : Option Nat) : Option Nat :=
  (cycleUnread view cursor).map Prod.fst

theorem cycleUnread_eq (view : InboxView) (cursor : Option Nat) : cycleUnread view cursor =
    (unreads view.tabs)[startOf cursor % (unreads view.tabs).length]?.map
      (fun idx => (startOf cursor % (unreads view.tabs).length, idx)) := by
  unfold cycleUnread
  rw [unreadIndices_eq]
  cases unreads view.tabs with
  | nil => rfl
  | cons i u => cases cursor <;> simp [startOf]

theorem cyclePos_eq {view : InboxView} (ne : unreads view.tabs ≠ []) (cursor : Option Nat) :
    cyclePos view cursor = some (startOf cursor % (unreads view.tabs).length) := by
  have inside := Nat.mod_lt (startOf cursor) (List.length_pos_of_ne_nil ne)
  rw [cyclePos, cycleUnread_eq, List.getElem?_eq_getElem inside]
  rfl

/-- The cursor of the palette counts its steps. -/
theorem startOf_iterate_cyclePos {view : InboxView} (ne : unreads view.tabs ≠ [])
    (cursor : Option Nat) (s : Nat) :
    startOf ((cyclePos view)^[s] cursor) % (unreads view.tabs).length =
      (startOf cursor + s) % (unreads view.tabs).length := by
  induction s with
  | zero => rfl
  | succ s ih =>
    rw [Function.iterate_succ_apply', cyclePos_eq ne, startOf, ih, Nat.mod_add_mod, Nat.add_assoc]

theorem iterate_cycleUnread (view : InboxView) (cursor : Option Nat) (s : Nat) :
    (cycleUnread view ((cyclePos view)^[s] cursor)).map Prod.snd =
      (unreads view.tabs)[(startOf cursor + s) % (unreads view.tabs).length]? := by
  rw [cycleUnread_eq, Option.map_map]
  refine Option.map_id'.trans ?_
  by_cases empty : unreads view.tabs = []
  · rw [empty]
    rfl
  · rw [startOf_iterate_cyclePos empty]

/-! ## One cycle -/

/-- The jump and the palette go around one list, the unread tabs in the order of the view, all of it
in as many steps as it is long, and with no cursor from its first. -/
theorem unread_cycle (view : InboxView) : ∃ u : List Nat, u.Pairwise (· < ·) ∧
    (∀ i, i ∈ u ↔ ∃ tab, view.tabs[i]? = some tab ∧ tab.unread = true) ∧
    (∀ cursor, ∃ j, (cursor = none → j = 0) ∧ ∀ s,
      (List.range u.length).map (fun i => (nextUnread view)^[s + i + 1] cursor) =
        (u.rotate (j + s)).map some) ∧
    ∀ cursor, ∃ j, (cursor = none → j = 0) ∧ ∀ s,
      (List.range u.length).map (fun i =>
        (cycleUnread view ((cyclePos view)^[s + i] cursor)).map Prod.snd) =
          (u.rotate (j + s)).map some := by
  refine ⟨unreads view.tabs, unreads_increasing _, fun i => mem_unreads, fun cursor => ?_,
    fun cursor => ?_⟩
  · refine ⟨_, ?_, window_eq_rotate (iterate_nextUnread view cursor)⟩
    rintro rfl
    rw [startOf, Nat.zero_mod]
    rfl
  · refine ⟨_, ?_, window_eq_rotate (iterate_cycleUnread view cursor)⟩
    rintro rfl
    rfl

end VsFleet
