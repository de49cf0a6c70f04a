import VsFleet.Host.SelectServer
import VsFleet.Misc.Runs

/-!
# Overlapping selections

A call that fails puts back what was selected when it started. Where every call started after it has
failed before, that is the target of the last call that has not failed.
-/

namespace VsFleet

namespace SelectApp

/-! ## The law -/

/-- The target of the latest started of the calls that were opened. -/
def latestOpened (calls : List SelectCall) : Option String :=
  (calls.filterMap (fun call => if call.reply = .opened then some call.id else none)).getLast?

/-- The webview after the first steps of a run. -/
def after (app : SelectApp) (steps : List SelectStep) (i : Nat) : SelectApp :=
  (steps.take i).foldl step app

/-- Whenever no call is in flight, the selection is the target of the latest started call that was
opened since the last such state, or what it was in that state; and the failure of a call after a
later one was opened changes nothing. -/
structure SelectionLaw (app : SelectApp) (steps : List SelectStep) : Prop where
  settles : ∀ i j, i < j → j ≤ steps.length → (app.after steps i).Settled →
    (app.after steps j).Settled → (∀ l, i < l → l < j → ¬ (app.after steps l).Settled) →
      (app.after steps j).selected =
        (latestOpened ((app.after steps j).calls.drop (app.after steps i).calls.length)).or
          (app.after steps i).selected
  stale : ∀ i (hi : i < steps.length) n call m later, steps[i] = .refused n ∨ steps[i] = .error n →
    (app.after steps i).calls[n]? = some call → call.reply = .awaiting → n < m →
    (app.after steps i).calls[m]? = some later → later.reply = .opened →
      (app.after steps (i + 1)).selected = (app.after steps i).selected ∧
        (app.after steps (i + 1)).desiredSelection = (app.after steps i).desiredSelection

/-- A call fails only after every call that was started after it. -/
def FailsLast (app : SelectApp) : SelectStep → Prop
  | .refused n | .error n => ∀ call ∈ app.calls[n]?, call.reply = .awaiting →
      ∀ later ∈ app.calls.drop (n + 1), later.reply = .failed
  | .selectServer _ | .opened _ => True

instance (app : SelectApp) : ∀ step, Decidable (FailsLast app step)
  | .refused n | .error n => inferInstanceAs (Decidable (∀ call ∈ app.calls[n]?,
      call.reply = .awaiting → ∀ later ∈ app.calls.drop (n + 1), later.reply = .failed))
  | .selectServer _ | .opened _ => inferInstanceAs (Decidable True)

/-! ## The calls that have not failed -/

/-- The target of a call that has not failed. -/
def standing (call : SelectCall) : Option String :=
  if call.reply = .failed then none else some call.id

/-- The target of the last call that has not failed, or what was selected before. -/
def lastStanding (base : Option String) (calls : List SelectCall) : Option String :=
  (calls.filterMap standing).getLast?.or base

section LastStanding

variable {base : Option String} {calls : List SelectCall} {call : SelectCall}

theorem lastStanding_concat (stands : standing call = some call.id) :
    lastStanding base (calls ++ [call]) = some call.id := by
  simp [lastStanding, List.filterMap_append, stands]

/-- Calls that have failed do not count. -/
theorem lastStanding_append {later : List SelectCall}
    (failed : ∀ call ∈ later, call.reply = .failed) :
    lastStanding base (calls ++ later) = lastStanding base calls := by
  have none : later.filterMap standing = [] := by
    rw [List.filterMap_eq_nil_iff]
    intro call mem
    rw [standing, if_pos (failed call mem)]
  rw [lastStanding, List.filterMap_append, none, List.append_nil, lastStanding]

/-- A call that is opened counts as before. -/
theorem map_standing_set {n : Nat} {call' : SelectCall}
    (same : ∀ call ∈ calls[n]?, standing call' = standing call) :
    (calls.set n call').map standing = calls.map standing := by
  rcases Nat.lt_or_ge n calls.length with lt | past
  · rw [List.map_set, same _ (List.getElem?_eq_getElem lt)]
    exact (congrArg _ (List.getElem_map _).symm).trans (List.set_getElem_self (by simpa using lt))
  · rw [List.set_eq_of_length_le past]

theorem lastStanding_eq_map : lastStanding base calls =
    ((calls.map standing).filterMap id).getLast?.or base := by
  rw [lastStanding, List.filterMap_map]
  rfl

theorem lastStanding_set {n : Nat} {call' : SelectCall}
    (same : ∀ call ∈ calls[n]?, standing call' = standing call) :
    lastStanding base (calls.set n call') = lastStanding base calls := by
  rw [lastStanding_eq_map, map_standing_set same, ← lastStanding_eq_map]

/-- Of calls of which some of the later have not failed the last is one of these. -/
theorem lastStanding_append_of_standing (base : Option String) (calls : List SelectCall)
    {later : List SelectCall}
    (stands : ∃ call ∈ later, call.reply ≠ .failed) :
    ∃ call ∈ later, call.reply ≠ .failed ∧ lastStanding base (calls ++ later) = some call.id := by
  obtain ⟨call, mem, stands⟩ := stands
  have ne : later.filterMap standing ≠ [] :=
    List.ne_nil_of_mem (List.mem_filterMap.mpr ⟨call, mem, if_neg stands⟩)
  obtain ⟨last, mem', own⟩ := List.mem_filterMap.mp (List.getLast_mem ne)
  unfold standing at own
  split at own
  · cases own
  · rename_i stands'
    refine ⟨last, mem', stands', ?_⟩
    rw [lastStanding, List.filterMap_append, List.getLast?_append_of_ne_nil _ ne,
      List.getLast?_eq_some_getLast ne, own]
    rfl

/-- Of calls that are all answered those that have not failed were opened. -/
theorem lastStanding_of_settled (settled : ∀ call ∈ calls, call.reply ≠ .awaiting) :
    lastStanding base calls = (latestOpened calls).or base := by
  rw [lastStanding, latestOpened]
  congr 2
  refine List.filterMap_congr (fun call mem => ?_)
  have answered := settled call mem
  cases own : call.reply with
  | awaiting => exact absurd own answered
  | opened => simp [standing, own]
  | failed => simp [standing, own]

end LastStanding

/-! ## What the selection is along a run -/

/-- Since a settled state with `k` calls, the selection is that of the last call that has not
failed, and a call in flight has kept that of the calls before it. -/
structure Consistent (k : Nat) (base : Option String) (app : SelectApp) : Prop where
  settled : ∀ call ∈ app.calls.take k, call.reply ≠ .awaiting
  kept : k ≤ app.calls.length
  selected : app.selected = lastStanding base (app.calls.drop k)
  saved : ∀ i call, (app.calls.drop k)[i]? = some call → call.reply = .awaiting →
    call.previousSelected = lastStanding base ((app.calls.drop k).take i)

theorem Settled.consistent {app : SelectApp} (h : app.Settled) :
    app.Consistent app.calls.length app.selected where
  settled call mem := h call (List.mem_of_mem_take mem)
  kept := Nat.le_refl _
  selected := by
    rw [List.drop_length]
    rfl
  saved i call there := by
    rw [List.drop_length] at there
    cases there

section Steps

variable {k n : Nat} {base : Option String} {app : SelectApp} {call : SelectCall}

theorem Consistent.selectServer (h : app.Consistent k base) (id : String) :
    (app.selectServer id).Consistent k base := by
  have split : (app.selectServer id).calls.drop k = app.calls.drop k ++
      [⟨id, app.selected, app.desiredSelection, app.desiredAcknowledge, .awaiting⟩] :=
    List.drop_append_of_le_length h.kept
  refine ⟨?_, ?_, ?_, ?_⟩
  · show ∀ call ∈ (app.calls ++ _).take k, call.reply ≠ .awaiting
    rw [List.take_append_of_le_length h.kept]
    exact h.settled
  · exact Nat.le_trans h.kept (by simp [SelectApp.selectServer])
  · rw [split, lastStanding_concat rfl]
    rfl
  · intro i call there waits
    rw [split] at there ⊢
    rcases Nat.lt_or_ge i (app.calls.drop k).length with earlier | last
    · rw [List.getElem?_append_left earlier] at there
      rw [List.take_append_of_le_length (Nat.le_of_lt earlier)]
      exact h.saved i call there waits
    · rw [List.getElem?_append_right last, List.getElem?_singleton] at there
      split at there
      · rename_i zero
        cases there
        rw [List.take_append_of_le_length (Nat.le_of_sub_eq_zero zero), List.take_of_length_le last]
        exact h.selected
      · cases there

theorem drop_since {calls : List SelectCall} (since : k ≤ n) :
    (calls.drop k).drop (n - k + 1) = calls.drop (n + 1) := by
  rw [List.drop_drop]
  congr 1
  omega

/-- A call in flight was started since, and what it is set to changes nothing before. -/
theorem Consistent.set_of_awaiting (h : app.Consistent k base) (there : app.calls[n]? = some call)
    (waits : call.reply = .awaiting) (call' : SelectCall) :
    k ≤ n ∧ (app.calls.drop k)[n - k]? = some call ∧
    (app.calls.set n call').take k = app.calls.take k ∧
    (app.calls.set n call').drop k = (app.calls.drop k).set (n - k) call' := by
  have since : k ≤ n := by
    by_contra early
    have mem : call ∈ app.calls.take k := by
      refine List.mem_of_getElem? (i := n) ?_
      rw [List.getElem?_take_of_lt (Nat.lt_of_not_le early), there]
    exact h.settled call mem waits
  refine ⟨since, ?_, ?_, ?_⟩
  · rw [List.getElem?_drop, Nat.add_sub_cancel' since, there]
  · rw [List.take_set, List.set_eq_of_length_le]
    exact Nat.le_trans (List.length_take_le _ _) since
  · rw [List.drop_set, if_neg (Nat.not_lt_of_le since)]

theorem Consistent.opened (h : app.Consistent k base) (there : app.calls[n]? = some call)
    (waits : call.reply = .awaiting) :
    ({ app with calls := app.calls.set n { call with reply := .opened } } :
      SelectApp).Consistent k base := by
  obtain ⟨since, there, take, drop⟩ :=
    h.set_of_awaiting there waits { call with reply := .opened }
  have same : standing { call with reply := .opened } = standing call := by
    simp [standing, waits]
  refine ⟨?_, ?_, ?_, ?_⟩
  · rw [take]
    exact h.settled
  · rw [List.length_set]
    exact h.kept
  · rw [drop, lastStanding_set (fun call' here => ?_)]
    · exact h.selected
    · cases there.symm.trans here
      exact same
  · intro i call' there' waits'
    rw [drop] at there' ⊢
    rw [List.take_set, lastStanding_set (fun call' here => ?_)]
    · refine h.saved i call' ?_ waits'
      rwa [List.getElem?_set_ne] at there'
      rintro rfl
      rw [List.getElem?_set_self (List.getElem?_eq_some_iff.mp there).1] at there'
      cases there'
      cases waits'
    · rcases Nat.lt_or_ge (n - k) i with lt | past
      · rw [List.getElem?_take_of_lt lt] at here
        cases there.symm.trans here
        exact same
      · rw [List.getElem?_eq_none (Nat.le_trans (List.length_take_le _ _) past)] at here
        cases here

theorem Consistent.restore (h : app.Consistent k base) (there : app.calls[n]? = some call)
    (waits : call.reply = .awaiting)
    (last : ∀ later ∈ app.calls.drop (n + 1), later.reply = .failed) :
    (app.restore n call).Consistent k base := by
  obtain ⟨since, there, take, drop⟩ :=
    h.set_of_awaiting there waits { call with reply := .failed }
  have lt : n - k < (app.calls.drop k).length := (List.getElem?_eq_some_iff.mp there).1
  have later : (app.calls.drop k).drop (n - k + 1) = app.calls.drop (n + 1) := drop_since since
  refine ⟨?_, ?_, ?_, ?_⟩
  · show ∀ call' ∈ (app.calls.set n _).take k, call'.reply ≠ .awaiting
    rw [take]
    exact h.settled
  · show k ≤ (app.calls.set n _).length
    rw [List.length_set]
    exact h.kept
  · show call.previousSelected = lastStanding base ((app.calls.set n _).drop k)
    rw [drop, List.set_eq_take_append_cons_drop, if_pos lt, later, lastStanding_append]
    · exact h.saved (n - k) call there waits
    · intro call' mem
      rcases List.mem_cons.mp mem with rfl | mem
      · rfl
      · exact last call' mem
  · intro i call' there' waits'
    have there' : ((app.calls.drop k).set (n - k) { call with reply := .failed })[i]? =
        some call' := drop ▸ there'
    show call'.previousSelected = lastStanding base (((app.calls.set n _).drop k).take i)
    have ne : n - k ≠ i := by
      rintro rfl
      rw [List.getElem?_set_self lt] at there'
      cases there'
      cases waits'
    rw [List.getElem?_set_ne ne] at there'
    -- a call in flight was started before the one that fails
    have before : i ≤ n - k := by
      by_contra after
      have mem : call' ∈ app.calls.drop (n + 1) := by
        rw [← later]
        refine List.mem_of_getElem? (i := i - (n - k + 1)) ?_
        rw [List.getElem?_drop, Nat.add_sub_cancel' (Nat.lt_of_not_le after), there']
      cases (last call' mem).symm.trans waits'
    rw [drop, List.take_set, List.set_eq_of_length_le]
    · exact h.saved i call' there' waits'
    · exact Nat.le_trans (List.length_take_le _ _) before

theorem Consistent.step (h : app.Consistent k base) (step : SelectStep)
    (fails_last : app.FailsLast step) : (app.step step).Consistent k base := by
  cases step with
  | selectServer id => exact h.selectServer id
  | opened n =>
    unfold SelectApp.step
    dsimp only
    split
    · rename_i call there
      split
      · rename_i waits
        exact h.opened there waits
      · exact h
    · exact h
  | refused n | error n =>
    unfold SelectApp.step
    dsimp only
    split
    · rename_i call there
      split
      · rename_i waits
        exact h.restore there waits (fails_last call there waits)
      · exact h
    · exact h

/-- In a settled state the selection is that of the latest call opened since. -/
theorem Consistent.selected_of_settled (h : app.Consistent k base) (settled : app.Settled) :
    app.selected = (latestOpened (app.calls.drop k)).or base :=
  h.selected.trans (lastStanding_of_settled
    (fun call mem => settled call (List.mem_of_mem_drop mem)))

end Steps

/-! ## A failure out of order -/

/-- Where the backend opens servers, the selection stays and no call fails. -/
theorem foldl_opened (rest : List SelectStep) (opens : ∀ s ∈ rest, ∃ m, s = .opened m) :
    ∀ app : SelectApp, (rest.foldl step app).selected = app.selected ∧
      (rest.foldl step app).calls.map standing = app.calls.map standing := by
  induction rest with
  | nil => exact fun app => ⟨rfl, rfl⟩
  | cons s rest ih =>
    intro app
    rw [List.forall_mem_cons] at opens
    obtain ⟨m, rfl⟩ := opens.1
    have one : (app.step (.opened m)).selected = app.selected ∧
        (app.step (.opened m)).calls.map standing = app.calls.map standing := by
      unfold SelectApp.step
      dsimp only
      split
      · rename_i call there
        split
        · rename_i waits
          refine ⟨rfl, map_standing_set (fun call' here => ?_)⟩
          cases there.symm.trans here
          simp [standing, waits]
        · exact ⟨rfl, rfl⟩
      · exact ⟨rfl, rfl⟩
    obtain ⟨selected, stands⟩ := ih opens.2 (app.step (.opened m))
    exact ⟨selected.trans one.1, stands.trans one.2⟩

/-- A call that fails while one started after it is in flight or was opened breaks the law if the
backend opens what is still in flight, unless it puts back the very target of such a call. -/
theorem stale_failure_breaks {k n : Nat} {base : Option String} {app : SelectApp}
    {call : SelectCall} (h : app.Consistent k base) (there : app.calls[n]? = some call)
    (waits : call.reply = .awaiting)
    (overtaken : ∃ later ∈ app.calls.drop (n + 1), later.reply ≠ .failed)
    (other : ∀ later ∈ app.calls.drop (n + 1), later.reply ≠ .failed →
      some later.id ≠ call.previousSelected)
    (rest : List SelectStep) (opens : ∀ s ∈ rest, ∃ m, s = .opened m)
    (settled : (rest.foldl step (app.restore n call)).Settled) :
    (rest.foldl step (app.restore n call)).selected ≠
      (latestOpened ((rest.foldl step (app.restore n call)).calls.drop k)).or base := by
  obtain ⟨selected, stands⟩ := foldl_opened rest opens (app.restore n call)
  obtain ⟨since, there, -, drop⟩ := h.set_of_awaiting there waits { call with reply := .failed }
  have lt : n - k < (app.calls.drop k).length := (List.getElem?_eq_some_iff.mp there).1
  rw [← lastStanding_of_settled (fun call mem => settled call (List.mem_of_mem_drop mem)),
    lastStanding_eq_map, List.map_drop, stands, ← List.map_drop, ← lastStanding_eq_map, selected]
  show call.previousSelected ≠ lastStanding base ((app.calls.set n _).drop k)
  rw [drop, List.set_eq_take_append_cons_drop, if_pos lt, drop_since since, List.append_cons]
  obtain ⟨last, mem, stands, own⟩ := lastStanding_append_of_standing base
    ((app.calls.drop k).take (n - k) ++ [{ call with reply := .failed }]) overtaken
  rw [own]
  exact (other last mem stands).symm

section Run

variable {app : SelectApp} {steps : List SelectStep} {i j : Nat}

theorem after_succ (hi : i < steps.length) :
    app.after steps (i + 1) = (app.after steps i).step steps[i] := by
  rw [after, List.take_add_one, List.getElem?_eq_getElem hi, List.foldl_append]
  rfl

/-- From a settled state on the selection is consistent with it. -/
theorem consistent_after (fails_last : Along step FailsLast app steps)
    (settled : (app.after steps i).Settled) (le : i ≤ j) : j ≤ steps.length →
    (app.after steps j).Consistent (app.after steps i).calls.length
      (app.after steps i).selected := by
  induction le with
  | refl => exact fun _ => settled.consistent
  | step le ih =>
    intro lt
    rw [after_succ lt]
    exact (ih (Nat.le_of_lt lt)).step _ (Along.iff_take.mp fails_last _ lt)

end Run

/-- In a run in which no call fails while one started after it is in flight or was opened, the
selection follows the law. -/
theorem selection_law (app : SelectApp) (steps : List SelectStep)
    (fails_last : Along step FailsLast app steps) : SelectionLaw app steps where
  settles i j lt le settled settled' _ :=
    (consistent_after fails_last settled (Nat.le_of_lt lt) le).selected_of_settled settled'
  stale i hi n call m later fails there waits lt there' opened := by
    have last := Along.iff_take.mp fails_last i hi
    have mem : later ∈ (app.after steps i).calls.drop (n + 1) := by
      refine List.mem_of_getElem? (i := m - (n + 1)) ?_
      rw [List.getElem?_drop, Nat.add_sub_cancel' lt, there']
    have failed : later.reply = .failed := by
      rcases fails with refused | error
      · rw [refused] at last
        exact last call there waits later mem
      · rw [error] at last
        exact last call there waits later mem
    cases failed.symm.trans opened

/-- The webview before anything was selected. -/
def blank : SelectApp := ⟨none, none, true, []⟩

/-- Two servers are opened at once, and the second call fails before the first is answered. -/
theorem selection_law_nested :
    SelectionLaw blank [.selectServer "a", .selectServer "b", .refused 1, .opened 0] :=
  selection_law blank _ (by decide)

/-- The second of two calls is opened, the first fails, and nothing is selected. -/
theorem stale_failure_deselects :
    ¬ ∀ (app : SelectApp) (steps : List SelectStep), SelectionLaw app steps := by
  intro law
  let steps : List SelectStep := [.selectServer "a", .selectServer "b", .opened 1, .error 0]
  have busy : ∀ l, 0 < l → l < 4 → ¬ (blank.after steps l).Settled := by
    intro l pos lt
    obtain rfl | rfl | rfl : l = 1 ∨ l = 2 ∨ l = 3 := by omega
    · decide
    · decide
    · decide
  have selected := (law blank steps).settles 0 4 (by decide) (by decide) (by decide) (by decide)
    busy
  exact absurd selected (by decide)

end SelectApp

end VsFleet
