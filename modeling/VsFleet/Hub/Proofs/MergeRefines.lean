import VsFleet.Hub.Fleet
import VsFleet.Misc.Pass

/-!
# The merge engine is the fleet

Every operation of the engine is the operation of the abstract fleet, and the events it returns
are the changes it made: an update for each session it edited, or the one added or removed.
-/

namespace VsFleet

/-- The engine and the fleet hold the same sessions in the same order. -/
structure Refines (e : MergeEngine) (F : Fleet) : Prop where
  indexed : OrderedMap.Indexed (fun s : Session => s.sessionId) e.sessions e.order
  snapshot : e.snapshot = F.sessions

/-- The events are updates for some of the edited sessions, and the others were not changed. -/
def Fleet.Announces (F : Fleet) (g : Edit) (events : List Event) : Prop :=
  ∃ moved : Session → Bool,
    events = (F.sessions.filter moved).map (fun s => Event.ofSessionUpdated (g s)) ∧
    ∀ s ∈ F.sessions, moved s = false → g s = s

/-- An edit that leaves every session leaves the fleet. -/
theorem Fleet.edit_eq_self {F : Fleet} {g : Edit} (h : ∀ s ∈ F.sessions, g s = s) :
    F.edit g = F := by
  apply Fleet.ext
  exact (List.map_congr_left h).trans (List.map_id _)

/-- Such an edit has nothing to announce. -/
theorem Fleet.announces_nil {F : Fleet} {g : Edit} (h : ∀ s ∈ F.sessions, g s = s) :
    F.Announces g [] := ⟨fun _ => false, by simp, fun s hs _ => h s hs⟩

namespace Refines

variable {e : MergeEngine} {F : Fleet}

/-- An engine without sessions refines the empty fleet. -/
theorem new : Refines .new .empty := ⟨OrderedMap.Indexed.empty, rfl⟩

/-- The map of the engine and the fleet have the same session under an id. -/
theorem lookup (h : Refines e F) (id : String) : e.sessions.lookup id = F.get? id := by
  rw [Fleet.get?, ← h.snapshot]
  exact (h.indexed.get?_values id).symm

theorem mem_iff (h : Refines e F) {id : String} : id ∈ e.sessions ↔ (F.get? id).isSome := by
  rw [← h.lookup, AList.lookup_isSome]

theorem mem_order (h : Refines e F) {id : String} : id ∈ e.order ↔ (F.get? id).isSome := by
  rw [h.indexed.mem, h.mem_iff]

/-- The order of the engine is the one of the fleet. -/
theorem order (h : Refines e F) : e.order = F.sessions.map (fun s => s.sessionId) := by
  rw [← h.snapshot]
  exact h.indexed.values_map_key.symm

theorem anySoloed (h : Refines e F) : e.anySoloed = F.anySoloed := by
  rw [MergeEngine.anySoloed, h.indexed.values_any, Fleet.anySoloed, ← h.snapshot]
  rfl

/-- The notify map has the value of each session of the fleet. -/
theorem notifyMap (h : Refines e F) (id : String) :
    e.notifyMap id = (F.get? id).map F.notifies := by
  rw [MergeEngine.notifyMap, h.lookup, h.anySoloed]
  rfl

/-- `session` finds the one of the fleet. -/
theorem session (h : Refines e F) (id : String) : e.session id = F.get? id := h.lookup id

/-- Any change in place is read off the lookups. -/
theorem edit (h : Refines e F) (e' : MergeEngine) (g : Edit) (order : e'.order = e.order)
    (hlookup : ∀ id, e'.sessions.lookup id = (e.sessions.lookup id).map g) :
    Refines e' (F.edit g) := by
  obtain ⟨indexed, values⟩ := h.indexed.revise (g := fun _ => g) (fun _ s => g.sessionId s) hlookup
  refine ⟨order ▸ indexed, ?_⟩
  rw [MergeEngine.snapshot, order, values, Fleet.edit_sessions, ← h.snapshot]
  rfl

/-- A change in place of the session of one id. -/
theorem modify (h : Refines e F) (id : String) (g : Edit) :
    Refines { e with sessions := HashMap.modify e.sessions id g } (F.edit (.only id g)) := by
  refine h.edit _ (.only id g) rfl ?_
  intro k
  rw [HashMap.lookup_modify]
  cases found : e.sessions.lookup k with
  | none => simp
  | some s =>
    have own : s.sessionId = k := h.indexed.keyed k s found
    by_cases hk : k = id <;> simp [hk, Edit.only, own]

/-- An insert under the session's own id. -/
theorem insert (h : Refines e F) {s : Session} (rolledUp : s.RolledUp)
    (hmem : s.sessionId ∈ e.sessions) :
    Refines { e with sessions := e.sessions.insert s.sessionId s } (F.put s rolledUp) := by
  refine ⟨h.indexed.insert_mem (v := s) hmem, ?_⟩
  rw [Fleet.put_sessions, ← h.snapshot]
  exact h.indexed.values_insert_mem hmem

/-- A session with a new id is put in at the end. -/
theorem insert_new (h : Refines e F) {s : Session} (rolledUp : s.RolledUp)
    (hmem : s.sessionId ∉ e.sessions) :
    Refines ⟨e.sessions.insert s.sessionId s, e.order ++ [s.sessionId]⟩ (F.put s rolledUp) := by
  refine ⟨h.indexed.insert_new (v := s) hmem, ?_⟩
  rw [Fleet.put_sessions, ← h.snapshot]
  exact h.indexed.values_insert_new hmem

/-- A session that is erased is dropped. -/
theorem erase (h : Refines e F) (id : String) :
    Refines ⟨e.sessions.erase id, e.order.filter (fun k => k ≠ id)⟩ (F.drop id) := by
  refine ⟨h.indexed.erase id, ?_⟩
  rw [Fleet.drop_sessions, ← h.snapshot]
  exact h.indexed.values_erase id

end Refines

/-! ## Reconciling the unread flags -/

namespace MergeEngine

theorem reconcileOneUnread_order (e : MergeEngine) (id : String) (old any : Bool) :
    (e.reconcileOneUnread id old any).1.order = e.order := by
  unfold reconcileOneUnread
  split <;> rfl

/-- One turn of the loop settles its session and leaves the others. -/
theorem reconcileOneUnread_lookup (e : MergeEngine) (id k : String) (old any : Bool) :
    (e.reconcileOneUnread id old any).1.sessions.lookup k =
      if k = id then (e.sessions.lookup k).map (fun s => s.settle old (s.shouldNotifySession any))
      else e.sessions.lookup k := by
  unfold reconcileOneUnread
  split
  · rename_i absent
    split
    · rename_i hk
      rw [hk, absent]
      rfl
    · rfl
  · simp only [HashMap.lookup_modify, Session.updateUnread_fst]

/-- It tells of a change exactly where the unread mark has changed. -/
theorem reconcileOneUnread_changed (e : MergeEngine) (id : String) (old any : Bool) :
    (e.reconcileOneUnread id old any).2 = true ↔ ∃ s, e.sessions.lookup id = some s ∧
      (s.updateUnreadForNotifyTransition old (s.shouldNotifySession any)).2 = true := by
  unfold reconcileOneUnread
  split
  · rename_i absent
    simp [absent]
  · rename_i s found
    simp [found]

section

variable (oldNotify : String → Option Bool) (any : Bool) (ids : List String) (e : MergeEngine)

/-- The loop is a pass of reconciles, each about its own session. -/
theorem reconcileUnreadLoop_eq : reconcileUnreadLoop oldNotify any ids e =
    pass (fun e id => e.reconcileOneUnread id ((oldNotify id).getD false) any) ids e := by
  induction ids generalizing e with
  | nil => rfl
  | cons id ids ih => simp only [reconcileUnreadLoop, pass, ih]

/-- The loop visits each id once and settles its session. -/
theorem reconcileUnread_visit : Visit (fun (e : MergeEngine) k => e.sessions.lookup k)
    (fun e id => e.reconcileOneUnread id ((oldNotify id).getD false) any)
    (fun k entry => entry.map (fun s =>
      s.settle ((oldNotify k).getD false) (s.shouldNotifySession any)))
    (fun k entry => ∃ s, entry = some s ∧ (s.updateUnreadForNotifyTransition
      ((oldNotify k).getD false) (s.shouldNotifySession any)).2 = true) where
  entry_visit e id k := by
    rw [reconcileOneUnread_lookup]
    split
    · rename_i own
      rw [own]
    · rfl
  moved e id := e.reconcileOneUnread_changed id _ any

theorem reconcileUnreadLoop_order : (reconcileUnreadLoop oldNotify any ids e).1.order = e.order := by
  rw [reconcileUnreadLoop_eq]
  exact pass_kept (fun e id => e.reconcileOneUnread_order id _ any) ids e

/-- Each id is visited once, so a session is settled at its own visit and untouched by the
others. -/
theorem reconcileUnreadLoop_lookup (distinct : ids.Nodup) (k : String) :
    (reconcileUnreadLoop oldNotify any ids e).1.sessions.lookup k =
      if k ∈ ids then (e.sessions.lookup k).map (fun s =>
        s.settle ((oldNotify k).getD false) (s.shouldNotifySession any))
      else e.sessions.lookup k := by
  rw [reconcileUnreadLoop_eq]
  exact (reconcileUnread_visit oldNotify any).entry_pass distinct e k

/-- The loop tells of the ids whose unread mark has changed. -/
theorem reconcileUnreadLoop_changed (distinct : ids.Nodup) (k : String) :
    k ∈ (reconcileUnreadLoop oldNotify any ids e).2 ↔ k ∈ ids ∧ ∃ s,
      e.sessions.lookup k = some s ∧ (s.updateUnreadForNotifyTransition
        ((oldNotify k).getD false) (s.shouldNotifySession any)).2 = true := by
  rw [reconcileUnreadLoop_eq]
  exact (reconcileUnread_visit oldNotify any).mem_pass distinct e k

end

end MergeEngine

namespace Refines

variable {e e' : MergeEngine} {F : Fleet}

/-- A reconcile settles every session against the notify value it had before. -/
theorem reconcile (h : Refines e F) (oldNotify : String → Option Bool) (g : Edit)
    (hg : ∀ s ∈ F.sessions,
      g s = s.settle ((oldNotify s.sessionId).getD false) (F.notifies s)) :
    Refines (e.reconcileUnreadFrom oldNotify).1 (F.edit g) := by
  refine h.edit _ g (MergeEngine.reconcileUnreadLoop_order ..) ?_
  intro k
  simp only [MergeEngine.reconcileUnreadFrom,
    MergeEngine.reconcileUnreadLoop_lookup _ _ _ _ h.indexed.nodup, h.mem_order, h.lookup,
    h.anySoloed]
  cases found : F.get? k with
  | none => simp
  | some s =>
    obtain ⟨hs, rfl⟩ := Fleet.get?_eq_some_iff.mp found
    simp only [Option.isSome_some, if_true, Option.map_some, hg s hs]
    rfl

/-- A session that is not told of is settled already. -/
theorem reconcile_unchanged (h : Refines e F) (oldNotify : String → Option Bool) {s : Session}
    (hs : s ∈ F.sessions) (unchanged : s.sessionId ∉ (e.reconcileUnreadFrom oldNotify).2) :
    s.settle ((oldNotify s.sessionId).getD false) (F.notifies s) = s := by
  have found : e.sessions.lookup s.sessionId = some s := by
    rw [h.lookup, Fleet.get?_of_mem hs]
  rw [MergeEngine.reconcileUnreadFrom,
    MergeEngine.reconcileUnreadLoop_changed _ _ _ _ h.indexed.nodup, h.mem_order,
    Fleet.get?_of_mem hs, found, h.anySoloed] at unchanged
  apply Session.updateUnread_snd
  simpa [Fleet.notifies] using unchanged

/-- The updates are told of in the order of the fleet. -/
theorem updatedEventsFor (h : Refines e F) (changedIds : List String) :
    e.updatedEventsFor changedIds =
      (F.sessions.filter (fun s => s.sessionId ∈ changedIds)).map Event.ofSessionUpdated := by
  rw [MergeEngine.updatedEventsFor, ← h.snapshot, MergeEngine.snapshot, OrderedMap.values,
    List.filter_filterMap, List.filterMap_filter]
  congr 1
  apply List.filterMap_congr
  intro k hk
  obtain ⟨s, found, rfl⟩ := h.indexed.lookup_of_mem hk
  simp only [found, Option.filter_some]

theorem notifyMap_of_mem (h : Refines e F) {s : Session} (hs : s ∈ F.sessions) :
    e.notifyMap s.sessionId = some (F.notifies s) := by
  rw [h.notifyMap, Fleet.get?_of_mem hs, Option.map_some]

/-- The common end of a mute, an unmute and a solo: the flags of some sessions were edited, and
every unread flag is settled. -/
theorem reflag_refines (h : Refines e F) {g : Edit} (h' : Refines e' (F.edit g)) :
    Refines (e'.reconcileUnreadFrom e.notifyMap).1 (F.reflag g) := by
  let back : Edit := ⟨fun w => w.settle ((e.notifyMap w.sessionId).getD false)
    ((F.edit g).notifies w), fun _ => rfl, fun _ hw => hw.settle _ _⟩
  have same : F.reflag g = (F.edit g).edit back := by
    apply Fleet.ext
    rw [Fleet.reflag, Fleet.edit_sessions, Fleet.edit_sessions, Fleet.edit_sessions,
      List.map_map]
    apply List.map_congr_left
    intro s hs
    simp [back, Fleet.settled, h.notifyMap_of_mem hs]
  rw [same]
  exact h'.reconcile _ back (fun w _ => rfl)

/-- Where the sessions `ids` cover those whose flags were edited, the updates tell the change. -/
theorem reflag (h : Refines e F) {g : Edit} (h' : Refines e' (F.edit g)) (ids : List String)
    (hids : ∀ s ∈ F.sessions, s.sessionId ∉ ids → g s = s) :
    Refines (e'.reconcileUnreadFrom e.notifyMap).1 (F.reflag g) ∧
      F.Announces (F.settled (F.edit g) g)
        ((e'.reconcileUnreadFrom e.notifyMap).1.updatedEventsFor
          (ids ++ (e'.reconcileUnreadFrom e.notifyMap).2)) := by
  have refined := h.reflag_refines h'
  refine ⟨refined, ?_⟩
  generalize hchanged : (e'.reconcileUnreadFrom e.notifyMap).2 = changed
  refine ⟨fun s => s.sessionId ∈ ids ++ changed, ?_, ?_⟩
  · rw [refined.updatedEventsFor, Fleet.reflag, Fleet.edit_sessions, List.filter_map,
      List.map_map]
    simp only [Function.comp_def, Edit.sessionId_act]
  · intro s hs still
    simp only [List.mem_append, decide_eq_false_iff_not, not_or] at still
    have kept : g s = s := hids s hs still.1
    have hmem : g s ∈ (F.edit g).sessions := List.mem_map_of_mem hs
    have settled := h'.reconcile_unchanged e.notifyMap hmem (by
      rw [hchanged, g.sessionId_act]
      exact still.2)
    rw [g.sessionId_act, h.notifyMap_of_mem hs, Option.getD_some] at settled
    exact settled.trans kept

end Refines

/-! ## Mute, unmute, solo and focus -/

theorem Session.flags_eta {s : Session} {muted soloed unread : Bool} (hm : s.muted = muted)
    (hs : s.soloed = soloed) (hu : s.unread = unread) :
    { s with muted := muted, soloed := soloed, unread := unread } = s := by
  subst hm hs hu
  rfl

namespace Fleet

/-- An edit that leaves every session settles none. -/
theorem settled_eq_self {F : Fleet} {g : Edit} (hg : ∀ s ∈ F.sessions, g s = s) :
    ∀ s ∈ F.sessions, F.settled (F.edit g) g s = s := by
  intro s hs
  rw [edit_eq_self hg]
  simp [settled, hg s hs]

/-- A change of flags that leaves every session leaves the fleet. -/
theorem reflag_eq_self {F : Fleet} {g : Edit} (hg : ∀ s ∈ F.sessions, g s = s) :
    F.reflag g = F := edit_eq_self (settled_eq_self hg)

/-- An edit of one session that leaves it leaves all. -/
theorem only_eq_self {F : Fleet} {id : String} {g : Edit}
    (hg : ∀ s, F.get? id = some s → g s = s) : ∀ s ∈ F.sessions, Edit.only id g s = s := by
  intro s hs
  simp only [Edit.only]
  split
  · exact hg s (get?_eq_some_iff.mpr ⟨hs, ‹_›⟩)
  · rfl

end Fleet

/-- An edit of one session keeps what the edit keeps. -/
theorem Edit.only_keeps {R : Session → Session → Prop} (refl : ∀ s, R s s) {g : Edit}
    (keeps : ∀ s, R (g s) s) (id : String) (s : Session) : R (Edit.only id g s) s := by
  by_cases own : s.sessionId = id
  · simpa [Edit.only, own] using keeps s
  · simpa [Edit.only, own] using refl s

namespace MergeEngine

theorem clearSoloFlag_order (e : MergeEngine) (id : String) :
    (e.clearSoloFlag id).1.order = e.order := by
  unfold clearSoloFlag
  split
  · split <;> rfl
  · rfl

/-- The solo mark of one session is taken, and the others stay. -/
theorem clearSoloFlag_lookup (e : MergeEngine) (id k : String) :
    (e.clearSoloFlag id).1.sessions.lookup k =
      if k = id then (e.sessions.lookup k).map (fun s => { s with soloed := false })
      else e.sessions.lookup k := by
  unfold clearSoloFlag
  split
  · rename_i s found
    split
    · rw [HashMap.lookup_modify]
    · rename_i plain
      split
      · rename_i hk
        have same : { s with soloed := false } = s :=
          Session.flags_eta rfl (Bool.eq_false_iff.mpr plain) rfl
        rw [hk, found, Option.map_some, same]
      · rfl
  · rename_i absent
    split
    · rename_i hk
      rw [hk, absent]
      rfl
    · rfl

/-- It is told of where there was a mark. -/
theorem clearSoloFlag_changed (e : MergeEngine) (id : String) :
    (e.clearSoloFlag id).2 = true ↔ ∃ s, e.sessions.lookup id = some s ∧ s.soloed = true := by
  unfold clearSoloFlag
  split
  · rename_i s found
    split <;> simp_all
  · rename_i absent
    simp [absent]

section

variable (sessionId : String) (ids : List String) (e : MergeEngine)

/-- The loop is a pass that clears the flag of each session but one. -/
theorem clearOtherSolos_eq : clearOtherSolos sessionId ids e =
    pass (fun e id => if id ≠ sessionId then e.clearSoloFlag id else (e, false)) ids e := by
  induction ids generalizing e with
  | nil => rfl
  | cons id ids ih => simp only [clearOtherSolos, pass, ih]

/-- The loop visits each id once and takes the mark of every session but one. -/
theorem clearOtherSolos_visit : Visit (fun (e : MergeEngine) k => e.sessions.lookup k)
    (fun e id => if id ≠ sessionId then e.clearSoloFlag id else (e, false))
    (fun k entry => if k ≠ sessionId then entry.map (fun s => { s with soloed := false })
      else entry)
    (fun k entry => k ≠ sessionId ∧ ∃ s, entry = some s ∧ s.soloed = true) where
  entry_visit e id k := by
    by_cases other : id = sessionId
    · simp only [other, ne_eq, not_true_eq_false, if_false]
      split
      · rename_i own
        rw [own, other]
      · rfl
    · simp only [ne_eq, other, not_false_eq_true, if_true, clearSoloFlag_lookup]
      split
      · rename_i own
        rw [own]
      · rfl
  moved e id := by
    by_cases other : id = sessionId
    · simp [other]
    · simp only [ne_eq, other, not_false_eq_true, if_true, true_and]
      exact e.clearSoloFlag_changed id

theorem clearOtherSolos_order : (clearOtherSolos sessionId ids e).1.order = e.order := by
  rw [clearOtherSolos_eq]
  refine pass_kept (fun e id => ?_) ids e
  split
  · exact e.clearSoloFlag_order id
  · rfl

/-- What the loop has taken, session by session. -/
theorem clearOtherSolos_lookup (distinct : ids.Nodup) (k : String) :
    (clearOtherSolos sessionId ids e).1.sessions.lookup k =
      if k ∈ ids ∧ k ≠ sessionId then
        (e.sessions.lookup k).map (fun s => { s with soloed := false })
      else e.sessions.lookup k := by
  rw [clearOtherSolos_eq, ite_and]
  exact (clearOtherSolos_visit sessionId).entry_pass distinct e k

/-- The loop tells of the sessions that had the mark. -/
theorem clearOtherSolos_changed (distinct : ids.Nodup) (k : String) :
    k ∈ (clearOtherSolos sessionId ids e).2 ↔
      (k ∈ ids ∧ k ≠ sessionId) ∧ ∃ s, e.sessions.lookup k = some s ∧ s.soloed = true := by
  rw [clearOtherSolos_eq, and_assoc]
  exact (clearOtherSolos_visit sessionId).mem_pass distinct e k

end

theorem setSoloFlag_order (e : MergeEngine) (id : String) :
    (e.setSoloFlag id).1.order = e.order := by
  unfold setSoloFlag
  split
  · split <;> rfl
  · rfl

/-- One session has the mark and no mute, and the others stay. -/
theorem setSoloFlag_lookup (e : MergeEngine) (id k : String) :
    (e.setSoloFlag id).1.sessions.lookup k =
      if k = id then (e.sessions.lookup k).map (fun s => { s with soloed := true, muted := false })
      else e.sessions.lookup k := by
  unfold setSoloFlag
  split
  · rename_i s found
    split
    · rw [HashMap.lookup_modify]
    · rename_i already
      simp only [Bool.or_eq_true, Bool.not_eq_true', not_or, Bool.not_eq_true,
        Bool.not_eq_false] at already
      split
      · rename_i hk
        have same : { s with soloed := true, muted := false } = s :=
          Session.flags_eta already.2 already.1 rfl
        rw [hk, found, Option.map_some, same]
      · rfl
  · rename_i absent
    split
    · rename_i hk
      rw [hk, absent]
      rfl
    · rfl

/-- It tells of nothing where that was so before. -/
theorem setSoloFlag_unchanged (e : MergeEngine) (id : String) {s : Session}
    (found : e.sessions.lookup id = some s) (unchanged : (e.setSoloFlag id).2 = false) :
    s.soloed = true ∧ s.muted = false := by
  simp only [setSoloFlag, found] at unchanged
  split at unchanged
  · cases unchanged
  · simp_all

end MergeEngine

namespace Refines

variable {e : MergeEngine} {F : Fleet}

/-- A change of the flags of one session, with the settling of all, is the fleet's. -/
theorem reflag_one (h : Refines e F) (id : String) (g : Edit) :
    Refines (({ e with sessions := HashMap.modify e.sessions id g } :
        MergeEngine).reconcileUnreadFrom e.notifyMap).1 (F.reflag (.only id g)) ∧
      F.Announces (F.settled (F.edit (.only id g)) (.only id g))
        ((({ e with sessions := HashMap.modify e.sessions id g } :
            MergeEngine).reconcileUnreadFrom e.notifyMap).1.updatedEventsFor
          (id :: (({ e with sessions := HashMap.modify e.sessions id g } :
            MergeEngine).reconcileUnreadFrom e.notifyMap).2)) := by
  refine h.reflag (h.modify id g) [id] ?_
  intro s _ other
  simp only [List.mem_singleton] at other
  simp [Edit.only, other]

/-- A change that leaves every flag leaves the engine in step, with nothing to announce. -/
theorem reflag_still (h : Refines e F) {g : Edit} (hg : ∀ s ∈ F.sessions, g s = s) :
    Refines e (F.reflag g) ∧ F.Announces (F.settled (F.edit g) g) [] := by
  rw [Fleet.reflag_eq_self hg]
  exact ⟨h, Fleet.announces_nil (Fleet.settled_eq_self hg)⟩

/-- A mute is the fleet's, and so is what it announces. -/
theorem applyMute (h : Refines e F) (id : String) :
    Refines (e.applyMute id).1 (F.reflag (.only id .mute)) ∧
      F.Announces (F.settled (F.edit (.only id .mute)) (.only id .mute)) (e.applyMute id).2 := by
  unfold MergeEngine.applyMute
  rw [h.lookup]
  cases found : F.get? id with
  | none =>
    exact h.reflag_still (Fleet.only_eq_self (fun s hs => by simp [found] at hs))
  | some s =>
    simp only
    split
    · rename_i already
      simp only [Bool.and_eq_true, Bool.not_eq_true'] at already
      refine h.reflag_still (Fleet.only_eq_self (fun s' hs' => ?_))
      rw [found, Option.some.injEq] at hs'
      subst hs'
      exact Session.flags_eta already.1 already.2 rfl
    · exact h.reflag_one id .mute

/-- An unmute is the fleet's. -/
theorem applyUnmute (h : Refines e F) (id : String) :
    Refines (e.applyUnmute id).1 (F.reflag (.only id .unmute)) ∧
      F.Announces (F.settled (F.edit (.only id .unmute)) (.only id .unmute))
        (e.applyUnmute id).2 := by
  unfold MergeEngine.applyUnmute
  rw [h.lookup]
  cases found : F.get? id with
  | none =>
    exact h.reflag_still (Fleet.only_eq_self (fun s hs => by simp [found] at hs))
  | some s =>
    simp only
    split
    · rename_i already
      simp only [Bool.and_eq_true, Bool.not_eq_true'] at already
      refine h.reflag_still (Fleet.only_eq_self (fun s' hs' => ?_))
      rw [found, Option.some.injEq] at hs'
      subst hs'
      exact Session.flags_eta already.1 already.2 rfl
    · exact h.reflag_one id .unmute

/-- The two passes of a solo over the engine are the solo edit of every session. -/
theorem soloPasses (h : Refines e F) (id : String) :
    Refines (((MergeEngine.clearOtherSolos id e.order e).1).setSoloFlag id).1
      (F.edit (.solo id)) := by
  refine h.edit _ (.solo id) ?_ ?_
  · rw [MergeEngine.setSoloFlag_order, MergeEngine.clearOtherSolos_order]
  · intro k
    simp only [MergeEngine.setSoloFlag_lookup,
      MergeEngine.clearOtherSolos_lookup _ _ _ h.indexed.nodup, h.mem_order, h.lookup]
    cases found : F.get? k with
    | none => simp
    | some s =>
      obtain ⟨-, rfl⟩ := Fleet.get?_eq_some_iff.mp found
      by_cases hk : s.sessionId = id
      · simp [hk, Edit.solo, Edit.setFlags]
      · simp [hk, Edit.solo, Edit.setFlags]

/-- A solo of a session that is there is the fleet's. -/
theorem applySolo (h : Refines e F) (id : String) (present : (F.get? id).isSome) :
    Refines (e.applySolo id).1 (F.reflag (.solo id)) ∧
      F.Announces (F.settled (F.edit (.solo id)) (.solo id)) (e.applySolo id).2 := by
  have hmem : id ∈ e.sessions := h.mem_iff.mpr present
  unfold MergeEngine.applySolo
  rw [if_neg (not_not.mpr hmem)]
  refine h.reflag (h.soloPasses id) _ ?_
  intro s hs untouched
  have found : e.sessions.lookup s.sessionId = some s := by
    rw [h.lookup, Fleet.get?_of_mem hs]
  have notCleared : s.sessionId ∉ (MergeEngine.clearOtherSolos id e.order e).2 := by
    intro cleared
    apply untouched
    split
    · exact List.mem_append_left _ cleared
    · exact cleared
  by_cases own : s.sessionId = id
  · have notMoved : ((MergeEngine.clearOtherSolos id e.order e).1.setSoloFlag id).2 = false := by
      rw [Bool.eq_false_iff]
      intro moved
      apply untouched
      rw [if_pos moved]
      exact List.mem_append_right _ (by simp [own])
    have flags := MergeEngine.setSoloFlag_unchanged _ id (s := s) (by
      rw [MergeEngine.clearOtherSolos_lookup _ _ _ h.indexed.nodup, if_neg (by simp), ← own,
        found]) notMoved
    refine Session.flags_eta ?_ ?_ rfl
    · simp [own, flags.2]
    · simp [own, flags.1]
  · rw [MergeEngine.clearOtherSolos_changed _ _ _ h.indexed.nodup, h.mem_order, found,
      Fleet.get?_of_mem hs] at notCleared
    have plain : s.soloed = false := by simpa [own] using notCleared
    refine Session.flags_eta ?_ ?_ rfl
    · simp [own]
    · simp [own, plain]

/-- A solo of one that is not there does nothing. -/
theorem applySolo_absent (h : Refines e F) {id : String} (absent : F.get? id = none) :
    e.applySolo id = (e, []) := by
  have hmem : id ∉ e.sessions := by
    rw [h.mem_iff, absent]
    simp
  rw [MergeEngine.applySolo, if_pos hmem]

/-- A focus takes the unread mark of its session and settles none. -/
theorem applyFocus (h : Refines e F) (id : String) :
    Refines (e.applyFocus id).1 (F.edit (.only id .read)) ∧
      F.Announces (.only id .read) (e.applyFocus id).2.toList := by
  unfold MergeEngine.applyFocus
  rw [h.lookup]
  cases found : F.get? id with
  | none =>
    have still : ∀ s ∈ F.sessions, Edit.only id .read s = s :=
      Fleet.only_eq_self (by simp [found])
    simp only
    rw [Fleet.edit_eq_self still]
    exact ⟨h, Fleet.announces_nil still⟩
  | some s =>
    simp only
    split
    · rename_i seen
      have still : ∀ s ∈ F.sessions, Edit.only id .read s = s := by
        apply Fleet.only_eq_self
        intro s' hs'
        rw [found, Option.some.injEq] at hs'
        subst hs'
        exact Session.flags_eta rfl rfl (by simpa using seen)
      rw [Fleet.edit_eq_self still]
      exact ⟨h, Fleet.announces_nil still⟩
    · obtain ⟨hs, rfl⟩ := Fleet.get?_eq_some_iff.mp found
      refine ⟨?_, fun w => w.sessionId = s.sessionId, ?_, ?_⟩
      · have modified := h.modify s.sessionId .read
        rw [HashMap.modify, h.lookup, found] at modified
        exact modified
      · rw [KeyedList.filter_key_eq F.distinct hs]
        simp [Edit.only]
        rfl
      · intro w _ other
        simp only [decide_eq_false_iff_not] at other
        simp [Edit.only, other]

/-! ## Upserts and removals -/

/-- An upsert of a session is the fleet's. -/
theorem upsertSession (h : Refines e F) (session : Session) :
    Refines (e.upsertSession session).1 (F.upsert session) := by
  unfold MergeEngine.upsertSession
  simp only [Session.updateUnread_fst, h.lookup, h.anySoloed]
  split
  · rename_i hmem
    exact h.insert (F.landed_rolledUp session) hmem
  · rename_i hmem
    exact h.insert_new (F.landed_rolledUp session) hmem

/-- It is told of as an update where the session was there. -/
theorem upsertSession_event (h : Refines e F) (session : Session) :
    (e.upsertSession session).2 =
      if (F.get? session.sessionId).isSome then .ofSessionUpdated (F.landed session)
      else .ofSessionAdded (F.landed session) := by
  unfold MergeEngine.upsertSession
  simp only [Session.updateUnread_fst, h.lookup, h.anySoloed, h.mem_iff,
    Session.settle_sessionId, Session.recomputeRollups_sessionId]
  split <;> rfl

/-- The write-back of a session found under its id is an edit of that session. -/
theorem writeBack (h : Refines e F) {id : String} {s : Session} (found : F.get? id = some s)
    (g : Edit) :
    Refines { e with sessions := e.sessions.insert id (g s) } (F.edit (.only id g)) := by
  have modified := h.modify id g
  rw [HashMap.modify, h.lookup, found] at modified
  exact modified

/-- Runs that are revised to what they were leave the fleet. -/
theorem revise_eq_self {id : String} {f : List AgentRun → List AgentRun}
    (hf : ∀ s, F.get? id = some s → f s.runs = s.runs) : F.revise id f = F := by
  apply Fleet.edit_eq_self
  apply Fleet.only_eq_self
  intro s found
  have rolled : s.RolledUp := F.rolledUp s (Fleet.get?_eq_some_iff.mp found).1
  have same : Edit.setRuns f s = s := by
    change ({ s with runs := f s.runs } : Session).recomputeRollups = s
    rw [hf s found]
    exact rolled
  simp [Fleet.settled, same]

/-- A `retain` that keeps the length keeps the list. -/
theorem revise_of_length {id : String} {s : Session} {p : AgentRun → Bool}
    (found : F.get? id = some s) (same : (s.runs.filter p).length = s.runs.length) :
    F.revise id (fun runs => runs.filter p) = F := by
  apply revise_eq_self
  intro s' hs'
  rw [found, Option.some.injEq] at hs'
  subst hs'
  exact List.filter_sublist.eq_of_length same

/-- An upsert of a run revises the runs of its session. -/
theorem upsertRun (h : Refines e F) (id : String) (run : AgentRun) :
    Refines (e.upsertRun id run).1
      (F.revise id (fun runs => (MergeEngine.upsertRunIn runs run).1)) := by
  unfold MergeEngine.upsertRun
  rw [h.lookup]
  cases found : F.get? id with
  | none =>
    rw [revise_eq_self (by simp [found])]
    exact h
  | some s =>
    simp only [Session.updateUnread_fst, h.anySoloed]
    exact h.writeBack found
      (F.settled F (.setRuns (fun runs => (MergeEngine.upsertRunIn runs run).1)))

/-- It is told of by the run and then by its session. -/
theorem upsertRun_events (h : Refines e F) (id : String) (run : AgentRun) :
    (e.upsertRun id run).2 = match F.get? id with
      | none => []
      | some s =>
        [if (MergeEngine.upsertRunIn s.runs run).2 then .ofRunUpdated id run
          else .ofRunAdded id run,
        .ofSessionUpdated
          (F.settled F (.setRuns (fun runs => (MergeEngine.upsertRunIn runs run).1)) s)] := by
  unfold MergeEngine.upsertRun
  rw [h.lookup]
  cases found : F.get? id with
  | none => rfl
  | some s =>
    simp only [Session.updateUnread_fst, h.anySoloed]
    rfl

/-- A removal of a run revises the runs of its session. -/
theorem removeRun (h : Refines e F) (id runId : String) :
    Refines (e.removeRun id runId).1
      (F.revise id (fun runs => runs.filter (fun r => r.runId ≠ runId))) := by
  unfold MergeEngine.removeRun
  rw [h.lookup]
  cases found : F.get? id with
  | none =>
    rw [revise_eq_self (by simp [found])]
    exact h
  | some s =>
    simp only [Session.updateUnread_fst, h.anySoloed]
    split
    · rename_i same
      rw [revise_of_length found same]
      exact h
    · exact h.writeBack found (F.settled F (.setRuns _))

/-- It is told of by the run and then by its session, where the run was there. -/
theorem removeRun_events (h : Refines e F) (id runId : String) :
    (e.removeRun id runId).2 = match F.get? id with
      | none => []
      | some s =>
        if (s.runs.filter (fun r => r.runId ≠ runId)).length = s.runs.length then []
        else [.ofRunRemoved id runId,
          .ofSessionUpdated
            (F.settled F (.setRuns (fun runs => runs.filter (fun r => r.runId ≠ runId))) s)] := by
  unfold MergeEngine.removeRun
  rw [h.lookup]
  cases found : F.get? id with
  | none => rfl
  | some s =>
    simp only [Session.updateUnread_fst, h.anySoloed]
    split <;> rfl

/-- The removal of a session that is not there leaves the fleet. -/
theorem remove_absent {id : String} (absent : F.get? id = none) : F.remove id = F := by
  have dropped : F.drop id = F := by
    apply Fleet.ext
    rw [Fleet.drop_sessions, KeyedList.erase, List.filter_eq_self]
    intro s hs
    have other : s.sessionId ≠ id := by
      rintro rfl
      exact Fleet.get?_eq_none_iff.mp absent (List.mem_map_of_mem hs)
    simpa using other
  rw [Fleet.remove, dropped, Fleet.edit_eq_self]
  intro s _
  simp [Fleet.settled]

/-- The removal of a session is the fleet's, and the settling of the others is told of after it. -/
theorem removeSessionEvents (h : Refines e F) (id : String) :
    Refines (e.removeSessionEvents id).1 (F.remove id) ∧
      if (F.get? id).isSome then
        ∃ rest, (e.removeSessionEvents id).2 = .ofSessionRemoved id :: rest ∧
          (F.drop id).Announces (F.settled (F.drop id) .keep) rest
      else (e.removeSessionEvents id).2 = [] := by
  unfold MergeEngine.removeSessionEvents
  by_cases present : (F.get? id).isSome
  · have hmem : id ∈ e.sessions := h.mem_iff.mpr present
    rw [if_neg (not_not.mpr hmem), if_pos present]
    have erased := h.erase id
    have before : ∀ s ∈ (F.drop id).sessions,
        e.notifyMap s.sessionId = some (F.notifies s) := by
      intro s hs
      rw [h.notifyMap, Fleet.get?_of_mem (KeyedList.mem_erase.mp hs).1, Option.map_some]
    have same : ∀ s ∈ (F.drop id).sessions, F.settled (F.drop id) .keep s =
        s.settle ((e.notifyMap s.sessionId).getD false) ((F.drop id).notifies s) := by
      intro s hs
      rw [before s hs]
      rfl
    have refined := erased.reconcile e.notifyMap _ same
    have unchanged := fun s hs => erased.reconcile_unchanged e.notifyMap (s := s) hs
    generalize hchanged : (MergeEngine.reconcileUnreadFrom _ e.notifyMap).2 = changed
      at unchanged
    refine ⟨refined, _, rfl, fun s => s.sessionId ∈ changed, ?_, ?_⟩
    · rw [hchanged, refined.updatedEventsFor, Fleet.edit_sessions, List.filter_map, List.map_map]
      simp only [Function.comp_def, Edit.sessionId_act]
    · intro s hs still
      rw [same s hs]
      exact unchanged s hs (by simpa using still)
  · have hmem : id ∉ e.sessions := fun hm => present (h.mem_iff.mp hm)
    rw [if_pos hmem, if_neg present]
    refine ⟨?_, rfl⟩
    rw [remove_absent (by simpa using present)]
    exact h

/-- The loop of a restore appends sessions of fresh ids one by one. -/
theorem restoreLoop (l : List Session) (e : MergeEngine)
    (indexed : OrderedMap.Indexed (fun s : Session => s.sessionId) e.sessions e.order)
    (distinct : ((e.snapshot ++ l).map (fun s => s.sessionId)).Nodup) :
    let e' := l.foldl (fun e session =>
      { sessions := e.sessions.insert session.sessionId session
        order := e.order ++ [session.sessionId] : MergeEngine }) e
    OrderedMap.Indexed (fun s : Session => s.sessionId) e'.sessions e'.order ∧
      e'.snapshot = e.snapshot ++ l := by
  induction l generalizing e with
  | nil => exact ⟨indexed, (List.append_nil _).symm⟩
  | cons s l ih =>
    have fresh : s.sessionId ∉ e.sessions := by
      rw [indexed.mem_iff]
      intro hs
      rw [List.map_append, List.nodup_append] at distinct
      exact distinct.2.2 _ hs _ (by simp) rfl
    have step := indexed.values_insert_new fresh
    rw [KeyedList.upsert_of_notMem (fun hm => fresh (indexed.mem_iff.mpr hm))] at step
    have rest := ih ⟨e.sessions.insert s.sessionId s, e.order ++ [s.sessionId]⟩
      (indexed.insert_new fresh) (by
        rw [MergeEngine.snapshot, step, List.append_assoc]
        exact distinct)
    refine ⟨rest.1, rest.2.trans ?_⟩
    rw [MergeEngine.snapshot, step, List.append_assoc]
    rfl

/-- An engine restored from the sessions of a fleet refines it. -/
theorem restore (F : Fleet) : Refines (MergeEngine.restore F.sessions) F := by
  have built := restoreLoop F.sessions .new OrderedMap.Indexed.empty F.distinct
  exact ⟨built.1, built.2⟩

/-- Every mutation of the engine is the one of the fleet. -/
theorem mutate (h : Refines e F) (m : MergeEngine.Mutation) :
    Refines (e.mutate m).1 (F.mutate m) := by
  cases m with
  | upsertSession session => exact h.upsertSession session
  | removeSessionEvents id => exact (h.removeSessionEvents id).1
  | removeSession id => exact (h.removeSessionEvents id).1
  | upsertRun id run => exact h.upsertRun id run
  | removeRun id runId => exact h.removeRun id runId
  | applyMute id => exact (h.applyMute id).1
  | applyUnmute id => exact (h.applyUnmute id).1
  | applySolo id =>
    simp only [MergeEngine.mutate, Fleet.mutate, Fleet.solo]
    split
    · rename_i present
      exact (h.applySolo id present).1
    · rename_i absent
      rw [h.applySolo_absent (by simpa using absent)]
      exact h
  | applyFocus id => exact (h.applyFocus id).1

/-- A run of mutations refines the run of their meanings. -/
theorem mutateAll (ms : List MergeEngine.Mutation) : ∀ {e : MergeEngine} {F : Fleet},
    Refines e F → Refines (MergeEngine.mutateAll ms e).1 (ms.foldl Fleet.mutate F) := by
  induction ms with
  | nil => exact fun h => h
  | cons m ms ih => exact fun h => ih (h.mutate m)

end Refines

end VsFleet
