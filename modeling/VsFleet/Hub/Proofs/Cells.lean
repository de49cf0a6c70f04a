import VsFleet.Hub.Cell
import VsFleet.Hub.Proofs.Marks
import VsFleet.Hub.Proofs.MessageSteps
import VsFleet.Hub.Proofs.Unread
import VsFleet.Misc.Runs

/-!
# The Hub is its sessions side by side

As long as nobody solos, a message about one session acts on the cell of that session and leaves
every other cell as it was. What the Hub keeps for a session therefore depends on the messages about
it and their order, and not on what came between them.
-/

namespace VsFleet

open MergeEngine (Mutation)

/-- The mutations that raise no solo. -/
def MergeEngine.Mutation.Unsoloed : Mutation → Prop
  | .upsertSession session => session.soloed = false
  | .applySolo _ => False
  | _ => True

namespace Fleet

variable {F : Fleet} {id : String}

theorem notifies_unsoloed (calm : F.anySoloed = false) (s : Session) : F.notifies s = s.rings := by
  rw [notifies, calm]
  rfl

theorem settled_unsoloed {F' : Fleet} (calm : F.anySoloed = false) (calm' : F'.anySoloed = false)
    (g : Edit) (s : Session) : F.settled F' g s = g.settles s := by
  change (g s).settle (F.notifies s) (F'.notifies (g s)) = _
  rw [notifies_unsoloed calm, notifies_unsoloed calm', Edit.settles]

/-- An edit that raises no solo keeps the fleet unsoloed. -/
theorem anySoloed_edit (calm : F.anySoloed = false) {g : Edit}
    (raises : ∀ s, s.soloed = false → (g s).soloed = false) : (F.edit g).anySoloed = false := by
  rw [anySoloed, List.any_eq_false] at calm ⊢
  intro w hw
  obtain ⟨s, hs, rfl⟩ := List.mem_map.mp hw
  have unsoloed : s.soloed = false := by simpa using calm s hs
  simpa using raises s unsoloed

theorem only_raises {g : Edit} (raises : ∀ s, s.soloed = false → (g s).soloed = false)
    (id : String) (s : Session) (unsoloed : s.soloed = false) :
    (Edit.only id g s).soloed = false := by
  change (if s.sessionId = id then g s else s).soloed = false
  split
  · exact raises s unsoloed
  · exact unsoloed

/-- The edit of one session, read at an id. -/
theorem get?_edit_only (g : Edit) (id' : String) :
    (F.edit (.only id' g)).get? id = if id' = id then (F.get? id).map g else F.get? id := by
  rw [get?_edit]
  split
  · rename_i own
    refine Option.map_congr (fun s found => ?_)
    change (if s.sessionId = id' then g s else s) = g s
    rw [if_pos ((get?_eq_some_iff.mp found).2.trans own.symm)]
  · rename_i other
    refine (Option.map_congr (fun s found => ?_)).trans Option.map_id'
    change (if s.sessionId = id' then g s else s) = s
    rw [if_neg (fun own => other (own.symm.trans (get?_eq_some_iff.mp found).2))]

theorem settles_only (g : Edit) (id' : String) (s : Session) :
    (Edit.only id' g).settles s = if s.sessionId = id' then g.settles s else s := by
  change (Session.settle (if s.sessionId = id' then g s else s) _ (Session.rings
    (if s.sessionId = id' then g s else s))) = _
  split
  · rfl
  · exact Session.settle_self ..

/-- A settled edit of one session, read at an id. -/
theorem get?_reflag_only (calm : F.anySoloed = false) {g : Edit}
    (raises : ∀ s, s.soloed = false → (g s).soloed = false) (id' : String) :
    (F.reflag (.only id' g)).get? id =
      if id' = id then (F.get? id).map g.settles else F.get? id := by
  have calm' := anySoloed_edit calm (only_raises raises id')
  rw [reflag, get?_edit]
  have own : ∀ s, F.get? id = some s → F.settled (F.edit (.only id' g)) (.only id' g) s =
      if id' = id then g.settles s else s := by
    intro s found
    rw [settled_unsoloed calm calm', settles_only, (get?_eq_some_iff.mp found).2]
    simp only [eq_comm]
  split
  · rename_i same
    exact Option.map_congr (fun s found => by rw [own s found, if_pos same])
  · rename_i other
    refine (Option.map_congr (fun s found => ?_)).trans Option.map_id'
    rw [own s found, if_neg other]

theorem anySoloed_reflag_only (calm : F.anySoloed = false) {g : Edit}
    (raises : ∀ s, s.soloed = false → (g s).soloed = false) (id' : String) :
    (F.reflag (.only id' g)).anySoloed = false :=
  anySoloed_edit calm (fun s unsoloed => only_raises raises id' s unsoloed)

theorem anySoloed_drop (calm : F.anySoloed = false) (id' : String) :
    (F.drop id').anySoloed = false := by
  rw [anySoloed, List.any_eq_false] at calm ⊢
  exact fun s hs => calm s (KeyedList.mem_erase.mp hs).1

theorem anySoloed_put (calm : F.anySoloed = false) {s : Session} (h : s.RolledUp)
    (unsoloed : s.soloed = false) : (F.put s h).anySoloed = false := by
  rw [anySoloed, List.any_eq_false] at calm ⊢
  intro w hw
  rcases KeyedList.mem_upsert.mp hw with rfl | ⟨hw, -⟩
  · simp [unsoloed]
  · exact calm w hw

theorem get?_remove (calm : F.anySoloed = false) (id' : String) :
    (F.remove id').get? id = if id' = id then none else F.get? id := by
  have same : ∀ s, F.settled (F.drop id') .keep s = s := by
    intro s
    rw [settled_unsoloed calm (anySoloed_drop calm id'), Edit.settles, Edit.keep_act,
      Session.settle_self]
  rw [remove, get?_edit, get?_drop, show (F.settled (F.drop id') .keep).act = fun s => s from
    funext same, Option.map_id']
  simp only [eq_comm]

theorem get?_revise_unsoloed (calm : F.anySoloed = false) (id' : String)
    (f : List AgentRun → List AgentRun) : (F.revise id' f).get? id =
      if id' = id then (F.get? id).map (Edit.setRuns f).settles else F.get? id := by
  rw [revise, get?_edit_only, show (F.settled F (.setRuns f)).act = (Edit.setRuns f).settles from
    funext (settled_unsoloed calm calm _)]

/-- Without solos a mutation is one of the session it is about. -/
theorem get?_mutate (calm : F.anySoloed = false) {m : Mutation} (unsoloed : m.Unsoloed) :
    (F.mutate m).get? id = if m.subject = id then m.onSession (F.get? id) else F.get? id := by
  cases m with
  | upsertSession session =>
    refine get?_upsert.trans ?_
    change (if session.sessionId = id then _ else _) = if session.sessionId = id then _ else _
    split
    · rename_i own
      rw [landed, notifies_unsoloed calm, own, funext (notifies_unsoloed calm)]
      rfl
    · rfl
  | removeSessionEvents id' => exact get?_remove calm id'
  | removeSession id' => exact get?_remove calm id'
  | upsertRun id' run => exact get?_revise_unsoloed calm id' _
  | removeRun id' runId => exact get?_revise_unsoloed calm id' _
  | applyMute id' => exact get?_reflag_only calm (fun _ _ => rfl) id'
  | applyUnmute id' => exact get?_reflag_only calm (fun _ _ => rfl) id'
  | applySolo id' => cases unsoloed
  | applyFocus id' => exact get?_edit_only .read id'

theorem anySoloed_mutate (calm : F.anySoloed = false) {m : Mutation} (unsoloed : m.Unsoloed) :
    (F.mutate m).anySoloed = false := by
  cases m with
  | upsertSession session => exact anySoloed_put calm (F.landed_rolledUp session) unsoloed
  | removeSessionEvents id' =>
    exact anySoloed_edit (anySoloed_drop calm id') (fun _ unsoloed => unsoloed)
  | removeSession id' =>
    exact anySoloed_edit (anySoloed_drop calm id') (fun _ unsoloed => unsoloed)
  | upsertRun id' run => exact (anySoloed_revise id' _).trans calm
  | removeRun id' runId => exact (anySoloed_revise id' _).trans calm
  | applyMute id' => exact anySoloed_reflag_only calm (fun _ _ => rfl) id'
  | applyUnmute id' => exact anySoloed_reflag_only calm (fun _ _ => rfl) id'
  | applySolo id' => cases unsoloed
  | applyFocus id' => exact anySoloed_edit calm (only_raises (fun _ unsoloed => unsoloed) id')

end Fleet

/-! ## The cells of the store -/

section

variable {owner : DurableId → String}

/-- The run list of an upsert holds the run and no other new one. -/
theorem MergeEngine.mem_of_mem_upsertRunIn {runs : List AgentRun} {run r : AgentRun}
    (mem : r ∈ (upsertRunIn runs run).1) : r = run ∨ r ∈ runs := by
  induction runs with
  | nil => exact Or.inl (List.mem_singleton.mp mem)
  | cons first runs ih =>
    rw [upsertRunIn] at mem
    split at mem
    · rcases List.mem_cons.mp mem with rfl | mem
      · exact Or.inl rfl
      · exact Or.inr (List.mem_cons_of_mem first mem)
    · rcases List.mem_cons.mp mem with rfl | mem
      · exact Or.inr (List.mem_cons_self ..)
      · exact (ih mem).imp_right (List.mem_cons_of_mem first)

/-- The runs a mutation brings in are the session's. -/
def MergeEngine.Mutation.Owned (owner : DurableId → String) : Mutation → Prop
  | .upsertSession session => ∀ r ∈ session.runs, owner ⟨r.nativeId⟩ = session.sessionId
  | .upsertRun id run => owner ⟨run.nativeId⟩ = id
  | _ => True

/-- The runs of a session as a mutation about it leaves them are those it had, or brought in. -/
theorem MergeEngine.Mutation.mem_onSession {m : Mutation} (own : m.Owned owner)
    {held : Option Session} {s : Session} (found : m.onSession held = some s) {r : AgentRun}
    (mem : r ∈ s.runs) : owner ⟨r.nativeId⟩ = m.subject ∨ ∃ s ∈ held, r ∈ s.runs := by
  cases m with
  | upsertSession session =>
    cases found
    exact Or.inl (own r mem)
  | removeSessionEvents id => cases found
  | removeSession id => cases found
  | upsertRun id run =>
    obtain ⟨before, held, rfl⟩ := Option.map_eq_some_iff.mp found
    rcases MergeEngine.mem_of_mem_upsertRunIn mem with rfl | mem
    · exact Or.inl own
    · exact Or.inr ⟨before, held, mem⟩
  | removeRun id runId =>
    obtain ⟨before, held, rfl⟩ := Option.map_eq_some_iff.mp found
    exact Or.inr ⟨before, held, (List.mem_filter.mp mem).1⟩
  | applyMute id | applyUnmute id | applySolo id | applyFocus id =>
    obtain ⟨before, held, rfl⟩ := Option.map_eq_some_iff.mp found
    exact Or.inr ⟨before, held, mem⟩

namespace StateStore

/-- Nobody is soloed, and the durable ids of a session, in its runs and in its index entry, are its
own. -/
structure Calm (owner : DurableId → String) (store : StateStore) : Prop where
  fleet : ∃ F, Refines store.engine F ∧ F.anySoloed = false
  runs : ∀ id, ∀ s ∈ store.engine.session id, ∀ r ∈ s.runs, owner ⟨r.nativeId⟩ = id
  indexed : ∀ id, ∀ d ∈ store.durablesOf id, owner d = id

/-- A calm store becomes another calm one by what happens in the cell of one session. -/
structure Confined (owner : DurableId → String) (store after : StateStore) (id : String)
    (act : Cell → Cell) : Prop where
  calm : after.Calm owner
  cells : ∀ id', after.cell owner id' =
    if id = id' then act (store.cell owner id') else store.cell owner id'

variable {store after later : StateStore} {id : String} {act act' : Cell → Cell}

theorem Confined.trans (h : Confined owner store after id act)
    (h' : Confined owner after later id act') :
    Confined owner store later id (fun c => act' (act c)) := by
  refine ⟨h'.calm, fun id' => ?_⟩
  rw [h'.cells, h.cells]
  split <;> rfl

theorem Confined.congr (h : Confined owner store after id act)
    (same : act (store.cell owner id) = act' (store.cell owner id)) :
    Confined owner store after id act' := by
  refine ⟨h.calm, fun id' => ?_⟩
  rw [h.cells]
  split
  · rename_i own
    rw [← own, same]
  · rfl

/-- The same fleet, marks and index make the same cells; the log is in none. -/
theorem Calm.idle (calm : store.Calm owner)
    (same : ∀ F, Refines store.engine F → Refines after.engine F)
    (upkeep : after.reclaim = store.reclaim ∧ after.sessionDurables = store.sessionDurables)
    (still : act (store.cell owner id) = store.cell owner id) :
    Confined owner store after id act := by
  obtain ⟨F, refines, quiet⟩ := calm.fleet
  have session : ∀ id, after.engine.session id = store.engine.session id := by
    intro id
    rw [(same F refines).session, refines.session]
  have cells : ∀ id, after.cell owner id = store.cell owner id := by
    intro id
    rw [cell, session, upkeep.1, upkeep.2]
    rfl
  refine ⟨⟨⟨F, same F refines, quiet⟩, ?_, ?_⟩, fun id' => ?_⟩
  · simpa only [session] using calm.runs
  · intro id
    rw [durablesOf, upkeep.2]
    exact calm.indexed id
  · rw [cells]
    split
    · rename_i own
      rw [← own, still]
    · rfl

/-- A mutation of a calm store, its marks and its index left alone. -/
theorem Calm.mutate (calm : store.Calm owner) {m : Mutation} (unsoloed : m.Unsoloed)
    (own : m.Owned owner) (engine : after.engine = (store.engine.mutate m).1)
    (upkeep : after.reclaim = store.reclaim ∧ after.sessionDurables = store.sessionDurables) :
    Confined owner store after m.subject (fun c => c.mutate m) := by
  obtain ⟨F, refines, quiet⟩ := calm.fleet
  have refines' : Refines after.engine (F.mutate m) := engine ▸ refines.mutate m
  have session : ∀ id, after.engine.session id = if m.subject = id then
      m.onSession (store.engine.session id) else store.engine.session id := by
    intro id
    rw [refines'.session, Fleet.get?_mutate quiet unsoloed, refines.session]
  refine ⟨⟨⟨_, refines', Fleet.anySoloed_mutate quiet unsoloed⟩, ?_, ?_⟩, ?_⟩
  · intro id s found
    rw [session] at found
    split at found
    · rename_i same
      intro r mem
      rcases m.mem_onSession own found mem with owned | ⟨before, held, mem⟩
      · exact owned.trans same
      · exact calm.runs id before held r mem
    · exact calm.runs id s found
  · intro id
    rw [durablesOf, upkeep.2]
    exact calm.indexed id
  · intro id
    rw [cell, session, upkeep.1, upkeep.2]
    split <;> rfl

/-- The durable id of an admitted delta enters the index of its session, under its mark. -/
theorem Calm.admitted (calm : store.Calm owner) {d : DurableId} (own : owner d = id)
    {epoch seq : Nat} (applies : (store.reclaim.classify d epoch seq).applies = true) :
    Confined owner store (store.admitted id d epoch seq) id (fun c => c.admitDelta d epoch seq) := by
  refine ⟨⟨calm.fleet, calm.runs, fun id' d' mem => ?_⟩, fun id' => ?_⟩
  · rcases (store.mem_durablesOf_admitted epoch seq).mp mem with ⟨rfl, rfl⟩ | mem
    · exact own
    · exact calm.indexed id' d' mem
  · rw [cell, StateStore.admitted]
    simp only [ReclaimTable.mark_admitDelta, applies, and_true]
    split
    · rename_i same
      subst same
      rw [AList.lookup_insert]
      simp only [Cell.admitDelta, cell, Cell.mk.injEq, true_and]
      funext d'
      by_cases here : d' = d
      · rw [if_pos here, if_pos here, here, if_pos own]
      · rw [if_neg here, if_neg here]
    · rename_i other
      rw [AList.lookup_insert_ne (fun same => other same.symm)]
      simp only [cell, Cell.mk.injEq, true_and]
      funext d'
      split
      · rename_i theirs
        rw [if_neg]
        rintro rfl
        exact other (own.symm.trans theirs)
      · rfl

/-- The marks and the index entry of a session go. -/
theorem Calm.dropSessionReclaim (calm : store.Calm owner) (id : String) :
    Confined owner store (store.dropSessionReclaim id) id (fun c =>
      { c with
        durables := none
        marks := fun d => if d ∈ c.durables.getD [] then none else c.marks d }) := by
  have lookup : ∀ id', (store.dropSessionReclaim id).sessionDurables.lookup id' =
      if id = id' then none else store.sessionDurables.lookup id' := by
    intro id'
    unfold StateStore.dropSessionReclaim
    cases found : store.sessionDurables.lookup id with
    | none =>
      simp only
      split
      · rename_i same
        exact same ▸ found
      · rfl
    | some ids =>
      simp only
      split
      · rename_i same
        exact same ▸ AList.lookup_erase ..
      · rename_i other
        exact AList.lookup_erase_ne (fun same => other same.symm)
  refine ⟨⟨by simpa using calm.fleet, by simpa using calm.runs, fun id' d mem => ?_⟩,
    fun id' => ?_⟩
  · rw [durablesOf, lookup] at mem
    split at mem
    · cases mem
    · exact calm.indexed id' d mem
  · rw [cell, lookup, dropSessionReclaim_engine]
    simp only [mark_dropSessionReclaim]
    split
    · rename_i same
      subst same
      simp only [cell, Cell.mk.injEq, true_and]
      funext d
      rw [durablesOf]
      split <;> split <;> rfl
    · rename_i other
      simp only [cell, Cell.mk.injEq, true_and]
      funext d
      split
      · rename_i theirs
        rw [if_neg]
        intro mem
        exact other ((calm.indexed id d mem).symm.trans theirs)
      · rfl

/-- A durable id of a session leaves it with its last run. -/
theorem Calm.pruneDurable (calm : store.Calm owner) {d : DurableId} (own : owner d = id) :
    Confined owner store (store.pruneDurable id d) id (fun c => c.prune d) := by
  by_cases used : ((store.engine.session id).map
      (fun s => s.runs.any (fun r => r.nativeId = d.val))).getD false = true
  · have kept : store.pruneDurable id d = store := by
      rw [StateStore.pruneDurable]
      exact if_pos used
    rw [kept]
    exact calm.idle (fun _ h => h) ⟨rfl, rfl⟩ (if_pos used)
  · have lookup : ∀ id', (store.pruneDurable id d).sessionDurables.lookup id' =
        if id = id' then (store.sessionDurables.lookup id').bind (fun set =>
          if (set.filter (fun id => id ≠ d)).isEmpty then none
          else some (set.filter (fun id => id ≠ d)))
        else store.sessionDurables.lookup id' := by
      intro id'
      rw [StateStore.pruneDurable]
      simp only [used, if_false, Bool.false_eq_true]
      by_cases same : id = id'
      · subst same
        rw [if_pos rfl]
        cases found : store.sessionDurables.lookup id with
        | none => simp only [found, Option.bind_none]
        | some set =>
          simp only [Option.bind_some]
          split
          · exact AList.lookup_erase ..
          · exact AList.lookup_insert ..
      · rw [if_neg same]
        split
        · rfl
        · split
          · exact AList.lookup_erase_ne (fun same' => same same'.symm)
          · exact AList.lookup_insert_ne (fun same' => same same'.symm)
    have mark : ∀ d', (store.pruneDurable id d).reclaim.mark d' =
        if d' = d then none else store.reclaim.mark d' := by
      intro d'
      rw [StateStore.pruneDurable]
      simp only [used, if_false, Bool.false_eq_true]
      exact ReclaimTable.mark_dropId ..
    refine ⟨⟨by simpa using calm.fleet, by simpa using calm.runs, fun id' d' mem => ?_⟩,
      fun id' => ?_⟩
    · refine calm.indexed id' d' ?_
      rw [durablesOf, lookup] at mem
      rw [durablesOf]
      split at mem
      · cases found : store.sessionDurables.lookup id' with
        | none =>
          rw [found] at mem
          cases mem
        | some set =>
          rw [found, Option.bind_some] at mem
          split at mem
          · cases mem
          · exact (List.mem_filter.mp mem).1
      · exact mem
    · rw [cell, lookup, pruneDurable_engine]
      simp only [mark]
      split
      · rename_i same
        subst same
        refine Eq.trans ?_ (if_neg used).symm
        simp only [cell, Cell.mk.injEq, true_and]
        funext d'
        split <;> split <;> rfl
      · rename_i other
        simp only [cell, Cell.mk.injEq, true_and]
        funext d'
        split
        · rename_i theirs
          rw [if_neg]
          rintro rfl
          exact other (own.symm.trans theirs)
        · rfl

/-! ## The messages -/

theorem Calm.unsoloed (calm : store.Calm owner) {s : Session}
    (found : store.engine.session id = some s) : s.soloed = false := by
  obtain ⟨F, refines, quiet⟩ := calm.fleet
  rw [Fleet.anySoloed, List.any_eq_false] at quiet
  rw [refines.session] at found
  simpa using quiet s (Fleet.get?_eq_some_iff.mp found).1

theorem Calm.applySessionUpsert (calm : store.Calm owner) {session : Session}
    (own : (ClientMessage.sessionUpsert session).Owned owner) :
    Confined owner store (store.applySessionUpsert session).2 session.sessionId
      (fun c => c.receive (store.log.faults.headD false) (.sessionUpsert session)) := by
  have preserved : (store.cell owner session.sessionId).preserve session =
      store.preserveHubOwnedFields session := rfl
  obtain ⟨sid, runs⟩ := store.preserveHubOwnedFields_session session
  rw [StateStore.applySessionUpsert]
  cases fails : store.log.faults.headD false with
  | true =>
    rw [logAndApply_failed store _ fails]
    exact calm.idle (fun _ h => h) ⟨rfl, rfl⟩ rfl
  | false =>
    rw [logAndApply_ok store _ fails]
    have unsoloed : (store.preserveHubOwnedFields session).soloed = false := by
      unfold preserveHubOwnedFields
      split
      · exact own.1
      · rename_i found
        exact (calm.unsoloed found :)
    have theirs : ∀ r ∈ (store.preserveHubOwnedFields session).runs,
        owner ⟨r.nativeId⟩ = (store.preserveHubOwnedFields session).sessionId := by
      rw [runs, sid]
      exact own.2
    have step : Confined owner store { store with
        log := store.log.push (.sessionUpsert (store.preserveHubOwnedFields session))
        engine := (store.engine.mutate (.upsertSession (store.preserveHubOwnedFields session))).1 }
        (store.preserveHubOwnedFields session).sessionId
        (fun c => c.mutate (.upsertSession (store.preserveHubOwnedFields session))) :=
      calm.mutate (m := .upsertSession (store.preserveHubOwnedFields session)) unsoloed theirs rfl
        ⟨rfl, rfl⟩
    rw [sid] at step
    exact step.congr rfl

theorem Calm.applySessionRemove (calm : store.Calm owner) (id : String) :
    Confined owner store (store.applySessionRemove id).2 id (fun c =>
      c.receive (store.log.faults.headD false) (.sessionRemove id)) := by
  rcases store.applySessionRemove_cases id with ⟨absent, eq⟩ | ⟨live, fails, eq⟩ | ⟨live, fails, eq⟩
  · rw [eq]
    refine calm.idle (fun _ h => h) ⟨rfl, rfl⟩ (if_pos ?_)
    rw [cell, absent]
    rfl
  · rw [eq]
    exact calm.idle (fun _ h => h) ⟨rfl, rfl⟩ (if_pos (by rw [fails, Bool.or_true]))
  · rw [eq, fails]
    have step : Confined owner store { store with
        log := store.log.push (.sessionRemove id)
        engine := (store.engine.removeSessionEvents id).1 } id
        (fun c => c.mutate (.removeSessionEvents id)) :=
      calm.mutate (m := .removeSessionEvents id) trivial trivial rfl ⟨rfl, rfl⟩
    have present : (store.cell owner id).session.isNone = false :=
      Option.isNone_eq_false_iff.mpr live
    refine (step.trans (step.calm.dropSessionReclaim id)).congr ?_
    refine Eq.trans ?_ (if_neg (c := (store.cell owner id).session.isNone || false) ?_).symm
    · rfl
    · rw [present]
      decide

theorem Calm.applyRunUpsert (calm : store.Calm owner) {run : AgentRun}
    (own : owner ⟨run.nativeId⟩ = id) :
    Confined owner store (store.applyRunUpsert id run).2 id (fun c =>
      if store.log.faults.headD false then c else c.mutate (.upsertRun id run)) := by
  rcases store.applyRunUpsert_cases id run with ⟨absent, eq⟩ | ⟨live, fails, eq⟩ | ⟨live, fails, eq⟩
  · rw [eq]
    refine calm.idle (fun _ h => h) ⟨rfl, rfl⟩ ?_
    split
    · rfl
    · rw [Cell.mutate, cell, absent]
      rfl
  · rw [eq]
    exact calm.idle (fun _ h => h) ⟨rfl, rfl⟩ (if_pos fails)
  · rw [eq]
    refine Confined.congr (calm.mutate (m := .upsertRun id run) trivial own rfl ⟨rfl, rfl⟩) ?_
    rw [fails]
    rfl

theorem Calm.applyRunUpsertSeq (calm : store.Calm owner) {run : AgentRun} {d : DurableId}
    {epoch seq : Nat} (own : owner ⟨run.nativeId⟩ = id) (durable : owner d = id) :
    Confined owner store (store.applyRunUpsertSeq id run d epoch seq).2 id (fun c =>
      if c.session.isNone || (Cell.classify (c.marks d) epoch seq).drops then c
      else if store.log.faults.headD false then c.admitDelta d epoch seq
      else (c.admitDelta d epoch seq).mutate (.upsertRun id run)) := by
  have mark : (store.cell owner id).marks d = store.reclaim.mark d := if_pos durable
  have gate : Cell.classify ((store.cell owner id).marks d) epoch seq =
      store.reclaim.classify d epoch seq := by
    rw [mark]
    rfl
  have admits : (store.engine.session id).isSome → (store.reclaim.classify d epoch seq).drops =
      false → ((store.cell owner id).session.isNone ||
        (Cell.classify ((store.cell owner id).marks d) epoch seq).drops) = false := by
    intro live drops
    rw [gate, drops, Bool.or_false]
    exact Option.isNone_eq_false_iff.mpr live
  have applies : (store.reclaim.classify d epoch seq).drops = false →
      (store.reclaim.classify d epoch seq).applies = true := by
    intro drops
    simpa [Decision.drops] using drops
  rcases store.applyRunUpsertSeq_cases id run d epoch seq with
    ⟨absent, eq⟩ | ⟨live, drops, eq⟩ | ⟨live, drops, fails, eq⟩ | ⟨live, drops, fails, eq⟩
  · rw [eq]
    refine calm.idle (fun _ h => h) ⟨rfl, rfl⟩ (if_pos ?_)
    rw [show (store.cell owner id).session = none from absent]
    rfl
  · rw [eq]
    exact calm.idle (fun _ h => h) ⟨rfl, rfl⟩ (if_pos (by rw [gate, drops, Bool.or_true]))
  · rw [eq, fails]
    have step := calm.admitted durable (applies drops)
    have failed : Confined owner (store.admitted id d epoch seq)
        { store.admitted id d epoch seq with log := store.log.failed } id (fun c => c) :=
      step.calm.idle (fun _ h => h) ⟨rfl, rfl⟩ rfl
    refine (step.trans failed).congr ?_
    simp only [admits live drops]
    rfl
  · rw [eq, fails]
    have step := calm.admitted durable (applies drops)
    have landed : Confined owner (store.admitted id d epoch seq)
        { store.admitted id d epoch seq with
          log := store.log.push (.runUpsert id run)
          engine := (store.engine.upsertRun id run).1 } id
        (fun c => c.mutate (.upsertRun id run)) :=
      step.calm.mutate (m := .upsertRun id run) trivial own rfl ⟨rfl, rfl⟩
    refine (step.trans landed).congr ?_
    simp only [admits live drops]
    rfl

theorem Calm.applyRunRemove (calm : store.Calm owner) (id runId : String) :
    Confined owner store (store.applyRunRemove id runId).2 id (fun c =>
      c.receive (store.log.faults.headD false) (.runRemove id runId)) := by
  have held : (store.cell owner id).session.bind
      (fun s => s.runs.find? (fun r => r.runId = runId)) = store.runOf id runId := rfl
  rcases store.applyRunRemove_cases id runId with
    ⟨absent, eq⟩ | ⟨run, found, fails, eq⟩ | ⟨run, found, fails, eq⟩
  · rw [eq]
    refine calm.idle (fun _ h => h) ⟨rfl, rfl⟩ ?_
    rw [Cell.receive, held, absent]
  · rw [eq]
    refine calm.idle (fun _ h => h) ⟨rfl, rfl⟩ ?_
    rw [Cell.receive, held, found, fails]
    rfl
  · rw [eq]
    have own : owner ⟨run.nativeId⟩ = id := by
      obtain ⟨s, live, mem⟩ := Option.bind_eq_some_iff.mp found
      exact calm.runs id s live run (List.mem_of_find?_eq_some mem)
    have step : Confined owner store { store with
        log := store.log.push (.runRemove id runId)
        engine := (store.engine.removeRun id runId).1 } id
        (fun c => c.mutate (.removeRun id runId)) :=
      calm.mutate (m := .removeRun id runId) trivial trivial rfl ⟨rfl, rfl⟩
    refine (step.trans (step.calm.pruneDurable own)).congr ?_
    rw [Cell.receive, held, found, fails]
    rfl

/-- A flag change about one session appends at most once; where that fails, it is rolled back. -/
theorem Calm.applyFlagChange (calm : store.Calm owner) {m : Mutation}
    {project : MergeEngine → MergeEngine × List Event} {fails : Bool}
    (faults : store.log.faults = [fails]) (projects : project store.engine = store.engine.mutate m)
    (unsoloed : m.Unsoloed) (own : m.Owned owner)
    (announces : ∀ F, Refines store.engine F → ∃ G, (F.mutate m) = F.edit G ∧
      F.Announces G (store.engine.mutate m).2) :
    Confined owner store (store.applyFlagChange project).2 m.subject (fun c =>
      if fails then c else c.mutate m) := by
  rw [StateStore.applyFlagChange, projects]
  simp only
  cases fails with
  | false =>
    have healthy : ∀ (sessions : List Session) (log : EventLog), true ∉ log.faults →
        (appendUpdated sessions log).1 = none := by
      intro sessions
      induction sessions with
      | nil => exact fun _ _ => rfl
      | cons s sessions ih =>
        intro log healthy
        rw [appendUpdated, log.append_ok _ (EventLog.head_healthy healthy)]
        exact ih _ (EventLog.push_healthy healthy _)
    have none := healthy ((store.engine.mutate m).2.filterMap sessionOfUpdated) store.log
      (by rw [faults]; simp)
    split
    · exact calm.mutate unsoloed own rfl ⟨rfl, rfl⟩
    · rename_i failed
      rw [failed] at none
      cases none
  | true =>
    obtain ⟨F, refines, -⟩ := calm.fleet
    split
    · rename_i appended
      refine calm.idle (fun F refines => ?_) ⟨rfl, rfl⟩ rfl
      obtain ⟨G, edited, moved, events, still⟩ := announces F refines
      have rows : (store.engine.mutate m).2.filterMap sessionOfUpdated = [] := by
        cases rows : (store.engine.mutate m).2.filterMap sessionOfUpdated with
        | nil => rfl
        | cons s rest =>
          rw [rows, appendUpdated, store.log.append_failed _ (by rw [faults]; rfl)] at appended
          cases appended
      have unmoved : F.sessions.filter moved = [] := by
        rw [events, List.filterMap_map] at rows
        have all : (sessionOfUpdated ∘ fun s => Event.ofSessionUpdated (G s)) =
          fun s => some (G s) := rfl
        rw [all] at rows
        simpa using rows
      have same : F.edit G = F := by
        refine Fleet.edit_eq_self (fun s hs => still s hs ?_)
        rw [List.filter_eq_nil_iff] at unmoved
        simpa using unmoved s hs
      have after := refines.mutate m
      rw [edited, same] at after
      exact after
    · refine calm.idle (fun F refines => ?_) ⟨rfl, rfl⟩ rfl
      rw [refines.snapshot]
      exact Refines.restore F

theorem Calm.mute (calm : store.Calm owner) {fails : Bool} (faults : store.log.faults = [fails])
    (id : String) : Confined owner store (store.applyMute id).2 id (fun c =>
      if fails then c else c.mutate (.applyMute id)) :=
  calm.applyFlagChange (m := .applyMute id) faults rfl trivial trivial
    (fun _ h => ⟨_, rfl, (h.applyMute id).2⟩)

theorem Calm.unmute (calm : store.Calm owner) {fails : Bool} (faults : store.log.faults = [fails])
    (id : String) : Confined owner store (store.applyUnmute id).2 id (fun c =>
      if fails then c else c.mutate (.applyUnmute id)) :=
  calm.applyFlagChange (m := .applyUnmute id) faults rfl trivial trivial
    (fun _ h => ⟨_, rfl, (h.applyUnmute id).2⟩)

/-- A focus lands whether or not its append does. -/
theorem Calm.focus (calm : store.Calm owner) (id : String) :
    Confined owner store (store.applyFocus id).2 id (fun c => c.mutate (.applyFocus id)) :=
  calm.mutate (m := .applyFocus id) trivial trivial (store.applyFocus_did id).of_ok
    (store.applyFocus_upkeep id)

/-- A message about a session does in its cell what it says, and nothing in any other. -/
theorem Calm.applyMessage (calm : store.Calm owner) (iter : IterOrder Session) {fails : Bool}
    (faults : store.log.faults = [fails]) {msg : ClientMessage} (own : msg.Owned owner) :
    ∃ id, msg.subject = some id ∧
      Confined owner store (store.applyMessage iter msg).2 id (fun c => c.receive fails msg) := by
  have head : store.log.faults.headD false = fails := by rw [faults, List.headD_cons]
  cases msg with
  | subscribe => cases own
  | sessionUpsert session => exact ⟨_, rfl, head ▸ calm.applySessionUpsert own⟩
  | sessionRemove id => exact ⟨id, rfl, head ▸ calm.applySessionRemove id⟩
  | runRemove id runId => exact ⟨id, rfl, head ▸ calm.applyRunRemove id runId⟩
  | runUpsert id run stamp =>
    cases stamp with
    | none => exact ⟨id, rfl, head ▸ calm.applyRunUpsert own.1⟩
    | some s =>
      have step : Confined owner store
          (store.applyRunUpsertSeq id run ⟨s.durableId⟩ s.epoch s.seq).2 id _ :=
        calm.applyRunUpsertSeq own.1 (own.2 s rfl)
      rw [head] at step
      refine ⟨id, rfl, ?_⟩
      rw [StateStore.applyMessage]
      split
      · rename_i outcome
        rw [outcome] at step
        exact step
      · rename_i outcome
        rw [outcome] at step
        exact step
  | command command =>
    cases command with
    | focus version target =>
      cases target with
      | session id => exact ⟨id, rfl, calm.focus id⟩
      | run runId => cases own
    | mute version id => exact ⟨id, rfl, calm.mute faults id⟩
    | unmute version id => exact ⟨id, rfl, calm.unmute faults id⟩
    | solo version id => cases own
    | dismiss version target =>
      cases target with
      | session id => exact ⟨id, rfl, head ▸ calm.applySessionRemove id⟩
      | run runId => cases own
    | setTags version id tags => cases own

theorem Calm.report (calm : store.Calm owner) (iter : IterOrder Session) {r : Report}
    (own : r.msg.Owned owner) : (store.report iter r).Calm owner ∧ ∀ id,
      (store.report iter r).cell owner id = if r.msg.subject = some id then
        (store.cell owner id).receive r.fails r.msg else store.cell owner id := by
  have facing : Calm owner { store with log := { store.log with faults := [r.fails] } } :=
    ⟨calm.fleet, calm.runs, calm.indexed⟩
  obtain ⟨id', subject, step⟩ := facing.applyMessage iter rfl own
  refine ⟨step.calm, fun id => (step.cells id).trans ?_⟩
  rw [subject]
  simp only [Option.some.injEq]
  rfl

/-- After any messages, what the Hub keeps for a session is what its own messages make of what the
Hub kept for it before. -/
theorem Calm.cell_reports (calm : store.Calm owner) (iter : IterOrder Session)
    (reports : List Report) (own : ∀ r ∈ reports, r.msg.Owned owner) (id : String) :
    (reports.foldl (StateStore.report iter) store).cell owner id =
      (reports.filter (fun r => r.msg.subject = some id)).foldl
        (fun c r => c.receive r.fails r.msg) (store.cell owner id) := by
  have step : ∀ (store : StateStore) (r : Report), store.Calm owner → r.msg.Owned owner →
      (store.report iter r).Calm owner ∧ ∀ id, (store.report iter r).cell owner id =
        if r.msg.subject = some id then (store.cell owner id).receive r.fails r.msg
        else store.cell owner id := fun _ _ calm own => calm.report iter own
  exact foldl_cell (fun r => r.msg.subject) (StateStore.cell owner)
    (fun c r => c.receive r.fails r.msg) step id reports calm own

/-- A Hub opened on no events is calm. -/
theorem Calm.opened (owner : DurableId → String) : Calm owner (.fromLog (.holding [] [])) := by
  have absent : ∀ id, (StateStore.fromLog (.holding [] [])).engine.session id = none := fun _ => rfl
  have unindexed : ∀ id, (StateStore.fromLog (.holding [] [])).durablesOf id = [] := fun _ => rfl
  refine ⟨⟨.empty, Refines.new, rfl⟩, fun id s found => ?_, fun id d mem => ?_⟩
  · rw [absent] at found
    cases found
  · rw [unindexed] at mem
    cases mem

end StateStore

end

/-- Two orders of messages that agree in the messages about a session leave the same of it in the
Hub, whichever of the appends fail: the session, its durable ids and their marks. -/
theorem sessions_apart (owner : DurableId → String) (store : StateStore) (calm : store.Calm owner)
    (iter iter' : IterOrder Session) (reports reports' : List Report)
    (own : ∀ r ∈ reports ++ reports', r.msg.Owned owner) (id : String)
    (same : reports.filter (fun r => r.msg.subject = some id) =
      reports'.filter (fun r => r.msg.subject = some id)) :
    let after := reports.foldl (StateStore.report iter) store
    let after' := reports'.foldl (StateStore.report iter') store
    after.engine.session id = after'.engine.session id ∧
      after.durablesOf id = after'.durablesOf id ∧
      ∀ d, owner d = id → after.reclaim.mark d = after'.reclaim.mark d := by
  intro after after'
  have cells : after.cell owner id = after'.cell owner id := by
    rw [calm.cell_reports iter reports (fun r hr => own r (List.mem_append_left _ hr)) id, same,
      ← calm.cell_reports iter' reports' (fun r hr => own r (List.mem_append_right _ hr)) id]
  refine ⟨congrArg Cell.session cells, congrArg (fun c => c.durables.getD []) cells,
    fun d theirs => ?_⟩
  have marks := congrArg (fun c => c.marks d) cells
  simp only [StateStore.cell, theirs, if_true] at marks
  exact marks

/-- A window is registered and one of its runs reported. -/
def windowReports (id nativeId : String) (state : State) (fails : Bool) : Report × Report :=
  (⟨.sessionUpsert (.plain id []), false⟩,
    ⟨.runUpsert id (.plain "r" nativeId state) (some ⟨nativeId, 0, 1⟩), fails⟩)

/-- The other window reports between the two messages of the first, or after them. -/
theorem sessions_apart_two_windows :
    let a := windowReports "a" "x" .waiting false
    let b := windowReports "b" "y" .working true
    let after := [b.1, a.1, b.2, a.2].foldl (StateStore.report (.asStored Session))
      (.fromLog (.holding [] []))
    let after' := [a.1, a.2, b.1, b.2].foldl (StateStore.report (.asStored Session))
      (.fromLog (.holding [] []))
    (after.engine.session "a").map (fun s => s.unread) = some true ∧
      after.engine.session "a" = after'.engine.session "a" := by
  intro a b after after'
  have own : ∀ r ∈ [b.1, a.1, b.2, a.2] ++ [a.1, a.2, b.1, b.2],
      r.msg.Owned (fun d => if d.val = "x" then "a" else "b") := by
    intro r hr
    simp only [List.cons_append, List.nil_append, List.mem_cons, List.not_mem_nil, or_false] at hr
    rcases hr with rfl | rfl | rfl | rfl | rfl | rfl | rfl | rfl
    all_goals exact ⟨rfl, by decide⟩
  exact ⟨by decide, (sessions_apart _ _ (.opened _) (.asStored Session) (.asStored Session)
    [b.1, a.1, b.2, a.2] [a.1, a.2, b.1, b.2] own "a" rfl).1⟩

end VsFleet
