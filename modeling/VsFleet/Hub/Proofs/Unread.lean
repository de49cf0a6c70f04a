import VsFleet.Hub.Proofs.MessageSteps
import VsFleet.Misc.Latch
import VsFleet.Misc.Runs

/-!
# The unread flag is a latch on the notify value

Each mutation moves the unread flag of every session by the edge of its notify value, and a focus
clears it. Over a run of messages the flag therefore says that the session has risen to notify
and was not focused since.
-/

namespace VsFleet

open MergeEngine (Mutation)

namespace Fleet

variable {F : Fleet}

/-- The session is there and should notify. -/
def notify (F : Fleet) (id : String) : Bool := ((F.get? id).map F.notifies).getD false

/-- The session is there and unread. -/
def unread (F : Fleet) (id : String) : Bool := ((F.get? id).map (fun s => s.unread)).getD false

/-- No session is unread that should not notify. -/
def Quiet (F : Fleet) : Prop := ∀ id, F.notify id = false → F.unread id = false

/-- The unread flag follows the edge of the notify value. -/
def Follows (F F' : Fleet) (id : String) : Prop :=
  F'.unread id = if F.notify id = F'.notify id then F.unread id else F'.notify id

theorem follows_edit {G : Edit} (hG : ∀ s ∈ F.sessions, (G s).unread =
      if F.notifies s = (F.edit G).notifies (G s) then s.unread else (F.edit G).notifies (G s))
    (id : String) : F.Follows (F.edit G) id := by
  unfold Follows notify unread
  rw [get?_edit]
  cases found : F.get? id with
  | none => simp
  | some s =>
    simp only [Option.map_some, Option.getD_some]
    exact hG s (get?_eq_some_iff.mp found).1

theorem follows_reflag {g : Edit} (hg : ∀ s, (g s).unread = s.unread) (id : String) :
    F.Follows (F.reflag g) id := by
  apply follows_edit
  intro s _
  have any : (F.edit (F.settled (F.edit g) g)).anySoloed = (F.edit g).anySoloed := by
    simp [anySoloed, List.any_map, Function.comp_def, settled]
  have now : (F.edit (F.settled (F.edit g) g)).notifies (F.settled (F.edit g) g s) =
      (F.edit g).notifies (g s) := by
    rw [notifies, any]
    rfl
  rw [now, ← hg s]
  rfl

theorem follows_revise (id' : String) (f : List AgentRun → List AgentRun) (id : String) :
    F.Follows (F.revise id' f) id := by
  apply follows_edit
  intro s _
  have now : ∀ w, (F.revise id' f).notifies w = F.notifies w := by
    intro w
    rw [notifies, anySoloed_revise]
    rfl
  unfold revise at now
  rw [now]
  by_cases own : s.sessionId = id'
  · simp only [Edit.only, own, if_true]
    rfl
  · simp [Edit.only, own]

theorem follows_remove (quiet : F.Quiet) (id' id : String) : F.Follows (F.remove id') id := by
  by_cases same : id = id'
  · subst same
    have gone : (F.remove id).get? id = none := by simp [remove, get?_edit, get?_drop]
    have silent : (F.remove id).notify id = false := by simp [notify, gone]
    have unset : (F.remove id).unread id = false := by simp [unread, gone]
    rw [Follows, silent, unset]
    cases hn : F.notify id with
    | false => exact (quiet id hn).symm
    | true => rfl
  · have kept : (F.drop id').get? id = F.get? id := by rw [get?_drop, if_neg same]
    have any : (F.remove id').anySoloed = (F.drop id').anySoloed := by
      simp [remove, anySoloed, List.any_map, Function.comp_def, settled]
    unfold Follows notify unread
    rw [remove, get?_edit, kept]
    cases found : F.get? id with
    | none => simp
    | some s =>
      simp only [Option.map_some, Option.getD_some]
      have now : (F.remove id').notifies (F.settled (F.drop id') .keep s) =
          (F.drop id').notifies s := by
        rw [notifies, any]
        rfl
      unfold remove at now
      rw [now]
      rfl

/-- A session put with the flags of the one it replaces, or with none set. -/
def PlainUpsert (F : Fleet) (session : Session) : Prop :=
  match F.get? session.sessionId with
  | none => session.muted = false ∧ session.soloed = false ∧ session.unread = false
  | some s => session.muted = s.muted ∧ session.soloed = s.soloed ∧ session.unread = s.unread

theorem anySoloed_upsert {session : Session} (plain : F.PlainUpsert session) :
    (F.upsert session).anySoloed = F.anySoloed := by
  rw [Bool.eq_iff_iff, anySoloed_eq_true_iff, anySoloed_eq_true_iff, upsert, put_sessions]
  simp only [KeyedList.mem_upsert, landed_sessionId]
  unfold PlainUpsert at plain
  constructor
  · rintro ⟨w, rfl | ⟨hw, -⟩, solo⟩
    · cases found : F.get? session.sessionId with
      | none =>
        rw [found] at plain
        rw [landed, Session.settle_soloed, Session.recomputeRollups_soloed, plain.2.1] at solo
        cases solo
      | some s =>
        rw [found] at plain
        exact ⟨s, (get?_eq_some_iff.mp found).1, plain.2.1.symm.trans solo⟩
    · exact ⟨w, hw, solo⟩
  · rintro ⟨s, hs, solo⟩
    by_cases own : s.sessionId = session.sessionId
    · have found : F.get? session.sessionId = some s := own ▸ get?_of_mem hs
      rw [found] at plain
      exact ⟨F.landed session, Or.inl rfl, plain.2.1.trans solo⟩
    · exact ⟨s, Or.inr ⟨hs, own⟩, solo⟩

theorem follows_upsert {session : Session} (plain : F.PlainUpsert session) (id : String) :
    F.Follows (F.upsert session) id := by
  have any := anySoloed_upsert plain
  unfold Follows notify unread
  by_cases own : session.sessionId = id
  · have landed : (F.upsert session).get? id = some (F.landed session) := by
      rw [get?_upsert, if_pos own]
    rw [landed]
    have now : (F.upsert session).notifies (F.landed session) =
        F.notifies session.recomputeRollups := by
      rw [notifies, any]
      rfl
    simp only [Option.map_some, Option.getD_some, now]
    unfold PlainUpsert at plain
    rw [Fleet.landed, Session.settle_unread, Session.recomputeRollups_unread, own]
    rw [own] at plain
    cases found : F.get? id with
    | none =>
      rw [found] at plain
      simp [plain.2.2]
    | some s =>
      rw [found] at plain
      simp [plain.2.2]
  · have kept : (F.upsert session).get? id = F.get? id := by
      rw [get?_upsert, if_neg own]
    rw [kept]
    have same : (F.upsert session).notifies = F.notifies := by
      funext s
      rw [notifies, notifies, any]
    simp [same]

theorem follows_solo (id' id : String) : F.Follows (F.solo id') id := by
  unfold solo
  split
  · exact follows_reflag (fun _ => rfl) id
  · simp [Follows]

theorem only_unread {g : Edit} (hg : ∀ s, (g s).unread = s.unread) (id : String) (s : Session) :
    (Edit.only id g s).unread = s.unread :=
  Edit.only_keeps (R := fun s' s => s'.unread = s.unread) (fun _ => rfl) hg id s

/-- The step lemma: every mutation but a focus moves each flag by the edge of its notify value. -/
theorem follows_mutate (quiet : F.Quiet) (m : Mutation)
    (plain : ∀ session, m = .upsertSession session → F.PlainUpsert session)
    (other : ∀ id, m ≠ .applyFocus id) (id : String) : F.Follows (F.mutate m) id := by
  cases m with
  | upsertSession session => exact follows_upsert (plain session rfl) id
  | removeSessionEvents id' => exact follows_remove quiet id' id
  | removeSession id' => exact follows_remove quiet id' id
  | upsertRun id' run => exact follows_revise id' _ id
  | removeRun id' runId => exact follows_revise id' _ id
  | applyMute id' => exact follows_reflag (only_unread (fun _ => rfl) id') id
  | applyUnmute id' => exact follows_reflag (only_unread (fun _ => rfl) id') id
  | applySolo id' => exact follows_solo id' id
  | applyFocus id' => exact absurd rfl (other id')

/-- A focus clears one flag and moves no notify value. -/
theorem focus_flag (id' id : String) :
    (F.mutate (.applyFocus id')).notify id = F.notify id ∧
      (F.mutate (.applyFocus id')).unread id = (F.unread id && !decide (id' = id)) := by
  have any : (F.edit (.only id' .read)).anySoloed = F.anySoloed := by
    apply anySoloed_congr rfl
    intro s _
    by_cases own : s.sessionId = id'
    · simp [Edit.only, own, Edit.read, Edit.setFlags]
    · simp [Edit.only, own]
  have now : (F.edit (.only id' .read)).notifies = F.notifies := by
    funext w
    rw [notifies, any]
    rfl
  simp only [mutate, notify, unread, get?_edit, now]
  cases found : F.get? id with
  | none => simp
  | some s =>
    have own := (get?_eq_some_iff.mp found).2
    by_cases same : id' = id
    · subst same
      simp only [Option.map_some, Option.getD_some, Edit.only, own, if_true, decide_true,
        Bool.not_true, Bool.and_false]
      exact ⟨rfl, rfl⟩
    · have different : s.sessionId ≠ id' := fun h => same (h.symm.trans own)
      simp [Edit.only, different, same]

theorem Quiet.of_flag {F' : Fleet} (quiet : F.Quiet) {reset : String → Bool}
    (flag : ∀ id, F'.unread id = if F.notify id = F'.notify id then F.unread id && !reset id
      else F'.notify id) : F'.Quiet := by
  intro id silent
  rw [flag id, silent]
  split
  · rename_i before
    rw [quiet id before, Bool.false_and]
  · rfl

theorem quiet_empty : Fleet.empty.Quiet := fun _ _ => rfl

end Fleet

/-! ## The run of messages -/

namespace StateStore

variable (store : StateStore)

/-- A message reaches the store, with the iteration order its lookup of a run meets. -/
def receive (arrival : IterOrder Session × ClientMessage) : StateStore :=
  (store.applyMessage arrival.1 arrival.2).2

/-- The Hub has the session, and it should notify. -/
def shouldNotify (id : String) : Bool :=
  ((store.engine.session id).map
    (fun s => s.shouldNotifySession store.engine.anySoloed)).getD false

/-- The Hub has the session, and has it unread. -/
def unreadOf (id : String) : Bool :=
  ((store.engine.session id).map (fun s => s.unread)).getD false

/-- The message is a focus of the session, directly or through one of its runs. -/
def focuses (arrival : IterOrder Session × ClientMessage) (id : String) : Bool :=
  match arrival.2 with
  | .command (.focus _ target) => store.focusTarget arrival.1 target = some id
  | _ => false

/-- The message does not bring in a session of a new id with a flag of the Hub set. -/
def PlainArrival (arrival : IterOrder Session × ClientMessage) : Prop :=
  match arrival.2 with
  | .sessionUpsert session => store.engine.session session.sessionId = none →
      session.muted = false ∧ session.soloed = false ∧ session.unread = false
  | _ => True

variable {store}

/-- A message is a focus of a session exactly when its mutation is one. -/
theorem focuses_iff (arrival : IterOrder Session × ClientMessage) (id : String) :
    store.focuses arrival id = true ↔
      store.mutationOf arrival.1 arrival.2 = some (.applyFocus id) := by
  obtain ⟨iter, msg⟩ := arrival
  cases msg with
  | subscribe => simp [focuses, mutationOf]
  | command command =>
    cases command with
    | focus version target => simp [focuses, mutationOf]
    | dismiss version target => cases target <;> simp [focuses, mutationOf]
    | _ => simp [focuses, mutationOf]
  | runUpsert sessionId run stamp =>
    cases stamp with
    | none => simp [focuses, mutationOf]
    | some s => simp [focuses, mutationOf, stampedMutation]
  | _ => simp [focuses, mutationOf]

/-- A session upsert reaches the engine with the flags it had there, or with none set. -/
theorem plainUpsert {F : Fleet} (h : Refines store.engine F)
    {arrival : IterOrder Session × ClientMessage} (plain : store.PlainArrival arrival)
    {session : Session} (m : store.mutationOf arrival.1 arrival.2 = some (.upsertSession session)) :
    F.PlainUpsert session := by
  obtain ⟨iter, msg⟩ := arrival
  obtain ⟨sent, rfl, rfl⟩ := mutationOf_upsertSession m
  unfold preserveHubOwnedFields Fleet.PlainUpsert
  cases held : store.engine.session sent.sessionId with
  | none =>
    rw [MergeEngine.session, h.lookup] at held
    simp only [held]
    exact plain (by rw [MergeEngine.session, h.lookup, held])
  | some existing =>
    rw [MergeEngine.session, h.lookup] at held
    simp [held]

/-- One message moves each flag by the edge of its notify value and by a focus. -/
theorem receive_flag {F : Fleet} (h : Refines store.engine F) (quiet : F.Quiet)
    {arrival : IterOrder Session × ClientMessage} (plain : store.PlainArrival arrival) :
    ∃ F', Refines (store.receive arrival).engine F' ∧ F'.Quiet ∧ ∀ id,
      F'.unread id = if F.notify id = F'.notify id then F.unread id && !store.focuses arrival id
        else F'.notify id := by
  suffices ∃ F', Refines (store.receive arrival).engine F' ∧ ∀ id,
      F'.unread id = if F.notify id = F'.notify id then F.unread id && !store.focuses arrival id
        else F'.notify id by
    obtain ⟨F', h', flag⟩ := this
    exact ⟨F', h', quiet.of_flag flag, flag⟩
  have plainUpsert : ∀ session, store.mutationOf arrival.1 arrival.2 =
      some (.upsertSession session) → F.PlainUpsert session := fun _ => plainUpsert h plain
  have focuses : ∀ id, store.focuses arrival id = true ↔
      store.mutationOf arrival.1 arrival.2 = some (.applyFocus id) := focuses_iff arrival
  have did := store.applyMessage_did arrival.1 arrival.2
  unfold receive
  generalize store.mutationOf arrival.1 arrival.2 = m at did plainUpsert focuses
  generalize store.applyMessage arrival.1 arrival.2 = outcome at did ⊢
  obtain ⟨result, after⟩ := outcome
  generalize after.engine = engine at did ⊢
  cases did with
  | idle =>
    have none : ∀ id, store.focuses arrival id = false := by
      intro id
      rw [Bool.eq_false_iff, Ne, focuses]
      exact nofun
    exact ⟨F, h, fun id => by simp [none id]⟩
  | applied m =>
    refine ⟨F.mutate m, h.mutate m, fun id => ?_⟩
    by_cases focus : ∃ id', m = .applyFocus id'
    · obtain ⟨id', rfl⟩ := focus
      obtain ⟨kept, cleared⟩ := F.focus_flag id' id
      have own : store.focuses arrival id = decide (id' = id) := by
        rw [Bool.eq_iff_iff, focuses, decide_eq_true_iff]
        simp
      rw [kept, if_pos rfl, cleared, own]
    · have none : ∀ id, store.focuses arrival id = false := by
        intro id
        rw [Bool.eq_false_iff, Ne, focuses]
        exact fun hm => focus ⟨id, Option.some.inj hm⟩
      have follows := Fleet.follows_mutate quiet m
        (fun session hm => plainUpsert session (by rw [hm])) (fun id' hm => focus ⟨id', hm⟩) id
      simp only [none id, Bool.not_false, Bool.and_true]
      exact follows
  | failed m error e' same logged =>
    have none : ∀ id, store.focuses arrival id = false := by
      intro id
      rw [Bool.eq_false_iff, Ne, focuses]
      exact fun hm => logged id (Option.some.inj hm)
    exact ⟨F, same F h, fun id => by simp [none id]⟩

/-- The store of a fleet without unread sessions that should not notify. -/
def Settled (store : StateStore) : Prop := ∃ F, Refines store.engine F ∧ F.Quiet

theorem shouldNotify_eq {F : Fleet} (h : Refines store.engine F) (id : String) :
    store.shouldNotify id = F.notify id := by
  rw [shouldNotify, MergeEngine.session, h.lookup, h.anySoloed]
  rfl

theorem unreadOf_eq {F : Fleet} (h : Refines store.engine F) (id : String) :
    store.unreadOf id = F.unread id := by
  rw [unreadOf, MergeEngine.session, h.lookup]
  rfl

theorem Settled.receive (settled : store.Settled) (arrival : IterOrder Session × ClientMessage)
    (plain : store.PlainArrival arrival) : (store.receive arrival).Settled := by
  obtain ⟨F, h, quiet⟩ := settled
  obtain ⟨F', h', quiet', -⟩ := receive_flag h quiet plain
  exact ⟨F', h', quiet'⟩

theorem Settled.flag (settled : store.Settled) (arrival : IterOrder Session × ClientMessage)
    (plain : store.PlainArrival arrival) (id : String) :
    (store.receive arrival).unreadOf id =
      if store.shouldNotify id = (store.receive arrival).shouldNotify id
      then store.unreadOf id && !store.focuses arrival id
      else (store.receive arrival).shouldNotify id := by
  obtain ⟨F, h, quiet⟩ := settled
  obtain ⟨F', h', -, flag⟩ := receive_flag h quiet plain
  rw [unreadOf_eq h', shouldNotify_eq h', shouldNotify_eq h, unreadOf_eq h]
  exact flag id

end StateStore

/-- A store opened empty, whose appends may fail. -/
def StateStore.opened (faults : List Bool) : StateStore := .fromLog (.holding [] faults)

/-- The store after the first `k` messages of the list. -/
def StateStore.after (faults : List Bool) (msgs : List (IterOrder Session × ClientMessage))
    (k : Nat) : StateStore := (msgs.take k).foldl StateStore.receive (.opened faults)

section Messages

variable {faults : List Bool} {msgs : List (IterOrder Session × ClientMessage)}

theorem StateStore.after_succ {k : Nat} (hk : k < msgs.length) :
    after faults msgs (k + 1) = (after faults msgs k).receive msgs[k] := by
  rw [after, List.take_succ_eq_append_getElem hk, List.foldl_append]
  rfl

theorem StateStore.after_plain
    (plain : Along StateStore.receive StateStore.PlainArrival (.opened faults) msgs) {k : Nat}
    (hk : k < msgs.length) :
    (after faults msgs k).Settled ∧ (after faults msgs k).PlainArrival msgs[k] := by
  rw [← List.take_append_drop k msgs, Along.append] at plain
  have empty : (opened faults).Settled := ⟨.empty, Refines.new, Fleet.quiet_empty⟩
  refine ⟨plain.1.invariant (fun store a h ok => h.receive a ok) _ _ empty, ?_⟩
  have rest := plain.2
  rw [List.drop_eq_getElem_cons hk] at rest
  exact rest.1

end Messages

/-- In every state a run of messages reaches, a session is unread exactly when it should notify and
was not focused since it last came to. -/
theorem unread_iff_notifying_unfocused (faults : List Bool)
    (msgs : List (IterOrder Session × ClientMessage))
    (plain : Along StateStore.receive StateStore.PlainArrival (.opened faults) msgs)
    (n : Nat) (hn : n ≤ msgs.length) (id : String) :
    let at_ := StateStore.after faults msgs
    (at_ n).unreadOf id = true ↔ (at_ n).shouldNotify id = true ∧
      ∃ j < n, (at_ j).shouldNotify id = false ∧
        (∀ k, j < k → k ≤ n → (at_ k).shouldNotify id = true) ∧
        ∀ k (hk : k < n), j < k → ¬ (at_ k).focuses msgs[k] id = true := by
  intro at_
  have latch : Latch (fun k => (at_ k).shouldNotify id)
      (fun k => if hk : k < msgs.length then (at_ k).focuses msgs[k] id else false)
      (fun k => (at_ k).unreadOf id) n := by
    refine ⟨rfl, rfl, fun k hk => ?_⟩
    have hk : k < msgs.length := Nat.lt_of_lt_of_le hk hn
    obtain ⟨settled, arrives⟩ := StateStore.after_plain plain hk
    simp only [at_, StateStore.after_succ hk, dif_pos hk]
    exact settled.flag msgs[k] arrives id
  rw [latch.flag_iff]
  constructor
  · rintro ⟨j, hj, low, stays, unfocused⟩
    refine ⟨stays n hj (Nat.le_refl n), j, hj, low, stays, fun k hk late => ?_⟩
    have quiet := unfocused k late hk
    rw [dif_pos (Nat.lt_of_lt_of_le hk hn)] at quiet
    rw [quiet]
    exact Bool.false_ne_true
  · rintro ⟨-, j, hj, low, stays, unfocused⟩
    refine ⟨j, hj, low, stays, fun k late hk => ?_⟩
    rw [dif_pos (Nat.lt_of_lt_of_le hk hn), Bool.eq_false_iff]
    exact unfocused k hk late

/-- A waiting session arrives, a second is soloed over it, it is unmuted and focused. -/
theorem unread_iff_notifying_unfocused_focus :
    let msgs := [ClientMessage.sessionUpsert (.plain "a" [.plain "r" "n" .waiting]),
      .sessionUpsert (.plain "b" []), .command (.solo 1 "b"), .command (.unmute 1 "b"),
      .command (.focus 1 (.run "r"))].map (fun msg => (IterOrder.asStored Session, msg))
    let at_ := StateStore.after [] msgs
    (at_ 5).unreadOf "a" = true ↔ (at_ 5).shouldNotify "a" = true ∧
      ∃ j < 5, (at_ j).shouldNotify "a" = false ∧
        (∀ k, j < k → k ≤ 5 → (at_ k).shouldNotify "a" = true) ∧
        ∀ k (hk : k < 5), j < k → ¬ (at_ k).focuses msgs[k] "a" = true := by
  intro msgs
  exact unread_iff_notifying_unfocused [] msgs
    ⟨fun _ => ⟨rfl, rfl, rfl⟩, fun _ => ⟨rfl, rfl, rfl⟩, trivial, trivial, trivial, trivial⟩
    5 (by decide) "a"

end VsFleet
