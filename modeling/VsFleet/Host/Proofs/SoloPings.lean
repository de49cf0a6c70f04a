import VsFleet.Host.Proofs.MutationPings

/-!
# A solo that moves

The updates of a solo reach a face in list order. Where the session that gets the solo comes after
every session that loses it, there is a view in between with no session soloed, in which every
waiting session that is not muted pings.
-/

namespace VsFleet

/-- The last of the soloed sessions comes before the session `id`, and some third session waits
unmuted. -/
def SoloGap (l : List Session) (id : String) : Prop :=
  ∃ pre last post, l = pre ++ last :: post ∧ last.soloed = true ∧
    (∀ s ∈ post, s.soloed = false) ∧ id ∈ post.map (fun s => s.sessionId) ∧
    ∃ s ∈ l, s.sessionId ≠ id ∧ s.sessionId ≠ last.sessionId ∧ s.rollupState = .waiting ∧
      s.muted = false

theorem pingIn_of_mem {l : List Session} (distinct : (l.map (fun s => s.sessionId)).Nodup)
    {s : Session} (mem : s ∈ l) : pingIn l s.sessionId =
      if s.pingKey.notifies (l.any (fun s => s.soloed)) then some s.rollupUrgency else none := by
  have held : KeyedList.get? (fun s => s.sessionId) l s.sessionId = some s :=
    KeyedList.get?_eq_some_of_mem distinct mem rfl
  rw [pingIn_eq, held, Option.bind_some]

theorem pingIn_of_notMem {l : List Session} {id : String}
    (absent : id ∉ l.map (fun s => s.sessionId)) : pingIn l id = none := by
  have held : KeyedList.get? (fun s => s.sessionId) l id = none :=
    KeyedList.get?_eq_none_iff.mpr absent
  rw [pingIn_eq, held]
  rfl

/-- What the edit of a solo makes of a session, as far as pings look at it. -/
def soloKey (id : String) (key : PingKey) : PingKey :=
  { key with
    muted := if key.sessionId = id then false else key.muted
    soloed := key.sessionId = id }

theorem settled_solo_pingKey (F : Fleet) (id : String) (s : Session) :
    ((F.settled (F.edit (.solo id)) (.solo id)) s).pingKey = soloKey id s.pingKey := rfl

/-- A session half way through the updates: those of the ids `done` are in, the sessions `rest`
are as they were. -/
def keyBetween (id : String) (done : List String) (x : Session) : PingKey :=
  if x.sessionId ∈ done then soloKey id x.pingKey else x.pingKey

/-- Whether a session notifies between the events of a solo, when some of them have been taken. -/
def notifiesBetween (id : String) (done : List String) (rest : List Session) (x : Session) : Bool :=
  (keyBetween id done x).notifies (decide (id ∈ done) || rest.any (fun s => s.soloed))

section

variable {id : String} {g : Edit} {pre post : List Session} {s x : Session}

/-- Some session is soloed half way: the one that gets the solo, once it is updated, or one that is
still to lose it. -/
theorem anySoloed_between (hg : ∀ s, (g s).pingKey = soloKey id s.pingKey)
    (pre post : List Session) : (pre.map g ++ post).any (fun s => s.soloed) =
      (decide (id ∈ pre.map (fun s => s.sessionId)) || post.any (fun s => s.soloed)) := by
  have soloed : ∀ s, (g s).soloed = decide (s.sessionId = id) := fun s =>
    congrArg PingKey.soloed (hg s)
  rw [List.any_append, List.any_map]
  congr 1
  rw [Bool.eq_iff_iff, decide_eq_true_iff, List.any_eq_true, List.mem_map]
  simp only [Function.comp_apply, soloed, decide_eq_true_iff]

theorem pingIn_between (hg : ∀ s, (g s).pingKey = soloKey id s.pingKey)
    (distinct : ((pre ++ post).map (fun s => s.sessionId)).Nodup) (mem : x ∈ pre ++ post) :
    pingIn (pre.map g ++ post) x.sessionId =
      if notifiesBetween id (pre.map (fun s => s.sessionId)) post x then some x.rollupUrgency
      else none := by
  have distinct' : ((pre.map g ++ post).map (fun s => s.sessionId)).Nodup := by
    simpa [Function.comp_def] using distinct
  have any := anySoloed_between hg pre post
  rcases List.mem_append.mp mem with done | waits
  · have held := pingIn_of_mem distinct' (s := g x)
      (List.mem_append_left post (List.mem_map_of_mem done))
    have urgency : (g x).rollupUrgency = x.rollupUrgency := congrArg PingKey.urgency (hg x)
    rw [Edit.sessionId_act, any, hg, urgency] at held
    rw [held, notifiesBetween, keyBetween, if_pos (List.mem_map_of_mem done)]
  · have held := pingIn_of_mem distinct' (s := x) (List.mem_append_right _ waits)
    have other : x.sessionId ∉ pre.map (fun s => s.sessionId) := by
      rw [List.map_append, List.nodup_append] at distinct
      exact fun done => distinct.2.2 _ done _ (List.mem_map_of_mem waits) rfl
    rw [any] at held
    rw [held, notifiesBetween, keyBetween, if_neg other]

theorem notifiesBetween_iff {done : List String} {rest : List Session} :
    notifiesBetween id done rest x = true ↔ x.rollupState = .waiting ∧
      if id ∈ done ∨ ∃ s ∈ rest, s.soloed = true then
        if x.sessionId ∈ done then x.sessionId = id else x.soloed = true
      else x.muted = false := by
  unfold notifiesBetween PingKey.notifies keyBetween soloKey Session.pingKey
  by_cases solo : id ∈ done ∨ ∃ s ∈ rest, s.soloed = true
  · have any : (decide (id ∈ done) || rest.any (fun s => s.soloed)) = true := by
      simpa using solo
    rw [if_pos solo, any]
    by_cases h : x.sessionId ∈ done <;> simp [h]
  · have any : (decide (id ∈ done) || rest.any (fun s => s.soloed)) = false := by
      simpa using solo
    rw [if_neg solo, any]
    by_cases h : x.sessionId ∈ done
    · have other : x.sessionId ≠ id := fun own => solo (Or.inl (own ▸ h))
      simp [h, other]
    · simp [h]

/-- A session of the list that is not among the ids done is among the sessions left. -/
theorem mem_rest (mem : x ∈ pre ++ s :: post)
    (left : x.sessionId ∉ (pre ++ [s]).map (fun s => s.sessionId)) : x ∈ post := by
  rw [List.append_cons, List.mem_append] at mem
  exact mem.resolve_left (fun done => left (List.mem_map_of_mem done))

theorem mem_done_snoc : id ∈ (pre ++ [s]).map (fun s => s.sessionId) ↔
    id ∈ pre.map (fun s => s.sessionId) ∨ id = s.sessionId := by
  rw [List.map_append, List.mem_append, List.map_singleton, List.mem_singleton]

/-- The session that gets the solo only ever starts to notify. -/
theorem notifiesBetween_target (own : x.sessionId = id) (mem : x ∈ pre ++ s :: post)
    (h : notifiesBetween id (pre.map (fun s => s.sessionId)) (s :: post) x = true) :
    notifiesBetween id ((pre ++ [s]).map (fun s => s.sessionId)) post x = true := by
  subst own
  rw [notifiesBetween_iff] at h ⊢
  refine ⟨h.1, ?_⟩
  have h := h.2
  by_cases done : x.sessionId ∈ (pre ++ [s]).map (fun s => s.sessionId)
  · rw [if_pos (Or.inl done), if_pos done]
  · have left := mem_rest mem done
    have before : x.sessionId ∉ pre.map (fun s => s.sessionId) :=
      fun hp => done (mem_done_snoc.mpr (Or.inl hp))
    by_cases solo : ∃ w ∈ post, w.soloed = true
    · obtain ⟨w, hw, soloed⟩ := solo
      rw [if_pos (Or.inr ⟨w, List.mem_cons_of_mem s hw, soloed⟩), if_neg before] at h
      rw [if_pos (Or.inr ⟨w, hw, soloed⟩), if_neg done]
      exact h
    · rw [if_neg (not_or.mpr ⟨done, solo⟩)]
      split at h
      · exact absurd ⟨x, left, h⟩ solo
      · exact h

/-- Every other session only ever stops, unless the solo leaves a gap. -/
theorem notifiesBetween_other
    (distinct : ((pre ++ s :: post).map (fun s => s.sessionId)).Nodup)
    (present : id ∈ (pre ++ s :: post).map (fun s => s.sessionId))
    (gapless : ¬ SoloGap (pre ++ s :: post) id) (other : x.sessionId ≠ id)
    (mem : x ∈ pre ++ s :: post)
    (h : notifiesBetween id ((pre ++ [s]).map (fun s => s.sessionId)) post x = true) :
    notifiesBetween id (pre.map (fun s => s.sessionId)) (s :: post) x = true := by
  rw [notifiesBetween_iff] at h ⊢
  obtain ⟨waiting, h⟩ := h
  refine ⟨waiting, ?_⟩
  by_cases solo : id ∈ (pre ++ [s]).map (fun s => s.sessionId) ∨ ∃ w ∈ post, w.soloed = true
  · rw [if_pos solo] at h
    by_cases done : x.sessionId ∈ (pre ++ [s]).map (fun s => s.sessionId)
    · rw [if_pos done] at h
      exact absurd h other
    · rw [if_neg done] at h
      have left := List.mem_cons_of_mem s (mem_rest mem done)
      rw [if_pos (Or.inr ⟨x, left, h⟩), if_neg (fun hp => done (mem_done_snoc.mpr (Or.inl hp)))]
      exact h
  · rw [if_neg solo] at h
    rw [not_or, mem_done_snoc, not_or] at solo
    obtain ⟨⟨early, same⟩, none⟩ := solo
    split
    · -- Only `s` can be the one still soloed, so it is the last.
      rename_i still
      have last : s.soloed = true := by
        obtain ⟨w, hw, soloed⟩ := still.resolve_left early
        rcases List.mem_cons.mp hw with rfl | hw
        · exact soloed
        · exact absurd ⟨w, hw, soloed⟩ none
      by_cases own : x.sessionId = s.sessionId
      · have the : x = s := List.inj_on_of_nodup_map distinct mem (by simp) own
        have fresh : s.sessionId ∉ pre.map (fun s => s.sessionId) := by
          rw [List.map_append, List.map_cons, List.nodup_append] at distinct
          exact fun hp => distinct.2.2 _ hp _ (by simp) rfl
        rw [own, if_neg fresh, the]
        exact last
      · have later : id ∈ post.map (fun s => s.sessionId) := by
          rw [List.map_append, List.map_cons, List.mem_append, List.mem_cons] at present
          exact (present.resolve_left early).resolve_left same
        exact absurd ⟨pre, s, post, rfl, last, fun w hw => Bool.eq_false_iff.mpr
          (fun soloed => none ⟨w, hw, soloed⟩), later, x, mem, other, own, waiting, h⟩ gapless
    · exact h

/-- In the end only the session with the solo notifies. -/
theorem notifiesBetween_end {l : List Session} (present : id ∈ l.map (fun s => s.sessionId))
    (mem : x ∈ l) : notifiesBetween id (l.map (fun s => s.sessionId)) [] x = true ↔
      x.rollupState = .waiting ∧ x.sessionId = id := by
  rw [notifiesBetween_iff, if_pos (Or.inl present), if_pos (List.mem_map_of_mem mem)]

/-- One update of a solo without a gap leaves each ping alone or brings it to its end. -/
theorem pingIn_solo_step {l : List Session} (split : l = pre ++ s :: post)
    (hg : ∀ s, (g s).pingKey = soloKey id s.pingKey)
    (distinct : (l.map (fun s => s.sessionId)).Nodup)
    (present : id ∈ l.map (fun s => s.sessionId)) (gapless : ¬ SoloGap l id) (k : String) :
    pingIn (pre.map g ++ g s :: post) k = pingIn (pre.map g ++ s :: post) k ∨
      pingIn (pre.map g ++ g s :: post) k = pingIn (l.map g) k := by
  subst split
  have snoc : pre.map g ++ g s :: post = (pre ++ [s]).map g ++ post := by simp
  have all : (pre ++ s :: post).map g = (pre ++ s :: post).map g ++ [] := by simp
  by_cases known : k ∈ (pre ++ s :: post).map (fun s => s.sessionId)
  · obtain ⟨x, mem, rfl⟩ := List.mem_map.mp known
    rw [snoc, all, pingIn_between hg (by simpa using distinct) (by simpa using mem),
      pingIn_between hg distinct mem,
      pingIn_between hg (by simpa using distinct) (by simpa using mem)]
    have ends := notifiesBetween_end present mem
    cases now : notifiesBetween id ((pre ++ [s]).map (fun s => s.sessionId)) post x with
    | true =>
      by_cases own : x.sessionId = id
      · right
        rw [ends.mpr ⟨(notifiesBetween_iff.mp now).1, own⟩]
      · left
        rw [notifiesBetween_other distinct present gapless own mem now]
    | false =>
      by_cases own : x.sessionId = id
      · left
        have before :
            notifiesBetween id (pre.map (fun s => s.sessionId)) (s :: post) x = false := by
          rw [Bool.eq_false_iff]
          intro h
          rw [notifiesBetween_target own mem h] at now
          cases now
        rw [before]
      · right
        rw [Bool.eq_false_iff.mpr (fun h => own (ends.mp h).2)]
  · left
    rw [pingIn_of_notMem, pingIn_of_notMem]
    · simpa [Function.comp_def] using known
    · simpa [Function.comp_def] using known

end

namespace Refines

variable {e : MergeEngine} {F : Fleet} {id : String}

theorem mem_sessions_iff : (F.get? id).isSome ↔ id ∈ F.sessions.map (fun s => s.sessionId) := by
  rw [Option.isSome_iff_ne_none, Ne, Fleet.get?_eq_none_iff, not_not]

theorem applySolo_calm (h : Refines e F) (gapless : ¬ SoloGap F.sessions id) :
    Calm ((e.applySolo id).2.foldl Event.fold F.sessions) F.sessions (e.applySolo id).2 := by
  by_cases present : (F.get? id).isSome
  · have announces := (h.applySolo id present).2
    rw [announces.fold]
    exact announces.calm (fun pre s post split k => pingIn_solo_step split
      (settled_solo_pingKey F id) F.distinct (mem_sessions_iff.mp present) gapless k)
  · rw [h.applySolo_absent (by simpa using present)]
    trivial

/-- The update of the last session to lose the solo fires for a session that is silent in the
end. -/
theorem applySolo_unwarranted (h : Refines e F) (gap : SoloGap F.sessions id) :
    ¬ ∀ outcome ∈ outcomesOf F.sessions (e.applySolo id).2, Warranted (viewOf F.sessions)
      (viewOf ((e.applySolo id).2.foldl Event.fold F.sessions)) outcome := by
  obtain ⟨pre, last, post, split, soloed, none, later, x, mem, other, own, waiting, unmuted⟩ := gap
  have known : id ∈ F.sessions.map (fun s => s.sessionId) := by
    rw [split, List.map_append, List.map_cons]
    exact List.mem_append_right _ (List.mem_cons_of_mem _ later)
  have announces := (h.applySolo id (mem_sessions_iff.mpr known)).2
  have hg := settled_solo_pingKey F id
  rw [announces.fold, Fleet.edit_sessions]
  generalize F.settled (F.edit (.solo id)) (.solo id) = g at announces hg ⊢
  obtain ⟨moved, events, still⟩ := announces
  have distinct := F.distinct
  rw [split] at distinct known mem still ⊢
  rw [split, List.filter_append] at events
  have fresh : id ∉ (pre ++ [last]).map (fun s => s.sessionId) := by
    have apart := distinct
    rw [List.append_cons, List.map_append, List.nodup_append] at apart
    exact fun done => apart.2.2 _ done _ later rfl
  have moves : moved last = true := by
    by_contra stays
    have same := still last (by simp) (Bool.eq_false_iff.mpr stays)
    have lost := congrArg PingKey.soloed (hg last)
    rw [same] at lost
    have own : last.sessionId = id := by simpa [Session.pingKey, soloKey, soloed] using lost
    exact fresh (by simp [own])
  rw [List.filter_cons_of_pos moves, List.map_append, List.map_cons] at events
  have before := fold_updates g.sessionId (last :: post) pre [] distinct
    (fun s hs => still s (List.mem_append_left _ hs))
  rw [List.nil_append, List.nil_append] at before
  have distinct' : ((pre.map g ++ last :: post).map (fun s => s.sessionId)).Nodup := by
    simpa [Function.comp_def] using distinct
  have step : (Event.ofSessionUpdated (g last)).fold (pre.map g ++ last :: post) =
      (pre ++ [last]).map g ++ post := by
    rw [List.map_append, List.append_assoc]
    exact KeyedList.upsert_middle (g.sessionId last) distinct'
  have distinct'' : (((pre ++ [last]) ++ post).map (fun s => s.sessionId)).Nodup := by
    simpa using distinct
  have silent : notifiesBetween id (pre.map (fun s => s.sessionId)) (last :: post) x = false := by
    rw [Bool.eq_false_iff, Ne, notifiesBetween_iff, if_pos (Or.inr ⟨last, by simp, soloed⟩)]
    intro h
    have solo := h.2
    by_cases done : x.sessionId ∈ pre.map (fun s => s.sessionId)
    · rw [if_pos done] at solo
      exact other solo
    · rw [if_neg done] at solo
      have left := mem_rest mem (fun hx => done ((mem_done_snoc.mp hx).resolve_right own))
      rw [none x left] at solo
      cases solo
  have gone : notifiesBetween id ((pre ++ [last]).map (fun s => s.sessionId)) post x = true := by
    refine notifiesBetween_iff.mpr ⟨waiting, ?_⟩
    rw [if_neg]
    · exact unmuted
    · rintro (done | ⟨s, hs, solo⟩)
      · exact fresh done
      · rw [none s hs] at solo
        cases solo
  have early := pingIn_between hg distinct mem
  have now := pingIn_between hg distinct'' (by simpa using mem)
  have ends := @pingIn_between id g (pre ++ last :: post) [] x hg (by simpa using distinct)
    (by simpa using mem)
  rw [silent] at early
  rw [gone] at now
  rw [List.append_nil, Bool.eq_false_iff.mpr
    (fun h => other ((notifiesBetween_end known mem).mp h).2)] at ends
  rw [events]
  refine unwarranted_of_step _ _ _ distinct x.sessionId ?_ ?_ ends
  · rw [before, step, now]
    exact Option.some_ne_none _
  · rw [before, step, now, early]
    exact (Option.some_ne_none _).symm

end Refines

end VsFleet
