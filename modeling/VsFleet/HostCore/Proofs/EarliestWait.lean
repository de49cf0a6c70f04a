import Mathlib.Order.Bounds.Basic
import VsFleet.HostCore.View

/-!
# The stamp a tab has waited since

A tab shows, of the stamps of its waiting runs, the least as a text. It is the earliest where an
earliest one is no greater, as a text, than those that are later.
-/

namespace VsFleet

/-! ## Least in one order, earliest in another -/

section Orders

variable {α β : Type} [PartialOrder α] [LinearOrder β] {S : Set α} {instant : α → β} {m : α}

/-- The least of a set is earliest in it just in case something earliest is no greater than all that
is later. -/
theorem isLeast_image_iff (least : IsLeast S m) : IsLeast (instant '' S) (instant m) ↔
    ∃ v ∈ S, IsLeast (instant '' S) (instant v) ∧
      ∀ w ∈ S, instant v < instant w → v ≤ w := by
  constructor
  · exact fun earliest => ⟨m, least.1, earliest, fun w mem _ => least.2 mem⟩
  · rintro ⟨v, mem, earliest, before⟩
    refine ⟨Set.mem_image_of_mem instant least.1, fun t ht => le_trans ?_ (earliest.2 ht)⟩
    by_contra later
    have same : v = m := le_antisymm (before m least.1 (not_le.mp later)) (least.2 mem)
    exact later (same ▸ le_refl _)

end Orders

/-! ## The stamp of a tab -/

/-- The stamps of the waiting runs. -/
def Session.waitStamps (sess : Session) : Set String :=
  {w | ∃ r ∈ sess.runs, r.state = .waiting ∧ r.waitingSince = some w}

/-- The instants of stamps. -/
def instantsOf (parseEpochSecs : String → Option Int) (stamps : Set String) : Set Int :=
  {t | ∃ w ∈ stamps, parseEpochSecs w = some t}

/-- One stamp more is taken where it is less. -/
theorem earliestSince_isLeast {since : Option String} {stamps : Set String} (w : String)
    (before : ∀ prev, since = some prev → IsLeast stamps prev)
    (empty : since = none → stamps = ∅) :
    ∃ next, earliestSince since (some w) = some next ∧ IsLeast (insert w stamps) next := by
  unfold earliestSince
  cases since with
  | none =>
    refine ⟨w, rfl, ?_⟩
    rw [empty rfl, insert_empty_eq]
    exact isLeast_singleton
  | some prev =>
    have least := (before prev rfl).insert w
    dsimp only
    split
    · rename_i le
      exact ⟨prev, rfl, by rwa [min_eq_right le] at least⟩
    · rename_i gt
      exact ⟨w, rfl, by rwa [min_eq_left (le_of_lt (not_le.mp gt))] at least⟩

/-- The rounds of the loop leave the least stamp. -/
theorem foldl_earliestSince (runs : List AgentRun)
    (stamped : ∀ r ∈ runs, r.waitingSince ≠ none) : ∀ (since : Option String)
    (stamps : Set String), (∀ prev, since = some prev → IsLeast stamps prev) →
    (since = none → stamps = ∅) → (since.isSome = true ∨ runs ≠ []) →
    ∃ m, runs.foldl (fun since r => earliestSince since r.waitingSince) since = some m ∧
      IsLeast (stamps ∪ {w | ∃ r ∈ runs, r.waitingSince = some w}) m := by
  induction runs with
  | nil =>
    intro since stamps before empty there
    obtain ⟨m, rfl⟩ := Option.isSome_iff_exists.mp (there.resolve_right (fun h => h rfl))
    refine ⟨m, rfl, ?_⟩
    have none : {w : String | ∃ r ∈ ([] : List AgentRun), r.waitingSince = some w} = ∅ := by
      simp
    rw [none, Set.union_empty]
    exact before m rfl
  | cons r runs ih =>
    intro since stamps before empty _
    rw [List.forall_mem_cons] at stamped
    obtain ⟨w, own⟩ := Option.ne_none_iff_exists'.mp stamped.1
    obtain ⟨next, taken, least⟩ := earliestSince_isLeast w before empty
    obtain ⟨m, rest, least'⟩ := ih stamped.2 (some next) (insert w stamps)
      (fun prev same => Option.some.inj same ▸ least) (fun none => by cases none) (Or.inl rfl)
    refine ⟨m, ?_, ?_⟩
    · rw [List.foldl_cons, own, taken, rest]
    · have same : stamps ∪ {v | ∃ r' ∈ r :: runs, r'.waitingSince = some v} =
          insert w stamps ∪ {v | ∃ r' ∈ runs, r'.waitingSince = some v} := by
        ext v
        simp only [List.mem_cons, exists_eq_or_imp, own, Option.some.injEq, Set.mem_union,
          Set.mem_ofPred_eq, Set.mem_insert_iff]
        tauto
      rw [same]
      exact least'

/-- A tab shows the least of the stamps. -/
theorem sessionToTab_waitingSince {sess : Session}
    (stamped : ∀ r ∈ sess.runs, r.state = .waiting → r.waitingSince ≠ none)
    (waits : ∃ r ∈ sess.runs, r.state = .waiting) :
    ∃ m, (sessionToTab sess).waitingSince = some m ∧ IsLeast sess.waitStamps m := by
  have waiting : ∀ {r : AgentRun}, r ∈ sess.runs.filter (fun r => r.state = .waiting) ↔
      r ∈ sess.runs ∧ r.state = .waiting := by
    intro r
    rw [List.mem_filter, decide_eq_true_iff]
  have since : (sessionToTab sess).waitingSince =
      (sess.runs.filter (fun r => r.state = .waiting)).foldl
        (fun since r => earliestSince since r.waitingSince) none :=
    (List.foldl_hom Prod.snd (fun _ _ => rfl)).symm
  obtain ⟨r, mem, waits⟩ := waits
  obtain ⟨m, folded, least⟩ := foldl_earliestSince
    (sess.runs.filter (fun r => r.state = .waiting))
    (fun r mem => stamped r (waiting.mp mem).1 (waiting.mp mem).2)
    none ∅ (fun prev none => by cases none) (fun _ => rfl)
    (Or.inr (List.ne_nil_of_mem (waiting.mpr ⟨mem, waits⟩)))
  refine ⟨m, since.trans folded, ?_⟩
  have same : sess.waitStamps = ∅ ∪ {w | ∃ r ∈ sess.runs.filter (fun r => r.state = .waiting),
      r.waitingSince = some w} := by
    ext w
    simp only [Session.waitStamps, waiting, and_assoc, Set.empty_union]
  rw [same]
  exact least

/-- Of runs whose stamps all read as times, a tab shows an earliest stamp just in case one of the
earliest is no greater, as a text, than every stamp that is later. -/
theorem earliest_wait_iff (parseEpochSecs : String → Option Int) (sess : Session)
    (stamped : ∀ r ∈ sess.runs, r.state = .waiting →
      ∃ w t, r.waitingSince = some w ∧ parseEpochSecs w = some t)
    (waits : ∃ r ∈ sess.runs, r.state = .waiting) :
    (∃ w t, (sessionToTab sess).waitingSince = some w ∧ parseEpochSecs w = some t ∧
      IsLeast (instantsOf parseEpochSecs sess.waitStamps) t) ↔
    ∃ v ∈ sess.waitStamps, ∃ t, parseEpochSecs v = some t ∧
      IsLeast (instantsOf parseEpochSecs sess.waitStamps) t ∧
      ∀ w ∈ sess.waitStamps, ∀ u, parseEpochSecs w = some u → t < u → v ≤ w := by
  obtain ⟨m, shown, least⟩ := sessionToTab_waitingSince (fun r mem waits none => by
    obtain ⟨w, -, own, -⟩ := stamped r mem waits
    cases none.symm.trans own) waits
  -- on the stamps, reading is a function
  have reads : ∀ w ∈ sess.waitStamps, parseEpochSecs w = some ((parseEpochSecs w).getD 0) := by
    rintro w ⟨r, mem, waits, own⟩
    obtain ⟨w', t, own', parsed⟩ := stamped r mem waits
    cases own.symm.trans own'
    rw [parsed]
    rfl
  have image : instantsOf parseEpochSecs sess.waitStamps =
      (fun w => (parseEpochSecs w).getD 0) '' sess.waitStamps := by
    ext t
    constructor
    · rintro ⟨w, mem, parsed⟩
      exact ⟨w, mem, by simp [parsed]⟩
    · rintro ⟨w, mem, rfl⟩
      exact ⟨w, mem, reads w mem⟩
  have general := @isLeast_image_iff _ _ _ _ _ (fun w => (parseEpochSecs w).getD 0) _ least
  rw [← image] at general
  constructor
  · rintro ⟨w, t, shown', parsed, earliest⟩
    cases shown.symm.trans shown'
    refine ⟨m, least.1, t, parsed, earliest, fun w mem _ _ _ => least.2 mem⟩
  · rintro ⟨v, mem, t, parsed, earliest, before⟩
    have own : (parseEpochSecs v).getD 0 = t := by rw [parsed]; rfl
    refine ⟨m, (parseEpochSecs m).getD 0, shown, reads m least.1, general.mpr ⟨v, mem, ?_, ?_⟩⟩
    · exact own.symm ▸ earliest
    · intro w mem later
      exact before w mem _ (reads w mem) (own ▸ later)

/-- Three stamps of one day, the second from a reporter five hours east. -/
def readStamp (stamp : String) : Option Int :=
  if stamp = "2026-06-08T11:00:00Z" then some 1780916400
  else if stamp = "2026-06-08T12:00:00+05:00" then some 1780902000
  else if stamp = "2026-06-08T13:00:00.500Z" then some 1780923600
  else none

/-- A session whose runs have waited since the stamps. -/
def waitingSession (stamps : List String) : Session :=
  .plain "a" (stamps.map (fun w => { AgentRun.plain w "n" .waiting with waitingSince := some w }))

theorem earliest_wait_iff_fraction :
    let sess := waitingSession ["2026-06-08T13:00:00.500Z", "2026-06-08T11:00:00Z"]
    (∃ w t, (sessionToTab sess).waitingSince = some w ∧ readStamp w = some t ∧
      IsLeast (instantsOf readStamp sess.waitStamps) t) ↔
    ∃ v ∈ sess.waitStamps, ∃ t, readStamp v = some t ∧
      IsLeast (instantsOf readStamp sess.waitStamps) t ∧
      ∀ w ∈ sess.waitStamps, ∀ u, readStamp w = some u → t < u → v ≤ w := by
  intro sess
  refine earliest_wait_iff readStamp sess (fun r mem _ => ?_) ⟨_, List.mem_cons_self, rfl⟩
  rcases List.mem_pair.mp mem with rfl | rfl
  · exact ⟨_, _, rfl, rfl⟩
  · exact ⟨_, _, rfl, rfl⟩

/-- Of eleven o'clock here and noon five hours east, eleven is less as a text and noon earlier. -/
theorem later_stamp_shown : ¬ ∀ (parseEpochSecs : String → Option Int) (sess : Session),
    (∀ r ∈ sess.runs, r.state = .waiting →
      ∃ w t, r.waitingSince = some w ∧ parseEpochSecs w = some t) →
    (∃ r ∈ sess.runs, r.state = .waiting) →
    ∃ w t, (sessionToTab sess).waitingSince = some w ∧ parseEpochSecs w = some t ∧
      IsLeast (instantsOf parseEpochSecs sess.waitStamps) t := by
  intro earliest
  let sess := waitingSession ["2026-06-08T11:00:00Z", "2026-06-08T12:00:00+05:00"]
  obtain ⟨w, t, shown, parsed, least⟩ := earliest readStamp sess (fun r mem _ => by
    rcases List.mem_pair.mp mem with rfl | rfl
    · exact ⟨_, _, rfl, rfl⟩
    · exact ⟨_, _, rfl, rfl⟩) ⟨_, List.mem_cons_self, rfl⟩
  have eleven : (sessionToTab sess).waitingSince = some "2026-06-08T11:00:00Z" := by decide
  cases eleven.symm.trans shown
  have late : readStamp "2026-06-08T11:00:00Z" = some 1780916400 := by decide
  cases late.symm.trans parsed
  have early : (1780902000 : Int) ∈ instantsOf readStamp sess.waitStamps :=
    ⟨"2026-06-08T12:00:00+05:00", ⟨_, List.mem_cons_of_mem _ List.mem_cons_self, rfl, rfl⟩,
      by decide⟩
  exact absurd (least.2 early) (by decide)

end VsFleet
