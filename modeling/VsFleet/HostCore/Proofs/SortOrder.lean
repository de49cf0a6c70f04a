import Mathlib.Data.Prod.Lex
import VsFleet.HostCore.Sort
import VsFleet.Misc.StableSort
import VsFleet.Protocol.Wire

/-!
# The order of the tabs as the clock moves

The age of a stamp is counted in whole seconds. From the second after the last stamp on, a tab with
a stamp is older than one without, and of two with stamps the one of the earlier stamp is: the order
of the tabs is one and the same.
-/

namespace VsFleet

/-! ## The keys -/

/-- The key of a tab, its parts in their order. -/
def SessionTab.orderKey (parseEpochSecs : String → Option Int) (now : Option String)
    (tab : SessionTab) : Bool ×ₗ Nat ×ₗ Nat :=
  toLex (tab.unread, toLex (urgencySortRank tab.urgency,
    waitingAgeSecs parseEpochSecs tab.waitingSince now))

theorem compareKeys_isLE {ka kb : Bool × Nat × Nat} : (compareKeys ka kb).isLE = true ↔
    toLex (ka.1, toLex ka.2) ≤ toLex (kb.1, toLex kb.2) := by
  have bool : ∀ a b : Bool, compare a b = .lt ↔ a < b := by decide
  rw [compareKeys, Ordering.isLE_then_iff_or, Ordering.isLE_then_iff_or, Prod.Lex.toLex_le_toLex,
    Prod.Lex.toLex_le_toLex, bool, Nat.compare_eq_lt]
  simp [Nat.isLE_compare]

theorem sortTabs_by_orderKey (parseEpochSecs : String → Option Int) (now : Option String)
    (a b : SessionTab) :
    (compareKeys (b.sortKey parseEpochSecs now) (a.sortKey parseEpochSecs now)).isLE = true ↔
      b.orderKey parseEpochSecs now ≤ a.orderKey parseEpochSecs now :=
  compareKeys_isLE

/-! ## The ages as the clock moves -/

section Ages

variable {parseEpochSecs : String → Option Int} {tabs : List SessionTab}

/-- A time later, in whole seconds, than every stamp of the tabs that reads as one. -/
def LaterThanStamps (parseEpochSecs : String → Option Int) (tabs : List SessionTab)
    (now : String) : Prop :=
  ∃ t, parseEpochSecs now = some t ∧
    ∀ tab ∈ tabs, ∀ w u, tab.waitingSince = some w → parseEpochSecs w = some u → u < t

/-- The second a tab waits since. -/
def SessionTab.since (parseEpochSecs : String → Option Int) (tab : SessionTab) : Option Int :=
  tab.waitingSince.bind parseEpochSecs

theorem waitingAgeSecs_eq {tab : SessionTab} {now : String} {t : Int}
    (reads : parseEpochSecs now = some t) :
    waitingAgeSecs parseEpochSecs tab.waitingSince (some now) =
      ((tab.since parseEpochSecs).map (fun u => (t - u).toNat)).getD 0 := by
  unfold waitingAgeSecs SessionTab.since
  cases tab.waitingSince with
  | none => rfl
  | some w =>
    simp only [reads, Option.bind_some]
    cases parseEpochSecs w <;> rfl

/-- Of two tabs the younger is the one without a stamp, or the one with the later stamp. -/
def younger : Option Int → Option Int → Prop
  | none, _ => True
  | some _, none => False
  | some u, some v => v ≤ u

/-- The clock does not tell which of two tabs is younger. -/
theorem waitingAgeSecs_le_iff {now : String} (later : LaterThanStamps parseEpochSecs tabs now)
    {a b : SessionTab} (ha : a ∈ tabs) (hb : b ∈ tabs) :
    waitingAgeSecs parseEpochSecs a.waitingSince (some now) ≤
        waitingAgeSecs parseEpochSecs b.waitingSince (some now) ↔
      younger (a.since parseEpochSecs) (b.since parseEpochSecs) := by
  obtain ⟨t, reads, after⟩ := later
  have before : ∀ {tab : SessionTab} {u : Int}, tab ∈ tabs →
      tab.since parseEpochSecs = some u → u < t := by
    intro tab u mem since
    obtain ⟨w, own, parsed⟩ := Option.bind_eq_some_iff.mp since
    exact after tab mem w u own parsed
  rw [waitingAgeSecs_eq reads, waitingAgeSecs_eq reads]
  cases sa : a.since parseEpochSecs with
  | none => simp [younger]
  | some u =>
    have late : u < t := before ha sa
    cases sb : b.since parseEpochSecs with
    | none =>
      simp only [Option.map_some, Option.getD_some, Option.map_none, Option.getD_none, younger]
      exact iff_of_false (by omega) id
    | some v =>
      have late' : v < t := before hb sb
      simp only [Option.map_some, Option.getD_some, younger]
      omega

theorem orderKey_le_iff {now : String} (later : LaterThanStamps parseEpochSecs tabs now)
    {a b : SessionTab} (ha : a ∈ tabs) (hb : b ∈ tabs) :
    a.orderKey parseEpochSecs (some now) ≤ b.orderKey parseEpochSecs (some now) ↔
      a.unread < b.unread ∨ a.unread = b.unread ∧
        (urgencySortRank a.urgency < urgencySortRank b.urgency ∨
          urgencySortRank a.urgency = urgencySortRank b.urgency ∧
            younger (a.since parseEpochSecs) (b.since parseEpochSecs)) := by
  rw [← waitingAgeSecs_le_iff later ha hb]
  simp only [SessionTab.orderKey, Prod.Lex.toLex_le_toLex]

end Ages

/-! ## One order -/

/-- At two times later, in whole seconds, than every stamp, the tabs are sorted into one order. -/
theorem sortTabs_one_order (parseEpochSecs : String → Option Int) (tabs : List SessionTab)
    (now₁ now₂ : String) (later₁ : LaterThanStamps parseEpochSecs tabs now₁)
    (later₂ : LaterThanStamps parseEpochSecs tabs now₂) :
    ∃ order : Equiv.Perm (Fin tabs.length), ∀ now ∈ [now₁, now₂],
      sortTabs parseEpochSecs tabs (some now) = List.ofFn (tabs.get ∘ order) ∧
      StableOrder (SessionTab.orderKey parseEpochSecs (some now)) tabs order := by
  have first : StableOrder (SessionTab.orderKey parseEpochSecs (some now₁)) tabs _ :=
    stableOrder_stableOrder
  refine ⟨stableOrder (SessionTab.orderKey parseEpochSecs (some now₁)) tabs, fun now mem => ?_⟩
  have later : LaterThanStamps parseEpochSecs tabs now := by
    rcases List.mem_pair.mp mem with rfl | rfl
    · exact later₁
    · exact later₂
  have sorted : StableOrder (SessionTab.orderKey parseEpochSecs (some now)) tabs _ :=
    first.congr (fun a ha b hb => by
      rw [orderKey_le_iff later₁ ha hb, orderKey_le_iff later ha hb])
  refine ⟨?_, sorted⟩
  rw [stableOrder_unique.mp sorted]
  exact mergeSort_eq_ofFn (sortTabs_by_orderKey parseEpochSecs (some now)) tabs

/-- Four stamps of one minute. -/
def readMoment (stamp : String) : Option Int :=
  if stamp = "2026-06-08T12:00:00.100Z" then some 1780920000100000000
  else if stamp = "2026-06-08T12:00:00.900Z" then some 1780920000900000000
  else if stamp = "2026-06-08T12:00:05Z" then some 1780920005000000000
  else if stamp = "2026-06-08T12:00:09Z" then some 1780920009000000000
  else none

/-- The tab of a session whose run waits, with its stamp if it has one. -/
def waitingTab (id : String) (since : Option String) : SessionTab :=
  sessionToTab (.plain id [{ AgentRun.plain id "n" .waiting with waitingSince := since }])

/-- A tab without a stamp, and one of the first moment. -/
def waitingTabs : List SessionTab :=
  [waitingTab "a" none, waitingTab "b" (some "2026-06-08T12:00:00.100Z")]

/-- What holds of the one stamp holds of all the stamps of the tabs. -/
theorem forall_waitingTabs {P : String → Prop} (first : P "2026-06-08T12:00:00.100Z") :
    ∀ tab ∈ waitingTabs, ∀ w, tab.waitingSince = some w → P w := by
  intro tab mem w own
  rcases List.mem_pair.mp mem with rfl | rfl
  · cases own
  · cases own
    exact first

theorem sortTabs_one_order_waiting :
    ∃ order : Equiv.Perm (Fin waitingTabs.length),
      ∀ now ∈ ["2026-06-08T12:00:05Z", "2026-06-08T12:00:09Z"],
        sortTabs (parseTimestampSecs readMoment) waitingTabs (some now) =
          List.ofFn (waitingTabs.get ∘ order) ∧
        StableOrder (SessionTab.orderKey (parseTimestampSecs readMoment) (some now))
          waitingTabs order := by
  have second : parseTimestampSecs readMoment "2026-06-08T12:00:00.100Z" = some 1780920000 := by
    decide
  have after : ∀ t : Int, 1780920000 < t → ∀ tab ∈ waitingTabs, ∀ w u,
      tab.waitingSince = some w → parseTimestampSecs readMoment w = some u → u < t := by
    intro t late tab mem w u own parsed
    refine forall_waitingTabs (P := fun w => ∀ u, parseTimestampSecs readMoment w = some u → u < t)
      (fun u parsed => ?_) tab mem w own u parsed
    cases second.symm.trans parsed
    exact late
  exact sortTabs_one_order (parseTimestampSecs readMoment) waitingTabs _ _
    ⟨1780920005, by decide, after _ (by decide)⟩ ⟨1780920009, by decide, after _ (by decide)⟩

/-- A stamp of the second the clock shows has no age, and comes before none a second on. -/
theorem sortTabs_within_second : ¬ ∀ (parse : String → Option Int) (tabs : List SessionTab)
    (now₁ now₂ : String),
    (∀ now ∈ [now₁, now₂], ∃ t, readTimestamp parse now = some t ∧ ∀ tab ∈ tabs, ∀ w u,
      tab.waitingSince = some w → readTimestamp parse w = some u → u < t) →
    ∃ order : Equiv.Perm (Fin tabs.length), ∀ now ∈ [now₁, now₂],
      sortTabs (parseTimestampSecs parse) tabs (some now) = List.ofFn (tabs.get ∘ order) ∧
      StableOrder (SessionTab.orderKey (parseTimestampSecs parse) (some now)) tabs order := by
  intro one
  have first : readTimestamp readMoment "2026-06-08T12:00:00.100Z" = some 1780920000100000000 := by
    decide
  have after : ∀ t : Int, 1780920000100000000 < t → ∀ tab ∈ waitingTabs, ∀ w u,
      tab.waitingSince = some w → readTimestamp readMoment w = some u → u < t := by
    intro t late tab mem w u own parsed
    refine forall_waitingTabs (P := fun w => ∀ u, readTimestamp readMoment w = some u → u < t)
      (fun u parsed => ?_) tab mem w own u parsed
    cases first.symm.trans parsed
    exact late
  obtain ⟨order, both⟩ := one readMoment waitingTabs "2026-06-08T12:00:00.900Z"
    "2026-06-08T12:00:05Z" (fun now mem => by
      rcases List.mem_pair.mp mem with rfl | rfl
      · exact ⟨1780920000900000000, by decide, after _ (by decide)⟩
      · exact ⟨1780920005000000000, by decide, after _ (by decide)⟩)
  let i : Fin waitingTabs.length := ⟨0, by decide⟩
  let j : Fin waitingTabs.length := ⟨1, by decide⟩
  -- within the second the ages are equal, and the tabs keep their places
  have same : ∀ a b : Fin waitingTabs.length,
      SessionTab.orderKey (parseTimestampSecs readMoment) (some "2026-06-08T12:00:00.900Z")
        (waitingTabs.get a) =
      SessionTab.orderKey (parseTimestampSecs readMoment) (some "2026-06-08T12:00:00.900Z")
        (waitingTabs.get b) := by
    decide
  have lt : (order i).val < (order j).val :=
    (both _ List.mem_cons_self).2.stable i j (by decide) (same _ _)
  have two : waitingTabs.length = 2 := rfl
  have at_i : order i = i := Fin.ext (show (order i).val = 0 by omega)
  have at_j : order j = j := Fin.ext (show (order j).val = 1 by omega)
  have sorted := (both _ (List.mem_cons_of_mem _ List.mem_cons_self)).2.sorted i j (by decide)
  rw [at_i, at_j] at sorted
  exact absurd sorted (by decide)

end VsFleet
