import Mathlib.Order.Bounds.Basic
import VsFleet.HostCore.Palette
import VsFleet.Misc.StableSort
import VsFleet.Misc.Subsequence

/-!
# What the palette lists, and in what order

The scan of a query is the greedy search for a subsequence, and its score counts the places. While
no total passes the largest word, the palette lists exactly the tabs that match, by their totals.
-/

namespace VsFleet

/-! ## The score of places -/

/-- What a match adds to the score, after the match before it. -/
def matchGain (prev : Option Nat) (p : Nat) : Int :=
  (if p = 0 then 10 else 0) + (if prev.map (· + 1) = some p then 5 else 0)

/-- The score of the places of a match. -/
def placesScore : Option Nat → List Nat → Int
  | _, [] => 0
  | prev, p :: places => matchGain prev p + placesScore (some p) places

/-- After a match the next is adjacent or earns nothing. -/
theorem placesScore_after {places : List Nat} : ∀ {prev : Nat}, (prev :: places).Pairwise (· < ·) →
    0 ≤ placesScore (some prev) places ∧ placesScore (some prev) places ≤ 5 * places.length ∧
    (placesScore (some prev) places = 5 * places.length ↔
      places = List.range' (prev + 1) places.length) := by
  induction places with
  | nil => simp [placesScore]
  | cons p places ih =>
    intro prev increasing
    obtain ⟨after, increasing⟩ := List.pairwise_cons.mp increasing
    obtain ⟨nonneg, le, eq⟩ := ih increasing
    have pos : prev < p := after p List.mem_cons_self
    have gain : matchGain (some prev) p = if prev + 1 = p then 5 else 0 := by
      simp [matchGain, Nat.ne_of_gt (Nat.zero_lt_of_lt pos)]
    rw [placesScore, gain, List.length_cons, List.range'_succ, List.cons.injEq]
    push_cast
    split
    · rename_i adjacent
      subst adjacent
      refine ⟨by omega, by omega, ?_⟩
      rw [← eq]
      simp only [true_and]
      omega
    · rename_i apart
      exact ⟨by omega, by omega, iff_of_false (by omega) (fun h => apart h.1.symm)⟩

/-- The score of a match of at least one character, and where it is the largest. -/
theorem placesScore_start {places : List Nat} (increasing : places.Pairwise (· < ·))
    (ne : places ≠ []) :
    0 ≤ placesScore none places ∧ placesScore none places ≤ 10 + 5 * (places.length - 1 : Int) ∧
    (placesScore none places = 10 + 5 * (places.length - 1 : Int) ↔
      places = List.range' 0 places.length) := by
  obtain ⟨p, places, rfl⟩ := List.exists_cons_of_ne_nil ne
  obtain ⟨nonneg, le, eq⟩ := placesScore_after increasing
  have gain : matchGain none p = if p = 0 then 10 else 0 := by
    simp [matchGain]
  rw [placesScore, gain, List.length_cons, List.range'_succ, List.cons.injEq]
  push_cast
  split
  · rename_i zero
    subst zero
    refine ⟨by omega, by omega, ?_⟩
    rw [← eq]
    simp only [true_and]
    omega
  · rename_i later
    exact ⟨by omega, by omega, iff_of_false (by omega) (fun h => later h.1)⟩

/-! ## The scan is the greedy search -/

section Scan

variable {queryLower : List Char} {scan : FuzzyScan}

/-- A character that is sought is taken and scored. -/
theorem visit_of_match {q : Char} (n : Nat) (sought : queryLower[scan.qi]? = some q) :
    scan.visit queryLower (q, n) =
      ⟨scan.qi + 1, scan.score + Int32.ofInt (matchGain scan.prevMatchedPos n), some n⟩ := by
  have first : (if n = 0 then scan.score + prefixBonus else scan.score) =
      scan.score + Int32.ofInt (if n = 0 then 10 else 0) := by
    split <;> simp [prefixBonus]
  have adjacent : ∀ (prev : Nat) (score : Int32),
      (if n = prev + 1 then score + consecutiveBonus else score) =
        score + Int32.ofInt (if prev + 1 = n then 5 else 0) := by
    intro prev score
    by_cases next : prev + 1 = n
    · simp [next, consecutiveBonus]
    · simp [next, Ne.symm next]
  simp only [FuzzyScan.visit, sought, if_true, first]
  cases scan.prevMatchedPos with
  | none => simp [matchGain]
  | some prev =>
    simp only [adjacent]
    simp only [matchGain, Option.map_some, Option.some.injEq, Int32.ofInt_add, Int32.add_assoc]

/-- Any other one is passed over. -/
theorem visit_of_ne {q t : Char} (n : Nat) (sought : queryLower[scan.qi]? = some q)
    (ne : t ≠ q) : scan.visit queryLower (t, n) = scan := by
  simp [FuzzyScan.visit, sought, ne]

/-- So is every one once the query is found. -/
theorem visit_of_found (t : Char) (n : Nat) (found : queryLower[scan.qi]? = none) :
    scan.visit queryLower (t, n) = scan := by
  simp [FuzzyScan.visit, found]

theorem lt_length_of_drop {α : Type} {l : List α} {i : Nat} {a : α} {rest : List α}
    (drop : l.drop i = a :: rest) : i < l.length := by
  by_contra all
  rw [List.drop_eq_nil_of_le (Nat.le_of_not_lt all)] at drop
  cases drop

/-- Over a beginning of the target and the rest of the query, the scan ends where the greedy search
does. -/
theorem foldl_visit (queryLower ts : List Char) : ∀ (n : Nat) (scan : FuzzyScan),
    scan.qi ≤ queryLower.length →
    (∀ places, greedyPlaces (queryLower.drop scan.qi) ts n = some places →
      ((ts.zipIdx n).foldl (FuzzyScan.visit queryLower) scan).qi = queryLower.length ∧
      ((ts.zipIdx n).foldl (FuzzyScan.visit queryLower) scan).score =
        scan.score + Int32.ofInt (placesScore scan.prevMatchedPos places)) ∧
    (greedyPlaces (queryLower.drop scan.qi) ts n = none →
      ((ts.zipIdx n).foldl (FuzzyScan.visit queryLower) scan).qi < queryLower.length) := by
  induction ts with
  | nil =>
    intro n scan within
    rw [List.zipIdx_nil, List.foldl_nil]
    cases rest : queryLower.drop scan.qi with
    | nil =>
      have all := List.drop_eq_nil_iff.mp rest
      refine ⟨fun places found => ?_, fun found => absurd found (by simp [greedyPlaces])⟩
      cases found
      exact ⟨Nat.le_antisymm within all, by simp [placesScore]⟩
    | cons q qs =>
      exact ⟨fun places found => absurd found (by simp [greedyPlaces]),
        fun _ => lt_length_of_drop rest⟩
  | cons t ts ih =>
    intro n scan within
    rw [List.zipIdx_cons, List.foldl_cons]
    cases rest : queryLower.drop scan.qi with
    | nil =>
      have all := List.drop_eq_nil_iff.mp rest
      rw [visit_of_found t n (List.getElem?_eq_none all)]
      have := ih (n + 1) scan within
      rw [rest] at this
      simpa only [greedyPlaces] using this
    | cons q qs =>
      have lt : scan.qi < queryLower.length := lt_length_of_drop rest
      rw [List.drop_eq_getElem_cons lt, List.cons.injEq] at rest
      have sought : queryLower[scan.qi]? = some q := by
        rw [List.getElem?_eq_getElem lt, rest.1]
      by_cases eq : t = q
      · subst eq
        rw [visit_of_match n sought]
        obtain ⟨found, missed⟩ := ih (n + 1) ⟨scan.qi + 1,
          scan.score + Int32.ofInt (matchGain scan.prevMatchedPos n), some n⟩ lt
        dsimp only at found missed
        rw [rest.2] at found missed
        rw [greedyPlaces, if_pos rfl]
        refine ⟨fun places taken => ?_, fun none => missed (Option.map_eq_none_iff.mp none)⟩
        obtain ⟨rest', later, rfl⟩ := Option.map_eq_some_iff.mp taken
        obtain ⟨qi, score⟩ := found rest' later
        exact ⟨qi, by rw [score, placesScore, Int32.ofInt_add, Int32.add_assoc]⟩
      · rw [visit_of_ne n sought eq, greedyPlaces, if_neg eq]
        have := ih (n + 1) scan within
        rwa [List.drop_eq_getElem_cons lt, rest.1, rest.2] at this

end Scan

/-- The scan finds what the greedy search finds, and its score is the word of that of the places. -/
theorem fuzzyScore_eq {toLowercase : String → String} (empty : toLowercase "" = "")
    (query target : String) : fuzzyScore toLowercase query target =
      (greedyPlaces (toLowercase query).toList (toLowercase target).toList 0).map
        (fun places => Int32.ofInt (placesScore none places)) := by
  unfold fuzzyScore
  split
  · rename_i none
    rw [String.isEmpty_iff.mp none, empty]
    simp [greedyPlaces, placesScore]
  · obtain ⟨found, missed⟩ := foldl_visit (toLowercase query).toList (toLowercase target).toList 0
      ⟨0, 0, none⟩ (Nat.zero_le _)
    dsimp only at found missed ⊢
    rw [List.drop_zero] at found missed
    cases places : greedyPlaces (toLowercase query).toList (toLowercase target).toList 0 with
    | none => rw [if_neg (Nat.ne_of_lt (missed places)), Option.map_none]
    | some places' =>
      obtain ⟨qi, score⟩ := found places' places
      rw [if_pos qi, score, Int32.zero_add, Option.map_some]

/-! ## The law of a query -/

section Law

variable (toLowercase : String → String) (query : String)

/-- The scores of the fields that match. -/
def fieldScores (fields : List String) : Set Int :=
  {s | ∃ field ∈ fields, ∃ score, fuzzyScore toLowercase query field = some score ∧
    score.toInt = s}

/-- The fields of a tab that are searched. -/
def searched (cwdsByTab : List (List String)) (tab : SessionTab) (i : Nat) : List String :=
  tab.title :: cwdsByTab[i]?.getD []

/-- The total of the tab at an index: the best score of its fields, and the bonus where it is
unread. -/
def TotalScore (view : InboxView) (cwdsByTab : List (List String)) (i : Nat) (total : Int) : Prop :=
  ∃ tab best, view.tabs[i]? = some tab ∧
    IsGreatest (fieldScores toLowercase query (searched cwdsByTab tab i)) best ∧
    total = best + if tab.unread then 20 else 0

/-- The palette lists the tabs that match, each once, by their totals and then as in the view. -/
structure PaletteLaw (view : InboxView) (cwdsByTab : List (List String)) : Prop where
  listed : ∀ i, i ∈ (queryPalette toLowercase view query cwdsByTab).map PaletteCandidate.tabIndex ↔
    ∃ tab, view.tabs[i]? = some tab ∧ ∃ field ∈ searched cwdsByTab tab i,
      (toLowercase query).toList.Sublist (toLowercase field).toList
  once : ((queryPalette toLowercase view query cwdsByTab).map PaletteCandidate.tabIndex).Nodup
  tabs : ∀ c ∈ queryPalette toLowercase view query cwdsByTab, ∃ tab,
    view.tabs[c.tabIndex]? = some tab ∧ c.sessionId = tab.sessionId ∧ c.title = tab.title ∧
      c.unread = tab.unread
  ranked : (queryPalette toLowercase view query cwdsByTab).Pairwise (fun a b => ∀ s t,
    TotalScore toLowercase query view cwdsByTab a.tabIndex s →
    TotalScore toLowercase query view cwdsByTab b.tabIndex t →
      t < s ∨ s = t ∧ a.tabIndex < b.tabIndex)

/-- The law of the matcher, for a query, of every target and every view. -/
structure FuzzyLaw : Prop where
  found : ∀ target, (fuzzyScore toLowercase query target).isSome = true ↔
    (toLowercase query).toList.Sublist (toLowercase target).toList
  bounds : ∀ target score, 1 ≤ (toLowercase query).length →
    fuzzyScore toLowercase query target = some score →
      0 ≤ score.toInt ∧ score.toInt ≤ 10 + 5 * ((toLowercase query).length - 1 : Int)
  greatest : ∀ target, 1 ≤ (toLowercase query).length →
    ((∃ score, fuzzyScore toLowercase query target = some score ∧
      score.toInt = 10 + 5 * ((toLowercase query).length - 1 : Int)) ↔
    (toLowercase query).toList <+: (toLowercase target).toList)
  palette : ∀ view cwdsByTab, PaletteLaw toLowercase query view cwdsByTab

variable {toLowercase query}

/-! ### The best of the fields -/

/-- The best of some fields, if any matches. -/
def BestOf (toLowercase : String → String) (query : String) (fields : List String) :
    Option Int32 → Prop
  | none => fieldScores toLowercase query fields = ∅
  | some best => IsGreatest (fieldScores toLowercase query fields) best.toInt

/-- One field more adds its score. -/
theorem fieldScores_concat {fields : List String} {cwd : String} :
    fieldScores toLowercase query (fields ++ [cwd]) = fieldScores toLowercase query fields ∪
      fieldScores toLowercase query [cwd] := by
  ext s
  simp only [fieldScores, List.mem_append, or_and_right, exists_or, Set.mem_union,
    Set.mem_ofPred_eq]

/-- The best of one field is its score. -/
theorem bestOf_singleton {field : String} :
    BestOf toLowercase query [field] (fuzzyScore toLowercase query field) := by
  cases own : fuzzyScore toLowercase query field with
  | none => simp [BestOf, fieldScores, own]
  | some score =>
    refine ⟨⟨field, List.mem_cons_self, score, own, rfl⟩, ?_⟩
    rintro s ⟨field', mem, score', own', rfl⟩
    cases List.mem_singleton.mp mem
    cases own.symm.trans own'
    exact le_refl _

theorem toInt_max (a b : Int32) : (max a b).toInt = max a.toInt b.toInt := by
  show (if a ≤ b then b else a).toInt = _
  split
  · rename_i le
    rw [max_eq_right (Int32.le_iff_toInt_le.mp le)]
  · rename_i gt
    rw [max_eq_left (le_of_lt (not_le.mp (mt Int32.le_iff_toInt_le.mpr gt)))]

/-- The best of one field more. -/
theorem BestOf.concat {fields : List String} {best : Option Int32}
    (h : BestOf toLowercase query fields best) (cwd : String) :
    BestOf toLowercase query (fields ++ [cwd])
      (bestScore best (fuzzyScore toLowercase query cwd)) := by
  have own : BestOf toLowercase query [cwd] (fuzzyScore toLowercase query cwd) := bestOf_singleton
  cases new : fuzzyScore toLowercase query cwd with
  | none =>
    rw [new] at own
    cases best with
    | none => simpa only [bestScore, BestOf, fieldScores_concat, Set.union_empty_iff] using ⟨h, own⟩
    | some b =>
      simp only [bestScore, BestOf] at h own ⊢
      rwa [fieldScores_concat, own, Set.union_empty]
  | some s =>
    rw [new] at own
    cases best with
    | none =>
      simp only [bestScore, BestOf] at h own ⊢
      rwa [fieldScores_concat, h, Set.empty_union]
    | some b =>
      simp only [bestScore, BestOf] at h own ⊢
      rw [fieldScores_concat, toInt_max]
      exact h.union own

/-- The fold over the directories gives the best of all. -/
theorem BestOf.foldl (cwds : List String) : ∀ {fields : List String} {best : Option Int32},
    BestOf toLowercase query fields best → BestOf toLowercase query (fields ++ cwds)
      (cwds.foldl (fun best cwd => bestScore best (fuzzyScore toLowercase query cwd)) best) := by
  induction cwds with
  | nil =>
    intro fields best h
    rwa [List.append_nil]
  | cons cwd cwds ih =>
    intro fields best h
    have := ih (h.concat cwd)
    rwa [List.append_assoc] at this

/-- The score of a tab is the best of its title and its directories. -/
theorem tabFuzzyScore_bestOf (tab : SessionTab) (cwds : List String) :
    BestOf toLowercase query (tab.title :: cwds) (tabFuzzyScore toLowercase query tab cwds) :=
  bestOf_singleton.foldl cwds

/-! ### The law up to a length -/

/-- A field matches if it has the query as a subsequence, in lower case. -/
theorem fuzzyScore_isSome (empty : toLowercase "" = "") (target : String) :
    (fuzzyScore toLowercase query target).isSome = true ↔
      (toLowercase query).toList.Sublist (toLowercase target).toList := by
  rw [fuzzyScore_eq empty, Option.isSome_map, greedyPlaces_isSome]

/-- Of a query that is not too long the score is that of the places. -/
theorem fuzzyScore_places (empty : toLowercase "" = "")
    (short : (toLowercase query).length ≤ 429496728) {target : String} {score : Int32}
    (found : fuzzyScore toLowercase query target = some score) :
    ∃ places, greedyPlaces (toLowercase query).toList (toLowercase target).toList 0 = some places ∧
      score.toInt = placesScore none places := by
  rw [fuzzyScore_eq empty] at found
  obtain ⟨places, taken, rfl⟩ := Option.map_eq_some_iff.mp found
  refine ⟨places, taken, ?_⟩
  have length := greedyPlaces_length taken
  rw [String.length_toList] at length
  by_cases ne : places = []
  · subst ne
    rfl
  · obtain ⟨nonneg, le, -⟩ := placesScore_start (greedyPlaces_increasing taken).1 ne
    exact Int32.toInt_ofInt_of_le (by omega) (by omega)

/-- The bounds of a score, within which nothing overflows. -/
theorem fuzzyScore_range (empty : toLowercase "" = "")
    (short : (toLowercase query).length ≤ 429496728) {target : String} {score : Int32}
    (found : fuzzyScore toLowercase query target = some score) :
    0 ≤ score.toInt ∧ score.toInt ≤ 5 + 5 * ((toLowercase query).length : Int) := by
  obtain ⟨places, taken, score⟩ := fuzzyScore_places empty short found
  have length := greedyPlaces_length taken
  rw [String.length_toList] at length
  by_cases ne : places = []
  · subst ne
    rw [score, placesScore]
    omega
  · obtain ⟨nonneg, le, -⟩ := placesScore_start (greedyPlaces_increasing taken).1 ne
    omega

/-- The bounds for a query that is not empty. -/
theorem fuzzyScore_bounds (empty : toLowercase "" = "")
    (short : (toLowercase query).length ≤ 429496728) {target : String} {score : Int32}
    (some_char : 1 ≤ (toLowercase query).length)
    (found : fuzzyScore toLowercase query target = some score) :
    0 ≤ score.toInt ∧ score.toInt ≤ 10 + 5 * ((toLowercase query).length - 1 : Int) ∧
    (score.toInt = 10 + 5 * ((toLowercase query).length - 1 : Int) ↔
      (toLowercase query).toList <+: (toLowercase target).toList) := by
  obtain ⟨places, taken, score⟩ := fuzzyScore_places empty short found
  have length := greedyPlaces_length taken
  have ne : places ≠ [] := by
    rintro rfl
    rw [← String.length_toList, ← length] at some_char
    cases some_char
  have start := placesScore_start (greedyPlaces_increasing taken).1 ne
  rw [length, String.length_toList, ← score] at start
  refine ⟨start.1, start.2.1, start.2.2.trans ?_⟩
  rw [← greedyPlaces_range', taken, Option.some.injEq, String.length_toList]

/-- The score of a query in itself. -/
theorem fuzzyScore_self (empty : toLowercase "" = "")
    (some_char : 1 ≤ (toLowercase query).length) : fuzzyScore toLowercase query query =
      some (Int32.ofInt (10 + 5 * ((toLowercase query).length - 1 : Int))) := by
  have places : greedyPlaces (toLowercase query).toList (toLowercase query).toList 0 = some _ :=
    greedyPlaces_range'.mpr (List.prefix_refl _)
  have ne : List.range' 0 (toLowercase query).toList.length ≠ [] := by
    refine List.ne_nil_of_length_pos ?_
    rwa [List.length_range', String.length_toList]
  have start := placesScore_start (greedyPlaces_increasing places).1 ne
  rw [List.length_range', String.length_toList] at start
  rw [fuzzyScore_eq empty, places, Option.map_some, String.length_toList, start.2.2.mpr rfl]

/-! ### The candidates -/

section Candidates

variable {view : InboxView} {cwdsByTab : List (List String)} {c : PaletteCandidate}

/-- The candidates in the order of the view. -/
def candidates (toLowercase : String → String) (query : String) (view : InboxView)
    (cwdsByTab : List (List String)) : List PaletteCandidate :=
  view.tabs.zipIdx.filterMap (paletteCandidate toLowercase query cwdsByTab)

/-- What the candidates are, tab by tab. -/
theorem mem_candidates : c ∈ candidates toLowercase query view cwdsByTab ↔
    ∃ tab i, view.tabs[i]? = some tab ∧
      paletteCandidate toLowercase query cwdsByTab (tab, i) = some c := by
  simp only [candidates, List.mem_filterMap, Prod.exists, List.mem_zipIdx_iff_getElem?]

/-- What a candidate has. -/
theorem paletteCandidate_some {tab : SessionTab} {i : Nat}
    (taken : paletteCandidate toLowercase query cwdsByTab (tab, i) = some c) :
    ∃ best, tabFuzzyScore toLowercase query tab (cwdsByTab[i]?.getD []) = some best ∧
      c = ⟨i, tab.sessionId, tab.title, best + if tab.unread then unreadBonus else 0,
        tab.unread⟩ := by
  obtain ⟨best, own, rfl⟩ := Option.map_eq_some_iff.mp taken
  exact ⟨best, own, rfl⟩

/-- The candidates are in the order of the tabs. -/
theorem candidates_increasing :
    (candidates toLowercase query view cwdsByTab).Pairwise
      (fun a b => a.tabIndex < b.tabIndex) := by
  rw [candidates, List.pairwise_filterMap, zipIdx_eq_ofFn, List.pairwise_ofFn]
  intro i j lt a ha b hb
  obtain ⟨-, -, rfl⟩ := paletteCandidate_some ha
  obtain ⟨-, -, rfl⟩ := paletteCandidate_some hb
  exact lt

/-- The palette has the candidates in its own order. -/
theorem mem_queryPalette : c ∈ queryPalette toLowercase view query cwdsByTab ↔
    c ∈ candidates toLowercase query view cwdsByTab :=
  List.mem_mergeSort

/-- A tab matches if one of its fields does. -/
theorem tabFuzzyScore_isSome (tab : SessionTab) (cwds : List String) :
    (tabFuzzyScore toLowercase query tab cwds).isSome = true ↔
      ∃ field ∈ tab.title :: cwds, (fuzzyScore toLowercase query field).isSome = true := by
  have best : BestOf toLowercase query (tab.title :: cwds)
      (tabFuzzyScore toLowercase query tab cwds) := tabFuzzyScore_bestOf tab cwds
  cases own : tabFuzzyScore toLowercase query tab cwds with
  | none =>
    rw [own] at best
    refine iff_of_false (by simp) ?_
    rintro ⟨field, mem, found⟩
    obtain ⟨score, found⟩ := Option.isSome_iff_exists.mp found
    have : score.toInt ∈ fieldScores toLowercase query (tab.title :: cwds) :=
      ⟨field, mem, score, found, rfl⟩
    rw [show fieldScores toLowercase query (tab.title :: cwds) = ∅ from best] at this
    exact this
  | some score =>
    rw [own] at best
    obtain ⟨field, mem, score', found, -⟩ := best.1
    exact iff_of_true rfl ⟨field, mem, by rw [found]; rfl⟩

/-- A tab is listed just in case a field matches. -/
theorem listed_iff (empty : toLowercase "" = "") (i : Nat) :
    i ∈ (queryPalette toLowercase view query cwdsByTab).map PaletteCandidate.tabIndex ↔
      ∃ tab, view.tabs[i]? = some tab ∧ ∃ field ∈ searched cwdsByTab tab i,
        (toLowercase query).toList.Sublist (toLowercase field).toList := by
  simp only [← fuzzyScore_isSome empty, searched, ← tabFuzzyScore_isSome]
  rw [List.mem_map]
  constructor
  · rintro ⟨c, mem, rfl⟩
    obtain ⟨tab, i, there, taken⟩ := mem_candidates.mp (mem_queryPalette.mp mem)
    obtain ⟨best, own, rfl⟩ := paletteCandidate_some taken
    exact ⟨tab, there, by rw [own]; rfl⟩
  · rintro ⟨tab, there, found⟩
    obtain ⟨best, own⟩ := Option.isSome_iff_exists.mp found
    have taken : paletteCandidate toLowercase query cwdsByTab (tab, i) = some
        ⟨i, tab.sessionId, tab.title, best + if tab.unread then unreadBonus else 0, tab.unread⟩ := by
      rw [paletteCandidate, own]
      rfl
    exact ⟨_, mem_queryPalette.mpr (mem_candidates.mpr ⟨tab, i, there, taken⟩), rfl⟩

/-- While no total passes the largest word, the score of a candidate is its total. -/
theorem candidate_total (empty : toLowercase "" = "")
    (short : (toLowercase query).length ≤ 429496724)
    (mem : c ∈ candidates toLowercase query view cwdsByTab) {total : Int}
    (h : TotalScore toLowercase query view cwdsByTab c.tabIndex total) :
    c.score.toInt = total := by
  obtain ⟨tab, i, there, taken⟩ := mem_candidates.mp mem
  obtain ⟨best, own, rfl⟩ := paletteCandidate_some taken
  obtain ⟨tab', best', there', greatest, rfl⟩ := h
  cases there.symm.trans there'
  have best_of : BestOf toLowercase query (tab.title :: cwdsByTab[i]?.getD []) (some best) :=
    own ▸ tabFuzzyScore_bestOf tab (cwdsByTab[i]?.getD [])
  have same : best.toInt = best' := best_of.unique greatest
  obtain ⟨field, -, score, found, own_score⟩ := best_of.1
  have range := fuzzyScore_range empty (by omega) found
  rw [own_score, same] at range
  rw [Int32.toInt_add, same]
  cases tab.unread with
  | false => exact Int.bmod_eq_of_le (by simp; omega) (by simp; omega)
  | true => exact Int.bmod_eq_of_le (by simp [unreadBonus]; omega) (by simp [unreadBonus]; omega)

end Candidates

/-- Of a query of up to 429496724 characters the law holds. -/
theorem fuzzyLaw_of_short (empty : toLowercase "" = "")
    (short : (toLowercase query).length ≤ 429496724) : FuzzyLaw toLowercase query where
  found := fuzzyScore_isSome empty
  bounds target score some_char found := by
    obtain ⟨nonneg, le, -⟩ := fuzzyScore_bounds empty (by omega) some_char found
    exact ⟨nonneg, le⟩
  greatest target some_char := by
    constructor
    · rintro ⟨score, found, largest⟩
      exact (fuzzyScore_bounds empty (by omega) some_char found).2.2.mp largest
    · intro starts
      obtain ⟨score, found⟩ := Option.isSome_iff_exists.mp
        ((fuzzyScore_isSome empty target).mpr starts.sublist)
      exact ⟨score, found, (fuzzyScore_bounds empty (by omega) some_char found).2.2.mpr starts⟩
  palette view cwdsByTab := by
    have by_score : ∀ a b : PaletteCandidate,
        decide (b.score ≤ a.score) = true ↔ b.score.toInt ≤ a.score.toInt := by
      intro a b
      rw [decide_eq_true_iff, Int32.le_iff_toInt_le]
    have increasing : (candidates toLowercase query view cwdsByTab).Pairwise
        (fun a b => a.tabIndex < b.tabIndex) := candidates_increasing
    have ranked := mergeSort_pairwise by_score increasing
    refine ⟨listed_iff empty, ?_, ?_, ?_⟩
    · have sorted : (queryPalette toLowercase view query cwdsByTab).Perm
          (candidates toLowercase query view cwdsByTab) := List.mergeSort_perm _ _
      rw [(sorted.map _).nodup_iff, List.Nodup, List.pairwise_map]
      exact candidates_increasing.imp Nat.ne_of_lt
    · intro c mem
      obtain ⟨tab, i, there, taken⟩ := mem_candidates.mp (mem_queryPalette.mp mem)
      obtain ⟨best, -, rfl⟩ := paletteCandidate_some taken
      exact ⟨tab, there, rfl, rfl, rfl⟩
    · refine ranked.imp_of_mem (fun ha hb before s t hs ht => ?_)
      rwa [candidate_total empty short (mem_queryPalette.mp ha) hs,
        candidate_total empty short (mem_queryPalette.mp hb) ht] at before

/-! ### The law past that length -/

/-- A tab titled with the query. -/
def titledTab (id title : String) (unread : Bool) : SessionTab :=
  { sessionToTab (.plain id []) with title := title, unread := unread }

/-- An unread tab before a read one, both titled with the query. -/
def titledView (title : String) : InboxView :=
  ⟨[titledTab "a" title true, titledTab "b" title false]⟩

theorem mergeSort_pair {α : Type} {le : α → α → Bool} {a b : α} (gt : le a b = false) :
    [a, b].mergeSort le = [b, a] := by
  simp [List.mergeSort, gt]

/-- The scores of two tabs of one title. -/
theorem totalScore_titledView {score : Int32}
    (own : fuzzyScore toLowercase query query = some score) :
    TotalScore toLowercase query (titledView query) [] 0 (score.toInt + 20) ∧
    TotalScore toLowercase query (titledView query) [] 1 score.toInt := by
  have greatest : BestOf toLowercase query [query] (fuzzyScore toLowercase query query) :=
    bestOf_singleton
  rw [own] at greatest
  exact ⟨⟨titledTab "a" query true, _, rfl, greatest, rfl⟩,
    ⟨titledTab "b" query false, _, rfl, greatest, (add_zero _).symm⟩⟩

/-- Where the bonus passes the largest word, the unread tab is listed last. -/
theorem queryPalette_titledView {score : Int32}
    (own : fuzzyScore toLowercase query query = some score) (large : 2147483627 < score.toInt) :
    ∃ a b, queryPalette toLowercase (titledView query) query [] = [a, b] ∧
      a.tabIndex = 1 ∧ b.tabIndex = 0 := by
  have wraps : (score + unreadBonus).toInt < (score + 0).toInt := by
    have := score.toInt_lt
    rw [Int32.add_zero, Int32.toInt_add, show unreadBonus.toInt = 20 from rfl]
    dsimp only [Int.bmod]
    split <;> omega
  have scored : ∀ id unread, tabFuzzyScore toLowercase query (titledTab id query unread) [] =
      some score := fun _ _ => own
  have first : paletteCandidate toLowercase query [] (titledTab "a" query true, 0) =
      some ⟨0, "a", query, score + unreadBonus, true⟩ := by
    rw [paletteCandidate, List.getElem?_nil, Option.getD_none, scored]
    rfl
  have second : paletteCandidate toLowercase query [] (titledTab "b" query false, 1) =
      some ⟨1, "b", query, score + 0, false⟩ := by
    rw [paletteCandidate, List.getElem?_nil, Option.getD_none, scored]
    rfl
  have listed : candidates toLowercase query (titledView query) [] =
      [⟨0, "a", query, score + unreadBonus, true⟩, ⟨1, "b", query, score + 0, false⟩] := by
    show List.filterMap _ [(titledTab "a" query true, 0), (titledTab "b" query false, 1)] = _
    rw [List.filterMap_cons_some first, List.filterMap_cons_some second, List.filterMap_nil]
  refine ⟨_, _, (congrArg (List.mergeSort · _) listed).trans (mergeSort_pair ?_), rfl, rfl⟩
  rw [decide_eq_false_iff_not, Int32.le_iff_toInt_le]
  exact not_le.mpr wraps

/-- A query that is too long breaks the law. -/
theorem not_fuzzyLaw_of_long (long : 429496724 < (toLowercase query).length) :
    ¬ FuzzyLaw toLowercase query := by
  intro law
  obtain ⟨score, own, largest⟩ := (law.greatest query (by omega)).mpr (List.prefix_refl _)
  have := score.toInt_lt
  obtain ⟨first, second⟩ := totalScore_titledView own
  obtain ⟨a, b, listed, at_a, at_b⟩ := queryPalette_titledView own (by omega)
  have ranked := (law.palette (titledView query) []).ranked
  rw [listed, List.pairwise_pair] at ranked
  have := ranked score.toInt (score.toInt + 20) (at_a ▸ second) (at_b ▸ first)
  omega

/-- The law holds of a query just in case its lowercase has up to 429496724 characters. -/
theorem fuzzyLaw_iff (toLowercase : String → String) (empty : toLowercase "" = "")
    (query : String) :
    FuzzyLaw toLowercase query ↔ (toLowercase query).length ≤ 429496724 :=
  ⟨fun law => Nat.le_of_not_lt (fun long => not_fuzzyLaw_of_long long law),
    fuzzyLaw_of_short empty⟩

/-- The lowercase of a text of ASCII characters. -/
def asciiLowercase (s : String) : String :=
  String.ofList (s.toList.map Char.toLower)

theorem fuzzyLaw_iff_fleet :
    FuzzyLaw asciiLowercase "Fleet" ↔ (asciiLowercase "Fleet").length ≤ 429496724 :=
  fuzzyLaw_iff asciiLowercase (by decide) "Fleet"

/-- A text in lower case stays. -/
theorem asciiLowercase_replicate (n : Nat) :
    asciiLowercase (String.ofList (List.replicate n 'a')) =
      String.ofList (List.replicate n 'a') := by
  rw [asciiLowercase, String.toList_ofList, List.map_replicate,
    show Char.toLower 'a' = 'a' from rfl]

/-- The letter a, 429496729 times. -/
def longQuery : String :=
  String.ofList (List.replicate 429496729 'a')

/-- The score of the long query in itself is 2147483650, which wraps. -/
theorem longQuery_wraps :
    fuzzyScore asciiLowercase longQuery longQuery = some (-2147483646) ∧
    ¬ FuzzyLaw asciiLowercase longQuery := by
  have lower : asciiLowercase longQuery = longQuery := asciiLowercase_replicate _
  have length : (asciiLowercase longQuery).length = 429496729 :=
    (congrArg String.length lower).trans (String.length_ofList.trans List.length_replicate)
  constructor
  · rw [fuzzyScore_self (by decide) (by omega), length]
    rfl
  · exact not_fuzzyLaw_of_long (by omega)

end Law

end VsFleet
