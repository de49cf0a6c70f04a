import VsFleet.HostCore.View

/-!
# The palette

A query is scanned for in the title and the directories of every tab, and the tabs where it is found
are listed by their scores, which are signed words of 32 bits and wrap
(`fleet-host-core/src/palette.rs`). The lowercase of a text is a parameter.
-/

namespace VsFleet

/-- `CONSECUTIVE_BONUS` (`palette.rs:52`). -/
def consecutiveBonus : Int32 := 5

/-- `PREFIX_BONUS` (`palette.rs:55`). -/
def prefixBonus : Int32 := 10

/-- `UNREAD_BONUS` (`palette.rs:58`). -/
def unreadBonus : Int32 := 20

/-- `PaletteCandidate` (`palette.rs:68-83`). -/
structure PaletteCandidate where
  tabIndex : Nat
  sessionId : String
  title : String
  score : Int32
  unread : Bool
  deriving DecidableEq, Repr

/-- The variables of the scan in `fuzzy_score` (`palette.rs:112-114`). -/
structure FuzzyScan where
  qi : Nat
  score : Int32
  prevMatchedPos : Option Nat

/-- One round of the scan (`palette.rs:116-134`). The round that breaks, and what would be after it,
does nothing. -/
def FuzzyScan.visit (queryLower : List Char) (scan : FuzzyScan) : Char × Nat → FuzzyScan
  | (tc, ti) =>
    match queryLower[scan.qi]? with
    | none => scan
    | some qc =>
      if tc = qc then
        let score := if ti = 0 then scan.score + prefixBonus else scan.score
        let score := match scan.prevMatchedPos with
          | some prev => if ti = prev + 1 then score + consecutiveBonus else score
          | none => score
        { qi := scan.qi + 1, score := score, prevMatchedPos := some ti }
      else scan

/-- `fuzzy_score` (`palette.rs:103-141`). -/
def fuzzyScore (toLowercase : String → String) (query target : String) : Option Int32 :=
  if query.isEmpty then some 0
  else
    let queryLower := (toLowercase query).toList
    let targetLower := (toLowercase target).toList
    let scan := targetLower.zipIdx.foldl (FuzzyScan.visit queryLower) ⟨0, 0, none⟩
    if scan.qi = queryLower.length then some scan.score else none

/-- The best score so far and that of one directory more (`palette.rs:161-163`). -/
def bestScore (best : Option Int32) : Option Int32 → Option Int32
  | some s => some (match best with
    | some b => max b s
    | none => s)
  | none => best

/-- `tab_fuzzy_score` (`palette.rs:150-167`). -/
def tabFuzzyScore (toLowercase : String → String) (query : String) (tab : SessionTab)
    (cwds : List String) : Option Int32 :=
  cwds.foldl (fun best cwd => bestScore best (fuzzyScore toLowercase query cwd))
    (fuzzyScore toLowercase query tab.title)

/-- The candidate a tab gives, where it matches (`palette.rs:200-211`). -/
def paletteCandidate (toLowercase : String → String) (query : String)
    (cwdsByTab : List (List String)) : SessionTab × Nat → Option PaletteCandidate
  | (tab, idx) =>
    let cwds := cwdsByTab[idx]?.getD []
    (tabFuzzyScore toLowercase query tab cwds).map (fun baseScore =>
      { tabIndex := idx
        sessionId := tab.sessionId
        title := tab.title
        score := baseScore + if tab.unread then unreadBonus else 0
        unread := tab.unread })

/-- `query_palette` (`palette.rs:189-217`): the sort is stable, and the higher score first. -/
def queryPalette (toLowercase : String → String) (view : InboxView) (query : String)
    (cwdsByTab : List (List String)) : List PaletteCandidate :=
  (view.tabs.zipIdx.filterMap (paletteCandidate toLowercase query cwdsByTab)).mergeSort
    (fun a b => decide (b.score ≤ a.score))

/-- `unread_indices` (`palette.rs:230-236`). -/
def unreadIndices (view : InboxView) : List Nat :=
  view.tabs.zipIdx.filterMap (fun (tab, i) => if tab.unread then some i else none)

/-- `cycle_unread` (`palette.rs:252-262`): the cursor is a position among the unread tabs, and far
from where a `usize` wraps. -/
def cycleUnread (view : InboxView) (fromCursor : Option Nat) : Option (Nat × Nat) :=
  let unreads := unreadIndices view
  if unreads.isEmpty then none
  else
    let pos := match fromCursor with
      | none => 0
      | some prev => (prev + 1) % unreads.length
    unreads[pos]?.map (fun idx => (pos, idx))

example : fuzzyScore id "abc" "abcd" = some 20 := by decide
example : fuzzyScore id "ab" "axb" = some 10 := by decide

end VsFleet
