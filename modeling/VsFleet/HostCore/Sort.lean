import VsFleet.HostCore.View

/-!
# The order of the inbox

Unread tabs first, then the more urgent, then those that wait longer
(`fleet-host-core/src/sort.rs`). The next unread one is looked for from a tab on, around the end of
the list (`fleet-host-core/src/focus.rs`).
-/

namespace VsFleet

/-- `urgency_sort_rank` (`sort.rs:47-55`). -/
def urgencySortRank : Option Urgency → Nat
  | some .approval => 4
  | some .question => 3
  | some .idleDone => 2
  | some .none => 1
  | none => 0

/-- `waiting_age_secs` (`sort.rs:70-89`). -/
def waitingAgeSecs (parseEpochSecs : String → Option Int) (waitingSince now : Option String) :
    Nat :=
  match waitingSince, now with
  | some sinceStr, some nowStr =>
    match parseEpochSecs sinceStr, parseEpochSecs nowStr with
    | some sinceSecs, some nowSecs => (nowSecs - sinceSecs).toNat
    | _, _ => 0
  | _, _ => 0

/-- `sort_key` (`sort.rs:99-102`). -/
def SessionTab.sortKey (parseEpochSecs : String → Option Int) (now : Option String)
    (tab : SessionTab) : Bool × Nat × Nat :=
  (tab.unread, urgencySortRank tab.urgency, waitingAgeSecs parseEpochSecs tab.waitingSince now)

/-- The keys compare as tuples. -/
def compareKeys (ka kb : Bool × Nat × Nat) : Ordering :=
  (compare ka.1 kb.1).then ((compare ka.2.1 kb.2.1).then (compare ka.2.2 kb.2.2))

/-- `sort_tabs` (`sort.rs:114-121`): stable, and the larger key first. -/
def sortTabs (parseEpochSecs : String → Option Int) (tabs : List SessionTab) (now : Option String) :
    List SessionTab :=
  tabs.mergeSort (fun a b =>
    (compareKeys (b.sortKey parseEpochSecs now) (a.sortKey parseEpochSecs now)).isLE)

/-! ## The next unread tab -/

/-- The scan of `next_unread` (`focus.rs:80-86`), from an offset on, over as many as are left. -/
def scanUnread (tabs : List SessionTab) (start : Nat) : Nat → Nat → Option Nat
  | _, 0 => none
  | offset, left + 1 =>
    let idx := (start + offset) % tabs.length
    if (tabs[idx]?.map SessionTab.unread).getD false then some idx
    else scanUnread tabs start (offset + 1) left

/-- `next_unread` (`focus.rs:70-87`). A cursor is an index into some view, and far from where a
`usize` wraps. -/
def nextUnread (view : InboxView) (fromCursor : Option Nat) : Option Nat :=
  let n := view.tabs.length
  if n = 0 then none
  else
    let start := match fromCursor with
      | some i => i + 1
      | none => 0
    scanUnread view.tabs start 0 n

end VsFleet
