import VsFleet.Misc.JsText
import VsFleet.Misc.Separated

/-!
# Paths of Node

`path.posix.join` and `path.posix.normalize`: the segments of a path go onto a stack, from which a
`..` takes the one before it. What comes out is a path of which every stack of segments, once
resolved, is the stack again.
-/

namespace VsFleet

namespace JsPath

/-- The separator of a path. -/
def slash : UInt16 := 0x2f

/-- The character that the two special segments are made of. -/
def dot : UInt16 := 0x2e

/-- The segment that stays. -/
def here : JsString := [dot]

/-- The segment that leads up. -/
def above : JsString := [dot, dot]

/-- A segment goes onto the stack. -/
def resolve (allowAboveRoot : Bool) (stack : List JsString) (segment : JsString) :
    List JsString :=
  if segment = [] ∨ segment = here then stack
  else if segment = above then
    if stack = [] ∨ stack.getLast? = some above then
      if allowAboveRoot then stack ++ [above] else stack
    else stack.dropLast
  else stack ++ [segment]

/-- The path starts at the root. -/
def isAbsolute (path : JsString) : Bool := path.head? = some slash

/-- The segments of a path, resolved from the left. -/
def segments (path : JsString) : List JsString :=
  (path.splitOn slash).foldl (resolve (!isAbsolute path)) []

/-- The path with some segments, which does not end in a slash unless it is the root. -/
def render (absolute : Bool) (stack : List JsString) : JsString :=
  if stack = [] then if absolute then [slash] else here
  else if absolute then slash :: [slash].intercalate stack
  else [slash].intercalate stack

/-- `normalize`. -/
def normalize (path : JsString) : JsString :=
  if path = [] then here
  else if path.getLast? = some slash ∧ ¬ (isAbsolute path ∧ segments path = []) then
    render (isAbsolute path) (segments path) ++ [slash]
  else render (isAbsolute path) (segments path)

/-- `join`. -/
def join (paths : List JsString) : JsString :=
  if paths.filter (fun path => path ≠ []) = [] then here
  else normalize ([slash].intercalate (paths.filter (fun path => path ≠ [])))

/-- A segment of which nothing is taken apart. -/
structure Segment (name : JsString) : Prop where
  nonempty : name ≠ []
  whole : slash ∉ name

/-- A segment that names something in the directory it is joined to. -/
structure Proper (name : JsString) : Prop extends Segment name where
  not_here : name ≠ here
  not_above : name ≠ above

instance (name : JsString) : Decidable (Proper name) :=
  decidable_of_iff (name ≠ [] ∧ slash ∉ name ∧ name ≠ here ∧ name ≠ above)
    ⟨fun h => ⟨⟨h.1, h.2.1⟩, h.2.2.1, h.2.2.2⟩,
      fun h => ⟨h.nonempty, h.whole, h.not_here, h.not_above⟩⟩

/-- The path is that of something right in the directory. -/
def In (dir path : JsString) : Prop := ∃ name, Proper name ∧ path = dir ++ slash :: name

/-- The path is that of something in the directory or below one in it. -/
inductive Below (dir : JsString) : JsString → Prop
  | child {path : JsString} (here : In dir path) : Below dir path
  | deeper {parent path : JsString} (below : Below dir parent) (here : In parent path) :
    Below dir path

theorem In.length_lt {dir path : JsString} (h : In dir path) : dir.length < path.length := by
  obtain ⟨name, -, rfl⟩ := h
  simp

theorem Below.length_lt {dir path : JsString} (h : Below dir path) :
    dir.length < path.length := by
  induction h with
  | child here => exact here.length_lt
  | deeper _ here ih => exact Nat.lt_trans ih here.length_lt

section Stacks

variable {absolute : Bool} {stack : List JsString} {name : JsString}

theorem resolve_proper (h : Proper name) : resolve absolute stack name = stack ++ [name] := by
  rw [resolve, if_neg (not_or.mpr ⟨h.nonempty, h.not_here⟩), if_neg h.not_above]

theorem resolve_here : resolve absolute stack here = stack := if_pos (.inr rfl)

/-- A `..` takes back a name. -/
theorem resolve_above (h : Proper name) : resolve absolute (stack ++ [name]) above = stack := by
  have last : (stack ++ [name]).getLast? = some name := List.getLast?_concat
  rw [resolve, if_neg (by decide), if_pos rfl, if_neg ?_, List.dropLast_concat]
  rw [last, not_or]
  exact ⟨List.append_ne_nil_of_right_ne_nil _ (List.cons_ne_nil _ _),
    fun same => h.not_above (Option.some.inj same)⟩

/-- A stack that comes out when its segments are resolved. -/
structure Resolved (absolute : Bool) (stack : List JsString) : Prop where
  fixed : stack.foldl (resolve (!absolute)) [] = stack
  segment : ∀ name ∈ stack, Segment name ∧ name ≠ here

theorem Resolved.nil : Resolved absolute [] := ⟨rfl, fun _ mem => absurd mem List.not_mem_nil⟩

theorem Resolved.resolve (h : Resolved absolute stack) (whole : slash ∉ name) :
    Resolved absolute (resolve (!absolute) stack name) := by
  have grown : ∀ name, Segment name → name ≠ here →
      JsPath.resolve (!absolute) stack name = stack ++ [name] →
        Resolved absolute (stack ++ [name]) := by
    intro name segment not_here onto
    refine ⟨by rw [List.foldl_append, h.fixed, List.foldl_cons, onto, List.foldl_nil], ?_⟩
    intro other mem
    rcases List.mem_append.mp mem with mem | mem
    · exact h.segment other mem
    · obtain rfl := List.mem_singleton.mp mem
      exact ⟨segment, not_here⟩
  by_cases skipped : name = [] ∨ name = here
  · rw [JsPath.resolve, if_pos skipped]
    exact h
  obtain ⟨some_name, not_here⟩ := not_or.mp skipped
  by_cases up : name = above
  · by_cases bottom : stack = [] ∨ stack.getLast? = some above
    · cases absolute with
      | true =>
        rw [JsPath.resolve, if_neg skipped, if_pos up, if_pos bottom]
        exact h
      | false =>
        have onto : JsPath.resolve true stack name = stack ++ [name] := by
          rw [JsPath.resolve, if_neg skipped, if_pos up, if_pos bottom, if_pos rfl, up]
        rw [Bool.not_false, onto]
        exact grown name ⟨some_name, whole⟩ not_here onto
    · -- the segment that goes was the last one to come onto the stack
      obtain ⟨some_stack, last_name⟩ := not_or.mp bottom
      rw [JsPath.resolve, if_neg skipped, if_pos up, if_neg bottom]
      obtain ⟨rest, last, rfl⟩ := (List.eq_nil_or_concat' stack).resolve_left some_stack
      rw [List.getLast?_concat] at last_name
      have segment := h.segment last (List.mem_append_right rest (List.mem_singleton_self last))
      have proper : Proper last :=
        ⟨segment.1, segment.2, fun same => last_name (congrArg some same)⟩
      have fixed := h.fixed
      rw [List.foldl_append, List.foldl_cons, List.foldl_nil, resolve_proper proper] at fixed
      rw [List.dropLast_concat]
      exact ⟨List.append_cancel_right fixed,
        fun other mem => h.segment other (List.mem_append_left [last] mem)⟩
  · have onto : JsPath.resolve (!absolute) stack name = stack ++ [name] := by
      rw [JsPath.resolve, if_neg skipped, if_neg up]
    rw [onto]
    exact grown name ⟨some_name, whole⟩ not_here onto

theorem Resolved.foldl (names : List JsString) : ∀ {stack}, Resolved absolute stack →
    (∀ name ∈ names, slash ∉ name) →
      Resolved absolute (names.foldl (JsPath.resolve (!absolute)) stack) := by
  induction names with
  | nil => exact fun h _ => h
  | cons name names ih =>
    intro stack h whole
    exact ih (h.resolve (whole name (List.mem_cons_self ..)))
      (fun other mem => whole other (List.mem_cons_of_mem name mem))

theorem not_mem_splitOn (path : JsString) : ∀ name ∈ path.splitOn slash, slash ∉ name :=
  not_mem_of_mem_splitOn path

theorem segments_resolved (path : JsString) : Resolved (isAbsolute path) (segments path) :=
  Resolved.nil.foldl (path.splitOn slash) (not_mem_splitOn path)

end Stacks

section Joins

variable {absolute : Bool} {stack names : List JsString} {name : JsString}

theorem intercalate_concat (some_stack : stack ≠ []) :
    [slash].intercalate (stack ++ [name]) = [slash].intercalate stack ++ slash :: name :=
  intercalate_snoc some_stack

/-- What is joined to a path lies in it. -/
theorem render_concat (some_stack : stack ≠ []) :
    render absolute (stack ++ [name]) = render absolute stack ++ slash :: name := by
  have both : stack ++ [name] ≠ [] := List.append_ne_nil_of_left_ne_nil some_stack _
  cases absolute <;> simp [render, some_stack, both, intercalate_concat some_stack]

theorem render_length_lt (long : 1 < name.length) :
    (render absolute stack).length < (render absolute (stack ++ [name])).length := by
  by_cases empty : stack = []
  · subst empty
    cases absolute with
    | true => simpa [render] using Nat.lt_trans Nat.zero_lt_one long
    | false => simpa [render, here] using long
  · rw [render_concat empty]
    simp

/-- The segments joined begin with no slash, end in none, and come apart again. -/
theorem intercalate_segments (some_name : names ≠ []) (all : ∀ name ∈ names, Segment name) :
    ([slash].intercalate names).head? ≠ some slash ∧
      ([slash].intercalate names).getLast? ≠ some slash ∧
      ([slash].intercalate names).splitOn slash = names := by
  refine ⟨?_, ?_, List.splitOn_intercalate slash (fun name mem => (all name mem).whole) some_name⟩
  · obtain ⟨first, later, rfl⟩ := List.exists_cons_of_ne_nil some_name
    have segment := all first (List.mem_cons_self ..)
    obtain ⟨c, rest, rfl⟩ := List.exists_cons_of_ne_nil segment.nonempty
    rw [List.intercalate_cons_cons_left, List.head?_cons]
    exact fun same => segment.whole (Option.some.inj same ▸ List.mem_cons_self ..)
  · obtain ⟨earlier, last, rfl⟩ := (List.eq_nil_or_concat' names).resolve_left some_name
    have segment := all last (List.mem_append_right _ (List.mem_singleton_self last))
    have ends : ([slash].intercalate (earlier ++ [last])).getLast? = last.getLast? := by
      by_cases empty : earlier = []
      · rw [empty, List.nil_append, List.intercalate_singleton]
      · rw [intercalate_concat empty, List.getLast?_append,
          List.getLast?_cons_of_ne_nil segment.nonempty]
        cases h : last.getLast? with
        | none => exact absurd (List.getLast?_eq_none_iff.mp h) segment.nonempty
        | some c => rfl
    rw [ends]
    exact fun same => segment.whole (List.mem_of_getLast? same)

theorem normalize_eq {path : JsString} (some_path : path ≠ []) (ends : path.getLast? ≠ some slash) :
    normalize path = render (isAbsolute path) (segments path) := by
  rw [normalize, if_neg some_path, if_neg (fun both => ends both.1)]

/-- Segments joined to a path go onto its stack. -/
theorem join_eq (base : JsString) (some_name : names ≠ []) (all : ∀ name ∈ names, Segment name) :
    join (base :: names) =
      render (isAbsolute base) (names.foldl (resolve (!isAbsolute base)) (segments base)) := by
  obtain ⟨begins, ends, parts⟩ := intercalate_segments some_name all
  have kept : names.filter (fun path => path ≠ []) = names :=
    List.filter_eq_self.mpr fun name mem => decide_eq_true (all name mem).nonempty
  have some_text : [slash].intercalate names ≠ [] := by
    intro empty
    rw [empty] at parts
    have single := all [] (by rw [← parts]; exact List.mem_singleton_self [])
    exact single.nonempty rfl
  by_cases empty : base = []
  · subst empty
    have relative : isAbsolute ([slash].intercalate names) = false := decide_eq_false begins
    have only : ([] :: names).filter (fun path => path ≠ []) = names := by
      rw [List.filter_cons_of_neg (by simp), kept]
    rw [join, only, if_neg some_name, normalize_eq some_text ends, segments, parts, relative]
    rfl
  · have both : (base :: names).filter (fun path => path ≠ []) = base :: names := by
      rw [List.filter_cons_of_pos (by simpa using empty), kept]
    have text : [slash].intercalate (base :: names) =
        base ++ slash :: [slash].intercalate names := by
      rw [List.intercalate_cons_of_ne_nil some_name]
      simp
    have absolute : isAbsolute (base ++ slash :: [slash].intercalate names) = isAbsolute base := by
      obtain ⟨c, rest, rfl⟩ := List.exists_cons_of_ne_nil empty
      rfl
    have last : (base ++ slash :: [slash].intercalate names).getLast? ≠ some slash := by
      rw [List.getLast?_append, List.getLast?_cons_of_ne_nil some_text]
      cases h : ([slash].intercalate names).getLast? with
      | none => exact absurd (List.getLast?_eq_none_iff.mp h) some_text
      | some c => rwa [h] at ends
    rw [join, both, if_neg (List.cons_ne_nil _ _), text, normalize_eq (by simp) last, segments,
      absolute, List.splitOn_append_cons_self, parts, List.foldl_append]
    rfl

/-- A name joined to a path that has been resolved lies in it. -/
theorem join_render (resolved : Resolved absolute stack) (some_stack : stack ≠ [])
    (proper : Proper name) :
    join [render absolute stack, name] = render absolute stack ++ slash :: name := by
  obtain ⟨begins, -, parts⟩ :=
    intercalate_segments some_stack (fun name mem => (resolved.segment name mem).1)
  have same : isAbsolute (render absolute stack) = absolute := by
    cases absolute with
    | true => simp [isAbsolute, render, some_stack]
    | false => simpa [isAbsolute, render, some_stack] using begins
  have back : segments (render absolute stack) = stack := by
    rw [segments, same]
    cases absolute with
    | true =>
      have split := List.splitOn_append_cons_self (a := slash) [] ([slash].intercalate stack)
      rw [parts, List.nil_append] at split
      rw [show render true stack = slash :: [slash].intercalate stack by simp [render, some_stack],
        split]
      exact resolved.fixed
    | false =>
      rw [show render false stack = [slash].intercalate stack by simp [render, some_stack], parts]
      exact resolved.fixed
  rw [join_eq _ (List.cons_ne_nil _ _) (fun other mem => by
    rw [List.mem_singleton.mp mem]
    exact proper.toSegment), same, back, List.foldl_cons, List.foldl_nil, resolve_proper proper,
    render_concat some_stack]

end Joins

end JsPath

end VsFleet
