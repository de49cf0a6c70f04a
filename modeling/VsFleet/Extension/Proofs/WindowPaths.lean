import Mathlib.Data.List.Forall2
import VsFleet.Extension.Shim

/-!
# The paths of two windows

The segment of a session id has an underscore for every code unit that is not safe, and ends after
128 of them. Ids that differ in nothing else have their paths in common, and the two ids that are a
segment with a meaning of its own have no directory to themselves.
-/

namespace VsFleet

namespace Extension

open JsText JsPath

/-- The code units of a session id that its segment is made of. -/
def shown (sessionId : JsString) : JsString :=
  (if sessionId = [] then ofString "default" else sessionId).take 128

/-- Code units that a segment does not tell apart. -/
def Alike (c d : UInt16) : Prop :=
  c = d ∨ (c = 0x5f ∨ ¬ isSafe c) ∧ (d = 0x5f ∨ ¬ isSafe d)

/-- The ids differ in what is shown of them, and not just in underscores and what is written as
one. -/
def Apart (a b : JsString) : Prop := ¬ List.Forall₂ Alike (shown a) (shown b)

/-- The directory of all shims. -/
def shimRoot (env : PathEnv) : JsString := join [env.tmpdir, ofString "fleet-shim"]

section Segments

variable {a b sessionId : JsString}

theorem sanitized_eq_iff (c d : UInt16) :
    (if isSafe c then c else 0x5f) = (if isSafe d then d else 0x5f) ↔ Alike c d := by
  have blank : isSafe 0x5f = true := by decide
  unfold Alike
  by_cases hc : isSafe c <;> by_cases hd : isSafe d
  · simp only [hc, hd, if_true, not_true_eq_false, or_false]
    exact ⟨.inl, fun h => h.elim id fun both => both.1.trans both.2.symm⟩
  · have other : c ≠ d := fun same => hd (same ▸ hc)
    simp [hc, hd, other]
  · have other : c ≠ d := fun same => hc (same ▸ hd)
    simp [hc, hd, other, eq_comm]
  · simp [hc, hd]

theorem safeSegment_eq_map (sessionId : JsString) : safeSegment sessionId =
    (shown sessionId).map (fun c => if isSafe c then c else 0x5f) := List.map_take.symm

theorem safeSegment_eq_iff : safeSegment a = safeSegment b ↔ ¬ Apart a b := by
  rw [Apart, not_not, safeSegment_eq_map, safeSegment_eq_map, ← List.forall₂_eq_eq_eq,
    List.forall₂_map_left_iff, List.forall₂_map_right_iff]
  simp only [sanitized_eq_iff]

theorem safeSegment_safe : ∀ c ∈ safeSegment sessionId, isSafe c := by
  intro c mem
  rw [safeSegment_eq_map] at mem
  obtain ⟨d, -, rfl⟩ := List.mem_map.mp mem
  split_ifs with h
  · exact h
  · decide

theorem safeSegment_segment (sessionId : JsString) : Segment (safeSegment sessionId) := by
  constructor
  · rw [safeSegment]
    split_ifs with h
    · decide
    · obtain ⟨c, rest, rfl⟩ := List.exists_cons_of_ne_nil h
      exact List.cons_ne_nil _ _
  · exact fun mem => absurd (safeSegment_safe slash mem) (by decide)

/-- A short segment without underscores is the id it was made of. -/
theorem eq_of_safeSegment {segment : JsString} (short : segment.length < 128)
    (plain : 0x5f ∉ segment) (h : safeSegment sessionId = segment) :
    (if sessionId = [] then ofString "default" else sessionId) = segment := by
  unfold safeSegment at h
  generalize (if sessionId = [] then ofString "default" else sessionId) = whole at h ⊢
  have all : whole.length ≤ 128 := by
    have cut := congrArg List.length h
    rw [List.length_take, List.length_map] at cut
    omega
  rw [List.take_of_length_le (by rwa [List.length_map])] at h
  have kept : ∀ c ∈ whole, (if isSafe c then c else 0x5f) = id c := by
    intro c mem
    split_ifs with safe
    · rfl
    · exact absurd (h ▸ List.mem_map.mpr ⟨c, mem, if_neg safe⟩) plain
  rw [List.map_congr_left kept, List.map_id] at h
  exact h

/-- A segment with a meaning of its own is made of no other id. -/
theorem safeSegment_eq_dots {segment : JsString} (h : segment ∈ [here, above]) :
    safeSegment sessionId = segment ↔ sessionId = segment := by
  have facts : segment.length < 128 ∧ 0x5f ∉ segment ∧ segment ≠ ofString "default" ∧
      segment ≠ [] ∧ safeSegment segment = segment := by
    simp only [List.mem_cons, List.not_mem_nil, or_false] at h
    rcases h with rfl | rfl <;> decide
  obtain ⟨short, plain, not_default, some_segment, itself⟩ := facts
  constructor
  · intro made
    have whole := eq_of_safeSegment short plain made
    split_ifs at whole with empty
    · exact absurd whole.symm not_default
    · exact whole
  · rintro rfl
    exact itself

end Segments

section Paths

variable (env : PathEnv) {a b : JsString} (sessionId : JsString)

theorem shimRoot_eq : shimRoot env =
    render (isAbsolute env.tmpdir) (segments env.tmpdir ++ [ofString "fleet-shim"]) := by
  have proper : Proper (ofString "fleet-shim") := by decide
  rw [shimRoot, join_eq _ (List.cons_ne_nil _ _)
    (fun name mem => List.mem_singleton.mp mem ▸ proper.toSegment), List.foldl_cons,
    List.foldl_nil, resolve_proper proper]

/-- The segment is resolved in the directory of all shims. -/
theorem defaultShimDir_eq : defaultShimDir env sessionId =
    render (isAbsolute env.tmpdir) (resolve (!isAbsolute env.tmpdir)
      (segments env.tmpdir ++ [ofString "fleet-shim"]) (safeSegment sessionId)) := by
  have proper : Proper (ofString "fleet-shim") := by decide
  have both : ∀ name ∈ [ofString "fleet-shim", safeSegment sessionId], Segment name := by
    intro name mem
    simp only [List.mem_cons, List.not_mem_nil, or_false] at mem
    rcases mem with rfl | rfl
    · exact proper.toSegment
    · exact safeSegment_segment sessionId
  rw [defaultShimDir, join_eq _ (List.cons_ne_nil _ _) both, List.foldl_cons, List.foldl_cons,
    List.foldl_nil, resolve_proper proper]

theorem defaultShimDir_proper (h : sessionId ∉ [here, above]) :
    Proper (safeSegment sessionId) ∧
      defaultShimDir env sessionId = shimRoot env ++ slash :: safeSegment sessionId := by
  simp only [List.mem_cons, List.not_mem_nil, or_false, not_or] at h
  have proper : Proper (safeSegment sessionId) := ⟨safeSegment_segment sessionId,
    fun same => h.1 ((safeSegment_eq_dots (by simp)).mp same),
    fun same => h.2 ((safeSegment_eq_dots (by simp)).mp same)⟩
  refine ⟨proper, ?_⟩
  rw [defaultShimDir_eq, resolve_proper proper, render_concat (by simp), shimRoot_eq]

theorem defaultShimDir_here : defaultShimDir env here = shimRoot env := by
  rw [defaultShimDir_eq, (safeSegment_eq_dots (by simp)).mpr rfl, resolve_here, shimRoot_eq]

theorem defaultShimDir_above :
    (defaultShimDir env above).length < (shimRoot env).length := by
  have proper : Proper (ofString "fleet-shim") := by decide
  rw [defaultShimDir_eq, (safeSegment_eq_dots (by simp)).mpr rfl, resolve_above proper,
    shimRoot_eq]
  exact render_length_lt (by decide)

/-- The shims have a directory of their own for every id but the two. -/
theorem shimDir_below_iff : Below (shimRoot env) (defaultShimDir env sessionId) ↔
    sessionId ∉ [here, above] := by
  constructor
  · intro below mem
    have longer := below.length_lt
    simp only [List.mem_cons, List.not_mem_nil, or_false] at mem
    rcases mem with rfl | rfl
    · rw [defaultShimDir_here] at longer
      exact Nat.lt_irrefl _ longer
    · exact Nat.lt_asymm longer (defaultShimDir_above env)
  · intro h
    obtain ⟨proper, path⟩ := defaultShimDir_proper env sessionId h
    exact .child ⟨_, proper, path⟩

/-- The directories of two ids are one just where their segments are. -/
theorem defaultShimDir_eq_iff :
    defaultShimDir env a = defaultShimDir env b ↔ safeSegment a = safeSegment b := by
  refine ⟨fun same => ?_, fun same => by rw [defaultShimDir, same]; rfl⟩
  -- by the length of the two paths, each compared with the directory of all shims
  have lengths := congrArg List.length same
  have short := defaultShimDir_above env
  have root := congrArg List.length (defaultShimDir_here env)
  by_cases ha : a ∈ [here, above] <;> by_cases hb : b ∈ [here, above]
  · simp only [List.mem_cons, List.not_mem_nil, or_false] at ha hb
    rcases ha with rfl | rfl <;> rcases hb with rfl | rfl <;> first | rfl | omega
  · have longer := ((shimDir_below_iff env b).mpr hb).length_lt
    simp only [List.mem_cons, List.not_mem_nil, or_false] at ha
    rcases ha with rfl | rfl <;> omega
  · have longer := ((shimDir_below_iff env a).mpr ha).length_lt
    simp only [List.mem_cons, List.not_mem_nil, or_false] at hb
    rcases hb with rfl | rfl <;> omega
  · rw [(defaultShimDir_proper env a ha).2, (defaultShimDir_proper env b hb).2] at same
    exact List.tail_eq_of_cons_eq (List.append_cancel_left same)

/-- The runtime directory is a path that has been resolved. -/
theorem runtimeDir_eq : ∃ absolute stack, Resolved absolute stack ∧ stack ≠ [] ∧
    runtimeDir env = render absolute stack := by
  have proper : Proper (ofString "fleet") := by decide
  have joined : ∀ base, ∃ absolute stack, Resolved absolute stack ∧ stack ≠ [] ∧
      join [base, ofString "fleet"] = render absolute stack := by
    intro base
    refine ⟨_, resolve (!isAbsolute base) (segments base) (ofString "fleet"),
      (segments_resolved base).resolve proper.whole, ?_, ?_⟩
    · rw [resolve_proper proper]
      exact List.append_ne_nil_of_right_ne_nil _ (List.cons_ne_nil _ _)
    · exact join_eq base (List.cons_ne_nil _ _)
        (fun name mem => List.mem_singleton.mp mem ▸ proper.toSegment)
  unfold runtimeDir
  split
  · split_ifs
    · exact joined _
    · exact joined _
  · exact joined _

theorem socketName_proper :
    Proper (ofString "reporter-" ++ safeSegment sessionId ++ ofString ".sock") := by
  have long : 2 < (ofString "reporter-" ++ safeSegment sessionId ++ ofString ".sock").length := by
    have name : (ofString "reporter-").length = 9 := by decide
    rw [List.length_append, List.length_append, name]
    omega
  refine ⟨⟨?_, ?_⟩, ?_, ?_⟩
  · exact List.ne_nil_of_length_pos (by omega)
  · simp only [List.mem_append, not_or]
    exact ⟨⟨by decide, (safeSegment_segment sessionId).whole⟩, by decide⟩
  · exact fun same => absurd (same ▸ long) (by decide)
  · exact fun same => absurd (same ▸ long) (by decide)

/-- The socket of every id is right in the runtime directory. -/
theorem reporterSocketPath_eq : reporterSocketPath env sessionId = runtimeDir env ++
    slash :: (ofString "reporter-" ++ safeSegment sessionId ++ ofString ".sock") := by
  obtain ⟨absolute, stack, resolved, some_stack, path⟩ := runtimeDir_eq env
  rw [reporterSocketPath, path, join_render resolved some_stack (socketName_proper sessionId)]

theorem reporterSocketPath_eq_iff :
    reporterSocketPath env a = reporterSocketPath env b ↔ safeSegment a = safeSegment b := by
  rw [reporterSocketPath_eq, reporterSocketPath_eq, List.append_cancel_left_eq, List.cons.injEq,
    List.append_cancel_right_eq, List.append_cancel_left_eq]
  exact and_iff_right rfl

/-- Two windows have their paths to themselves, each where it belongs, exactly if the ids differ in
what their segments show of them and neither is a segment with a meaning of its own. -/
theorem windowPaths_iff (a b : JsString) :
    (defaultShimDir env a ≠ defaultShimDir env b ∧
      reporterSocketPath env a ≠ reporterSocketPath env b ∧
      ∀ sessionId ∈ [a, b], Below (shimRoot env) (defaultShimDir env sessionId) ∧
        In (runtimeDir env) (reporterSocketPath env sessionId)) ↔
    Apart a b ∧ ∀ sessionId ∈ [a, b], sessionId ∉ [here, above] := by
  have within : ∀ sessionId, In (runtimeDir env) (reporterSocketPath env sessionId) :=
    fun sessionId => ⟨_, socketName_proper sessionId, reporterSocketPath_eq env sessionId⟩
  have apart : safeSegment a ≠ safeSegment b ↔ Apart a b := by
    rw [ne_eq, safeSegment_eq_iff, not_not]
  simp only [ne_eq, defaultShimDir_eq_iff, reporterSocketPath_eq_iff, shimDir_below_iff, within,
    and_true]
  rw [← ne_eq, apart]
  constructor
  · exact fun both => ⟨both.1, both.2.2⟩
  · exact fun both => ⟨both.1, both.1, both.2⟩

/-- A slash and an underscore. -/
theorem slashForUnderscore_shared :
    ofString "a/b" ≠ ofString "a_b" ∧
      defaultShimDir ⟨ofString "/tmp", none⟩ (ofString "a/b") =
        defaultShimDir ⟨ofString "/tmp", none⟩ (ofString "a_b") := by
  refine ⟨by decide, (defaultShimDir_eq_iff _).mpr ?_⟩
  decide

end Paths

end Extension

end VsFleet
