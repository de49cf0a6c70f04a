import VsFleet.Extension.OscParser
import VsFleet.Misc.Runs

/-!
# Chunks of a terminal's text

The loop of `push` sees a code unit at most twice: it steps back only out of the state after an ESC
inside a sequence, and into the one where nothing steps back. So fuel for two passes over each code
unit is enough, and a push is a fold over the chunk, which does not care where the text was cut.
-/

namespace VsFleet

namespace OscParser

open Osc

/-- What the loop does with a code unit, the second pass over it included. -/
def read (reader : List OscFrame × OscParser) (ch : UInt16) : List OscFrame × OscParser :=
  let (frame, parser, back) := reader.2.pass ch
  if back then (reader.1 ++ frame.toList ++ (parser.pass ch).1.toList, (parser.pass ch).2.1)
  else (reader.1 ++ frame.toList, parser)

variable (parser : OscParser) (ch : UInt16) (frames : List OscFrame) (chunk : JsString)

/-- The index steps back out of one state, and into another. -/
theorem pass_back {frame : Option OscFrame} {next : OscParser}
    (h : parser.pass ch = (frame, next, true)) :
    parser.state = .oscEscInParam ∧ next.state = .oscParam := by
  unfold pass at h
  cases hs : parser.state with
  | normal => simp only [hs] at h; split_ifs at h <;> cases h
  | esc => simp only [hs] at h; split_ifs at h <;> cases h
  | oscParam => simp only [hs] at h; split_ifs at h <;> cases h
  | oscEscInParam =>
    simp only [hs] at h
    split_ifs at h
    · cases h
    · cases h
      exact ⟨rfl, rfl⟩

/-- No code unit is seen three times. -/
theorem pass_twice {frame : Option OscFrame} {next : OscParser}
    (h : parser.pass ch = (frame, next, true)) : (next.pass ch).2.2 = false := by
  have after := (pass_back parser ch h).2
  rcases hn : next.pass ch with ⟨frame', next', _ | _⟩
  · rfl
  · have again := (pass_back next ch hn).1
    rw [after] at again
    cases again

theorem loop_end {fuel i : Nat} (h : chunk[i]? = none) :
    loop chunk fuel i frames parser = some (frames, parser) := by
  cases fuel <;> rw [loop, h]

theorem loop_pass {fuel i : Nat} (h : chunk[i]? = some ch) :
    loop chunk (fuel + 1) i frames parser =
      loop chunk fuel (if (parser.pass ch).2.2 then i else i + 1)
        (frames ++ (parser.pass ch).1.toList) (parser.pass ch).2.1 := by
  rw [loop, h]

/-- Two units of fuel take the loop past a code unit. -/
theorem loop_read {i : Nat} (h : chunk[i]? = some ch) (fuel : Nat) :
    ∃ left, fuel ≤ left ∧ loop chunk (fuel + 2) i frames parser =
      loop chunk left (i + 1) (read (frames, parser) ch).1 (read (frames, parser) ch).2 := by
  rcases hp : parser.pass ch with ⟨frame, next, back⟩
  cases back with
  | false =>
    refine ⟨fuel + 1, Nat.le_succ fuel, ?_⟩
    rw [loop_pass _ _ _ _ h]
    simp [read, hp]
  | true =>
    refine ⟨fuel, Nat.le_refl fuel, ?_⟩
    have once := pass_twice parser ch hp
    rw [loop_pass _ _ _ _ h, hp]
    simp only [if_true]
    rw [loop_pass _ _ _ _ h, once]
    simp [read, hp]

/-- The loop from an index on reads what is left of the chunk. The fuel it needs is twice the code
units left; a pass that steps back uses up one of the two of its code unit. -/
theorem loop_eq_foldl (rest : JsString) : ∀ (fuel i : Nat) (reader : List OscFrame × OscParser),
    chunk.drop i = rest → 2 * rest.length ≤ fuel →
      loop chunk fuel i reader.1 reader.2 = some (rest.foldl read reader) := by
  induction rest with
  | nil =>
    intro fuel i reader left _
    have done : chunk[i]? = none := by
      rw [List.getElem?_eq_none_iff]
      exact List.drop_eq_nil_iff.mp left
    exact loop_end _ _ _ done
  | cons ch rest ih =>
    intro fuel i reader left enough
    have here : chunk[i]? = some ch := by
      rw [← Nat.add_zero i, ← List.getElem?_drop, left]
      rfl
    have later : chunk.drop (i + 1) = rest := by
      rw [← List.drop_drop, left]
      rfl
    obtain ⟨fuel, rfl⟩ : ∃ less, fuel = less + 2 :=
      ⟨fuel - 2, by simp only [List.length_cons] at enough; omega⟩
    obtain ⟨fuel', some_left, step⟩ := loop_read reader.2 ch reader.1 chunk here fuel
    rw [step]
    refine ih fuel' (i + 1) _ later ?_
    simp only [List.length_cons] at enough
    omega

/-- A push is a fold over the chunk. -/
theorem push_eq_foldl {fuel : Nat} (enough : 2 * chunk.length ≤ fuel) :
    push fuel parser chunk = some (chunk.foldl read ([], parser)) :=
  loop_eq_foldl chunk chunk fuel 0 ([], parser) rfl enough

/-- The frames read before stay in front. -/
theorem foldl_read_append (text : JsString) : ∀ (before : List OscFrame) (frames : List OscFrame)
    (parser : OscParser), text.foldl read (before ++ frames, parser) =
      (before ++ (text.foldl read (frames, parser)).1, (text.foldl read (frames, parser)).2) := by
  induction text with
  | nil => exact fun _ _ _ => rfl
  | cons ch text ih =>
    intro before frames parser
    have first : read (before ++ frames, parser) ch =
        (before ++ (read (frames, parser) ch).1, (read (frames, parser) ch).2) := by
      unfold read
      dsimp only
      split <;> simp only [List.append_assoc]
    rw [List.foldl_cons, List.foldl_cons, first]
    exact ih before _ _

/-- The pushes of the chunks are one fold over the whole text. -/
theorem pushAll_eq_foldl (chunks : List JsString) : ∀ (parser : OscParser) {fuel : Nat},
    2 * chunks.flatten.length ≤ fuel →
      pushAll fuel parser chunks = some (chunks.flatten.foldl read ([], parser)) := by
  induction chunks with
  | nil => exact fun _ _ _ => rfl
  | cons chunk chunks ih =>
    intro parser fuel enough
    rw [List.flatten_cons, List.length_append] at enough
    have first := push_eq_foldl parser chunk (show 2 * chunk.length ≤ fuel by omega)
    have later := ih (chunk.foldl read ([], parser)).2
      (show 2 * chunks.flatten.length ≤ fuel by omega)
    have joined := foldl_read_append chunks.flatten (chunk.foldl read ([], parser)).1 []
      (chunk.foldl read ([], parser)).2
    rw [List.append_nil] at joined
    rw [pushAll, first, List.flatten_cons, List.foldl_append]
    simp only [Option.bind_eq_bind, Option.bind_some, later]
    exact congrArg some joined.symm

/-- The callback is called with the frames that are returned. -/
theorem pass_onFrame : (parser.pass ch).2.1.onFrame =
    parser.onFrame.map (fun called => called ++ (parser.pass ch).1.toList) := by
  have silent : parser.onFrame = parser.onFrame.map (fun called => called ++ []) := by
    cases parser.onFrame <;> simp
  unfold pass
  cases parser.state with
  | normal => dsimp only; split_ifs <;> exact silent
  | esc => dsimp only; split_ifs <;> exact silent
  | oscParam =>
    dsimp only
    split_ifs
    · rfl
    all_goals exact silent
  | oscEscInParam =>
    dsimp only
    split_ifs
    · rfl
    · exact silent

/-- What the callback has been called with are the calls before the text and the frames read. -/
def Called (before : Option (List OscFrame)) (reader : List OscFrame × OscParser) : Prop :=
  reader.2.onFrame = before.map (fun called => called ++ reader.1)

theorem Called.read {before : Option (List OscFrame)} (reader : List OscFrame × OscParser)
    (ch : UInt16) (h : Called before reader) : Called before (OscParser.read reader ch) := by
  have first := pass_onFrame reader.2 ch
  unfold Called at h ⊢
  unfold OscParser.read
  dsimp only
  split
  · rw [pass_onFrame, first, h]
    cases before <;> simp
  · rw [first, h]
    cases before <;> simp

/-- However the text is cut, with fuel for two passes over each code unit all pushes come to their
end, with the frames, the calls and the state of one push of the whole. -/
theorem pushAll_eq_push (chunks : List JsString) (fuel : Nat)
    (enough : 2 * chunks.flatten.length ≤ fuel) :
    ∃ frames after, push fuel parser chunks.flatten = some (frames, after) ∧
      pushAll fuel parser chunks = some (frames, after) ∧
      after.onFrame = parser.onFrame.map (fun called => called ++ frames) := by
  refine ⟨_, _, push_eq_foldl parser chunks.flatten enough,
    pushAll_eq_foldl chunks parser enough, ?_⟩
  refine foldl_invariant (Called parser.onFrame) Called.read chunks.flatten ([], parser) ?_
  cases parser_calls : parser.onFrame <;> simp [Called, parser_calls]

/-- A sequence cut inside its introducer and its terminator. -/
theorem pushAll_eq_push_cut : ∃ frames after,
    push 32 new [esc, bracket, 0x39, semicolon, 0x31, esc, backslash] = some (frames, after) ∧
      pushAll 32 new [[esc], [], [bracket, 0x39, semicolon, 0x31, esc], [backslash]] =
        some (frames, after) ∧
      after.onFrame = new.onFrame.map (fun called => called ++ frames) :=
  pushAll_eq_push new [[esc], [], [bracket, 0x39, semicolon, 0x31, esc], [backslash]] 32 (by decide)

end OscParser

end VsFleet
