import VsFleet.Extension.Proofs.OscBounds

/-!
# A sequence after other text

A sequence is read as by an empty parser when the text in front of it has left the parser outside of
a sequence. Inside of one, the ESC of its introducer is taken into the parameter, or the sequence in
front of it overflows there and the new one is taken for normal text.
-/

namespace VsFleet

namespace OscParser

open Osc

/-- The three ways to end a sequence. -/
def terminators : List JsString := [[bel], [c1St], [esc, backslash]]

/-- A complete sequence. -/
def sequence (content terminator : JsString) : JsString :=
  esc :: bracket :: (content ++ terminator)

/-- No code unit of the content is one that the parser looks for. -/
def Plain (content : JsString) : Prop := ∀ ch ∈ content, ch ∉ [esc, bel, c1Osc, c1St]

instance (content : JsString) : Decidable (Plain content) := List.decidableBAll _ content

section Sequences

variable (frames : List OscFrame) {buf : JsString} {called : Option (List OscFrame)}
  {content terminator : JsString} {ch : UInt16} {parser : OscParser}

/-- The end of a sequence, whatever it looks like, is the end of its parameter. -/
theorem foldl_read_terminator (h : terminator ∈ terminators) :
    terminator.foldl read (frames, ⟨.oscParam, buf, called⟩) =
      (frames ++ (parseOscParam buf).toList,
        ⟨.normal, [], called.map (fun earlier => earlier ++ (parseOscParam buf).toList)⟩) := by
  simp only [terminators, List.mem_cons, List.not_mem_nil, or_false] at h
  rcases h with rfl | rfl | rfl
  · rfl
  · rfl
  · simp only [List.foldl_cons, List.foldl_nil, read, pass_oscParam_esc, Option.toList_none,
      List.append_nil]
    rfl

/-- Out of normal text and behind an ESC, a sequence begins with an empty parameter. -/
theorem foldl_read_introducer (outside : parser.state = .normal ∨ parser.state = .esc) :
    [esc, bracket].foldl read (frames, parser) = (frames, ⟨.oscParam, [], parser.onFrame⟩) := by
  obtain ⟨state, buf, called⟩ := parser
  simp only at outside
  rcases outside with rfl | rfl <;> simp [read, pass, esc, bracket]

theorem foldl_read_sequence (plain : Plain content) (fits : content.length ≤ maxOscParamLen)
    (ends : terminator ∈ terminators) (outside : parser.state = .normal ∨ parser.state = .esc) :
    (sequence content terminator).foldl read (frames, parser) =
      (frames ++ (parseOscParam content).toList, ⟨.normal, [],
        parser.onFrame.map (fun earlier => earlier ++ (parseOscParam content).toList)⟩) := by
  have kept := foldl_read_content frames parser.onFrame content []
    (fun ch mem => by
      have none_of := plain ch mem
      simp only [List.mem_cons, List.not_mem_nil, or_false, not_or] at none_of
      exact ⟨none_of.1, none_of.2.1, none_of.2.2.2⟩)
    (by simpa using fits)
  have begun := foldl_read_introducer frames outside
  rw [show sequence content terminator = [esc, bracket] ++ (content ++ terminator) from rfl,
    List.foldl_append, begun, List.foldl_append, kept, foldl_read_terminator _ ends]
  rfl

/-- The parser is outside of a sequence, or in one whose parameter has an ESC. -/
def Garbled (parser : OscParser) : Prop :=
  parser.state = .normal ∨ parser.state = .oscParam ∧ esc ∈ parser.paramBuf

theorem pass_garbled (plain : ch ∉ [esc, bel, c1Osc, c1St]) (h : Garbled parser) :
    (parser.pass ch).1 = none ∧ (parser.pass ch).2.2 = false ∧ Garbled (parser.pass ch).2.1 := by
  simp only [List.mem_cons, List.not_mem_nil, or_false, not_or] at plain
  obtain ⟨not_esc, not_bel, not_osc, not_st⟩ := plain
  obtain ⟨state, buf, called⟩ := parser
  rcases h with normal | ⟨inside, held⟩
  · obtain rfl : state = .normal := normal
    have same : pass ⟨.normal, buf, called⟩ ch = (none, ⟨.normal, buf, called⟩, false) := by
      simp [pass, not_esc, not_osc]
    rw [same]
    exact ⟨rfl, rfl, .inl rfl⟩
  · obtain rfl : state = .oscParam := inside
    have goes_on : ¬ (ch = bel ∨ ch = c1St) := not_or.mpr ⟨not_bel, not_st⟩
    by_cases room : buf.length < maxOscParamLen
    · rw [pass_oscParam_keeps goes_on not_esc room]
      exact ⟨rfl, rfl, .inr ⟨rfl, List.mem_append_left [ch] held⟩⟩
    · rw [pass_oscParam_drops goes_on not_esc room]
      exact ⟨rfl, rfl, .inl rfl⟩

theorem read_garbled (plain : ch ∉ [esc, bel, c1Osc, c1St]) (h : Garbled parser) :
    ∃ next, read (frames, parser) ch = (frames, next) ∧ Garbled next := by
  obtain ⟨silent, goes_on, next⟩ := pass_garbled plain h
  refine ⟨_, ?_, next⟩
  rw [read_of_pass goes_on, silent, Option.toList_none, List.append_nil]

theorem foldl_read_garbled (content : JsString) : ∀ parser, Plain content → Garbled parser →
    ∃ next, content.foldl read (frames, parser) = (frames, next) ∧ Garbled next := by
  induction content with
  | nil => exact fun parser _ h => ⟨parser, rfl, h⟩
  | cons ch content ih =>
    intro parser plain h
    obtain ⟨next, first, here⟩ := read_garbled frames (plain ch (List.mem_cons_self ..)) h
    rw [List.foldl_cons, first]
    exact ih next (fun c mem => plain c (List.mem_cons_of_mem ch mem)) here

/-- Inside of a sequence, the introducer of the next one does not begin it. -/
theorem foldl_read_introducer_inside
    (inside : ¬ (parser.state = .normal ∨ parser.state = .esc)) :
    ∃ next, [esc, bracket].foldl read (frames, parser) = (frames, next) ∧ Garbled next := by
  obtain ⟨state, buf, called⟩ := parser
  -- the bracket is no backslash, so the ESC is kept, with the bracket where there is room for it
  have behind : ∀ buf, ∃ next,
      read (frames, ⟨.oscEscInParam, buf, called⟩) bracket = (frames, next) ∧ Garbled next := by
    intro buf
    have held : Garbled ⟨.oscParam, buf ++ [esc], called⟩ :=
      .inr ⟨rfl, List.mem_append_right buf (List.mem_singleton_self esc)⟩
    obtain ⟨silent, -, next⟩ := pass_garbled (by decide : bracket ∉ [esc, bel, c1Osc, c1St]) held
    refine ⟨_, ?_, next⟩
    rw [read_oscEscInParam (by decide), silent, Option.toList_none, List.append_nil]
  cases state with
  | normal => exact absurd (.inl rfl) inside
  | esc => exact absurd (.inr rfl) inside
  | oscParam =>
    have first : read (frames, ⟨.oscParam, buf, called⟩) esc =
        (frames, ⟨.oscEscInParam, buf, called⟩) := by
      simp [read]
    rw [List.foldl_cons, first]
    exact behind buf
  | oscEscInParam =>
    have first : read (frames, ⟨.oscEscInParam, buf, called⟩) esc =
        (frames, ⟨.oscEscInParam, buf ++ [esc], called⟩) := by
      rw [read_oscEscInParam (by decide), pass_oscParam_esc]
      simp
    rw [List.foldl_cons, first]
    exact behind (buf ++ [esc])

/-- A terminator behind a garbled parameter ends no frame that is free of ESCs. -/
theorem foldl_read_terminator_garbled (ends : terminator ∈ terminators) (h : Garbled parser) :
    ∀ frame ∈ (terminator.foldl read ([], parser)).1, esc ∈ frame.raw := by
  obtain ⟨state, buf, called⟩ := parser
  rcases h with normal | ⟨inside, held⟩
  · obtain rfl : state = .normal := normal
    simp only [terminators, List.mem_cons, List.not_mem_nil, or_false] at ends
    rcases ends with rfl | rfl | rfl <;> exact fun frame mem => absurd mem List.not_mem_nil
  · obtain rfl : state = .oscParam := inside
    rw [foldl_read_terminator _ ends]
    intro frame mem
    rw [List.nil_append, Option.mem_toList] at mem
    rw [parseOscParam_raw mem]
    exact held

theorem foldl_read_sequence_inside (plain : Plain content) (ends : terminator ∈ terminators)
    (inside : ¬ (parser.state = .normal ∨ parser.state = .esc)) :
    ∀ frame ∈ ((sequence content terminator).foldl read ([], parser)).1, esc ∈ frame.raw := by
  obtain ⟨begun, introduced, here⟩ := foldl_read_introducer_inside [] inside
  obtain ⟨later, through, there⟩ := foldl_read_garbled [] content begun plain here
  rw [show sequence content terminator = [esc, bracket] ++ (content ++ terminator) from rfl,
    List.foldl_append, introduced, List.foldl_append, through]
  exact foldl_read_terminator_garbled ends there

end Sequences

/-- After any text, a well-formed sequence ends in the frame that an empty parser makes of it just
where the text has not ended inside of a sequence. -/
theorem resynchronises_iff (earlier : List JsString) (content terminator : JsString)
    (frame : OscFrame) (wellFormed : parseOscParam content = some frame) (plain : Plain content)
    (fits : content.length ≤ maxOscParamLen) (ends : terminator ∈ terminators) :
    ∃ enough before parser, ∀ fuel, enough ≤ fuel →
      pushAll fuel new earlier = some (before, parser) ∧
      push fuel new (sequence content terminator) = some ([frame], new) ∧
      ∃ frames after, push fuel parser (sequence content terminator) = some (frames, after) ∧
        (frames.getLast? = some frame ↔ parser.state = .normal ∨ parser.state = .esc) := by
  refine ⟨2 * earlier.flatten.length + 2 * (sequence content terminator).length, _, _,
    fun fuel enough => ⟨pushAll_eq_foldl earlier new (by omega), ?_, _, _,
      push_eq_foldl _ _ (by omega), ?_, ?_⟩⟩
  · rw [push_eq_foldl _ _ (by omega), foldl_read_sequence _ plain fits ends (.inl rfl), wellFormed]
    rfl
  · intro last
    by_contra inside
    have held := foldl_read_sequence_inside plain ends inside frame (List.mem_of_getLast? last)
    rw [parseOscParam_raw wellFormed] at held
    exact plain esc held (List.mem_cons_self ..)
  · intro outside
    show ((sequence content terminator).foldl read ([], _)).1.getLast? = some frame
    rw [foldl_read_sequence [] plain fits ends outside, wellFormed]
    rfl

/-- A command starts behind an ESC at the end of a chunk. -/
theorem resynchronises_iff_behindEsc : ∃ enough before parser, ∀ fuel, enough ≤ fuel →
    pushAll fuel new [[0x61], [esc]] = some (before, parser) ∧
    push fuel new (sequence (JsText.ofString "9;2") [bel]) =
      some ([.osc9 2 [] (JsText.ofString "9;2")], new) ∧
    ∃ frames after,
      push fuel parser (sequence (JsText.ofString "9;2") [bel]) = some (frames, after) ∧
      (frames.getLast? = some (.osc9 2 [] (JsText.ofString "9;2")) ↔
        parser.state = .normal ∨ parser.state = .esc) :=
  resynchronises_iff [[0x61], [esc]] (JsText.ofString "9;2") [bel]
    (.osc9 2 [] (JsText.ofString "9;2")) (by decide) (by decide)
    (show 3 ≤ 4096 by omega) (by decide)

/-- Behind a sequence that was never ended, the next command is part of its text. -/
theorem unterminated_swallows : ∃ before parser frames after,
    pushAll 64 new [esc :: bracket :: JsText.ofString "9;1;foo"] = some (before, parser) ∧
    parseOscParam (JsText.ofString "9;2") = some (.osc9 2 [] (JsText.ofString "9;2")) ∧
    push 64 parser (sequence (JsText.ofString "9;2") [bel]) = some (frames, after) ∧
    frames.getLast? ≠ some (.osc9 2 [] (JsText.ofString "9;2")) := by
  refine ⟨[], ⟨.oscParam, JsText.ofString "9;1;foo", none⟩,
    [.osc9 1 (JsText.ofString "foo" ++ esc :: bracket :: JsText.ofString "9;2")
      (JsText.ofString "9;1;foo" ++ esc :: bracket :: JsText.ofString "9;2")], new, ?_, ?_, ?_, ?_⟩
  all_goals decide

end OscParser

end VsFleet
