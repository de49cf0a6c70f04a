import VsFleet.Extension.Proofs.OscChunks

/-!
# The bound on OSC sequences

A code unit of a sequence is kept while there is room for it. An ESC inside a sequence that turns
out not to end it is kept whether there is room or not, and what comes behind it may be the next
ESC, or the end of a sequence that is too long by now.
-/

namespace VsFleet

namespace OscParser

open Osc

/-- The buffer and all frames are within the bound. -/
structure Bounded (reader : List OscFrame × OscParser) : Prop where
  buffer : reader.2.paramBuf.length ≤ maxOscParamLen
  frames : ∀ frame ∈ reader.1, frame.raw.length ≤ maxOscParamLen

/-- An ESC came when the buffer was full, and the code unit behind it is the next one or ends the
sequence with a frame. -/
def Overruns (parser : OscParser) (ch : UInt16) : Prop :=
  parser.state = .oscEscInParam ∧ maxOscParamLen ≤ parser.paramBuf.length ∧
    (ch = esc ∨ (ch = bel ∨ ch = c1St) ∧ (parseOscParam (parser.paramBuf ++ [esc])).isSome)

instance (parser : OscParser) (ch : UInt16) : Decidable (parser.Overruns ch) :=
  inferInstanceAs (Decidable (_ ∧ _ ∧ _))

/-- The chunks as far as some number of code units. -/
def upTo : Nat → List JsString → List JsString
  | _, [] => []
  | k, chunk :: chunks => chunk.take k :: upTo (k - chunk.length) chunks

theorem upTo_flatten (chunks : List JsString) : ∀ k,
    (upTo k chunks).flatten = chunks.flatten.take k := by
  induction chunks with
  | nil => exact fun k => List.take_nil.symm
  | cons chunk chunks ih =>
    intro k
    rw [upTo, List.flatten_cons, List.flatten_cons, List.take_append, ih]

section Step

variable {frames : List OscFrame} {parser : OscParser} {ch : UInt16}

/-- A frame is as long as the buffer it was read from. -/
theorem parseOscParam_bounded (param : JsString) (n : Nat) :
    (∀ frame ∈ (parseOscParam param).toList, frame.raw.length ≤ n) ↔
      ((parseOscParam param).isSome → param.length ≤ n) := by
  cases h : parseOscParam param with
  | none => simp
  | some frame => simp [parseOscParam_raw h]

theorem Bounded.append (h : Bounded (frames, parser)) (later : List OscFrame) (next : OscParser) :
    Bounded (frames ++ later, next) ↔ next.paramBuf.length ≤ maxOscParamLen ∧
      ∀ frame ∈ later, frame.raw.length ≤ maxOscParamLen := by
  constructor
  · intro both
    exact ⟨both.buffer, fun frame mem => both.frames frame (List.mem_append_right frames mem)⟩
  · intro both
    refine ⟨both.1, fun frame mem => ?_⟩
    rcases List.mem_append.mp mem with mem | mem
    · exact h.frames frame mem
    · exact both.2 frame mem

theorem parseOscParam_short (h : parser.paramBuf.length ≤ maxOscParamLen) :
    ∀ frame ∈ (parseOscParam parser.paramBuf).toList, frame.raw.length ≤ maxOscParamLen :=
  (parseOscParam_bounded parser.paramBuf maxOscParamLen).mpr fun _ => h

/-- A pass in any other state leaves the bound as it is. -/
theorem pass_bounded (h : parser.paramBuf.length ≤ maxOscParamLen)
    (other : parser.state ≠ .oscEscInParam ∨ ch = backslash) :
    (parser.pass ch).2.2 = false ∧ (parser.pass ch).2.1.paramBuf.length ≤ maxOscParamLen ∧
      ∀ frame ∈ (parser.pass ch).1.toList, frame.raw.length ≤ maxOscParamLen := by
  obtain ⟨state, buf, called⟩ := parser
  have finished := parseOscParam_short h
  dsimp only at h other finished
  cases state with
  | normal =>
    simp only [pass]
    split_ifs <;> simp [h]
  | esc =>
    simp only [pass]
    split_ifs <;> simp [h]
  | oscParam =>
    by_cases ends : ch = bel ∨ ch = c1St
    · rw [pass_oscParam_ends ends]
      exact ⟨rfl, Nat.zero_le _, finished⟩
    · by_cases again : ch = esc
      · rw [again, pass_oscParam_esc]
        simpa using h
      · by_cases room : buf.length < maxOscParamLen
        · rw [pass_oscParam_keeps ends again room]
          refine ⟨rfl, ?_, fun _ mem => absurd mem List.not_mem_nil⟩
          show (buf ++ [ch]).length ≤ maxOscParamLen
          rw [List.length_append]
          exact Nat.succ_le_of_lt room
        · rw [pass_oscParam_drops ends again room]
          simp
  | oscEscInParam =>
    rcases other with other | rfl
    · exact absurd rfl other
    · rw [pass_oscEscInParam_backslash]
      exact ⟨rfl, Nat.zero_le _, finished⟩

theorem read_of_pass (h : (parser.pass ch).2.2 = false) :
    read (frames, parser) ch = (frames ++ (parser.pass ch).1.toList, (parser.pass ch).2.1) := by
  simp [read, h]

/-- A code unit behind an ESC that does not end the sequence is read as if the ESC had been kept. -/
theorem read_oscEscInParam {buf : JsString} {called : Option (List OscFrame)}
    (h : ch ≠ backslash) :
    read (frames, ⟨.oscEscInParam, buf, called⟩) ch =
      (frames ++ (pass ⟨.oscParam, buf ++ [esc], called⟩ ch).1.toList,
        (pass ⟨.oscParam, buf ++ [esc], called⟩ ch).2.1) := by
  simp [read, pass_oscEscInParam h]

/-- A code unit takes the parser out of the bound just where it overruns. -/
theorem read_bounded_iff (h : Bounded (frames, parser)) :
    Bounded (read (frames, parser) ch) ↔ ¬ parser.Overruns ch := by
  by_cases other : parser.state ≠ .oscEscInParam ∨ ch = backslash
  · have kept := pass_bounded h.buffer other
    rw [read_of_pass kept.1, h.append]
    refine iff_of_true kept.2 fun overrun => ?_
    rcases other with other | rfl
    · exact other overrun.1
    · exact absurd overrun.2.2 (by simp [backslash, esc, bel, c1St])
  · obtain ⟨state, buf, called⟩ := parser
    obtain ⟨inside, hb⟩ := not_or.mp other
    obtain rfl := not_not.mp inside
    rw [read_oscEscInParam hb, h.append]
    have room : buf.length ≤ maxOscParamLen := h.buffer
    have longer : (buf ++ [esc]).length = buf.length + 1 := List.length_append
    by_cases ends : ch = bel ∨ ch = c1St
    · have not_esc : ch ≠ esc := by rcases ends with rfl | rfl <;> decide
      rw [pass_oscParam_ends ends]
      simp only [finish, List.length_nil, Nat.zero_le, true_and, Overruns, not_esc, false_or, ends,
        parseOscParam_bounded, longer]
      constructor
      · intro fits overrun
        exact absurd (fits overrun.2) (by omega)
      · intro fits framed
        by_contra long
        exact fits ⟨by omega, framed⟩
    · by_cases again : ch = esc
      · rw [again, pass_oscParam_esc]
        simp only [longer, Overruns, true_and, true_or, and_true, Option.toList_none,
          List.not_mem_nil, false_implies, implies_true]
        omega
      · have fine : ¬ Overruns ⟨.oscEscInParam, buf, called⟩ ch :=
          fun overrun => overrun.2.2.elim again fun overrun => ends overrun.1
        refine iff_of_true ?_ fine
        by_cases shorter : (buf ++ [esc]).length < maxOscParamLen
        · rw [pass_oscParam_keeps ends again shorter]
          refine ⟨?_, fun _ mem => absurd mem List.not_mem_nil⟩
          show (buf ++ [esc] ++ [ch]).length ≤ maxOscParamLen
          rw [List.length_append]
          exact Nat.succ_le_of_lt shorter
        · rw [pass_oscParam_drops ends again shorter]
          simp

end Step

/-- Over the pushes of any chunks, the buffer and the frames are within the bound after every code
unit just where no code unit comes that overruns. -/
theorem bounded_iff (chunks : List JsString) : ∃ enough, ∀ fuel, enough ≤ fuel →
    ((∀ k, ∃ frames parser, pushAll fuel new (upTo k chunks) = some (frames, parser) ∧
        parser.paramBuf.length ≤ maxOscParamLen ∧
        ∀ frame ∈ frames, frame.raw.length ≤ maxOscParamLen) ↔
      ∀ k ch, chunks.flatten[k]? = some ch → ∃ frames parser,
        pushAll fuel new (upTo k chunks) = some (frames, parser) ∧ ¬ parser.Overruns ch) := by
  refine ⟨2 * chunks.flatten.length, fun fuel enough => ?_⟩
  have reads : ∀ k, pushAll fuel new (upTo k chunks) =
      some ((chunks.flatten.take k).foldl read ([], new)) := by
    intro k
    rw [← upTo_flatten]
    refine pushAll_eq_foldl (upTo k chunks) new (Nat.le_trans ?_ enough)
    rw [upTo_flatten, List.length_take]
    omega
  have empty : Bounded ([], new) := ⟨Nat.zero_le _, fun _ mem => absurd mem List.not_mem_nil⟩
  have along : Along read (fun reader ch => ¬ reader.2.Overruns ch) ([], new) chunks.flatten ↔
      ∀ k, Bounded ((chunks.flatten.take k).foldl read ([], new)) :=
    Along.iff_invariant (fun _ _ => read_bounded_iff) chunks.flatten empty
  constructor
  · intro bounded k ch here
    refine ⟨_, _, reads k, ?_⟩
    have all : Along read (fun reader ch => ¬ reader.2.Overruns ch) ([], new) chunks.flatten := by
      refine along.mpr fun k => ?_
      obtain ⟨frames, parser, run, buffer, short⟩ := bounded k
      rw [Option.some.inj ((reads k).symm.trans run)]
      exact ⟨buffer, short⟩
    obtain ⟨hk, rfl⟩ := List.getElem?_eq_some_iff.mp here
    exact Along.iff_take.mp all k hk
  · intro never k
    refine ⟨_, _, reads k, ?_⟩
    have bounded := along.mp (Along.iff_take.mpr fun k hk => by
      obtain ⟨frames, parser, run, fine⟩ := never k _ (List.getElem?_eq_getElem hk)
      rw [Option.some.inj ((reads k).symm.trans run)]
      exact fine) k
    exact ⟨bounded.buffer, bounded.frames⟩

/-- Plain code units inside a sequence are kept while there is room. -/
theorem foldl_read_content (frames : List OscFrame) (called : Option (List OscFrame))
    (content : JsString) : ∀ buf : JsString,
    (∀ ch ∈ content, ch ≠ esc ∧ ch ≠ bel ∧ ch ≠ c1St) →
      buf.length + content.length ≤ maxOscParamLen →
        content.foldl read (frames, ⟨.oscParam, buf, called⟩) =
          (frames, ⟨.oscParam, buf ++ content, called⟩) := by
  induction content with
  | nil => exact fun buf _ _ => by rw [List.append_nil, List.foldl_nil]
  | cons ch content ih =>
    intro buf plain room
    obtain ⟨not_esc, not_bel, not_st⟩ := plain ch (List.mem_cons_self ..)
    rw [List.length_cons] at room
    have kept : read (frames, ⟨.oscParam, buf, called⟩) ch =
        (frames, ⟨.oscParam, buf ++ [ch], called⟩) := by
      rw [read_of_pass] <;>
        rw [pass_oscParam_keeps (not_or.mpr ⟨not_bel, not_st⟩) not_esc (by omega)]
      simp
    rw [List.foldl_cons, kept, ih (buf ++ [ch]) (fun c mem => plain c (List.mem_cons_of_mem ch mem))
      (by rw [List.length_append, List.length_singleton]; omega), List.append_assoc]
    rfl

/-- Two ESCs behind a full buffer. -/
theorem escEsc_overruns : ∃ frames parser,
    pushAll 8200 new [esc :: bracket :: (List.replicate maxOscParamLen 0x61 ++ [esc, esc])] =
      some (frames, parser) ∧ ¬ parser.paramBuf.length ≤ maxOscParamLen := by
  have length : (List.replicate maxOscParamLen (0x61 : UInt16)).length = maxOscParamLen :=
    List.length_replicate
  have filled := foldl_read_content [] none (List.replicate maxOscParamLen 0x61) []
    (fun ch mem => by rw [List.eq_of_mem_replicate mem]; decide)
    (by rw [length]; exact Nat.le_of_eq (Nat.zero_add maxOscParamLen))
  have run : pushAll 8200 new
      [esc :: bracket :: (List.replicate maxOscParamLen 0x61 ++ [esc, esc])] =
        some ([], ⟨.oscEscInParam, List.replicate maxOscParamLen 0x61 ++ [esc], none⟩) := by
    rw [pushAll_eq_foldl _ _ (by
      rw [List.flatten_singleton, List.length_cons, List.length_cons, List.length_append, length]
      show 2 * (4096 + 2 + 1 + 1) ≤ 8200
      omega)]
    rw [List.flatten_singleton, List.foldl_cons, List.foldl_cons, List.foldl_append]
    rw [show read (read ([], new) esc) bracket = ([], ⟨.oscParam, [], none⟩) from rfl, filled]
    rfl
  refine ⟨_, _, run, ?_⟩
  rw [List.length_append, length]
  show ¬ 4096 + 1 ≤ 4096
  omega

end OscParser

end VsFleet
