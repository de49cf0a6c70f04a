import VsFleet.Misc.JsText

/-!
# The parser of OSC sequences

The frames a terminal's read stream carries (`extension/src/oscParser.ts`): a machine over the code
units of the text, which keeps its state from one chunk to the next. Its loop steps back to see a
code unit again, so it runs on fuel.
-/

namespace VsFleet

open JsText

/-- `OscFrame` (`oscParser.ts:76-106`). -/
inductive OscFrame where
  | osc9 (subcommand : Int) (payload raw : JsString)
  | osc777 (action payload raw : JsString)
  | osc99 (raw : JsString)
  deriving DecidableEq, Repr

/-- The parameter that a frame was made of. -/
def OscFrame.raw : OscFrame → JsString
  | .osc9 _ _ raw | .osc777 _ _ raw | .osc99 raw => raw

namespace Osc

/-- ESC. The first four are the constants of the source (`oscParser.ts:110-117`), the others are
written out there. -/
def esc : UInt16 := 0x1b

/-- BEL, which ends a sequence. -/
def bel : UInt16 := 0x07

/-- The OSC introducer as one C1 character. -/
def c1Osc : UInt16 := 0x9d

/-- The string terminator as one C1 character. -/
def c1St : UInt16 := 0x9c

/-- What follows the ESC of an introducer. -/
def bracket : UInt16 := 0x5d

/-- What follows the ESC of a string terminator. -/
def backslash : UInt16 := 0x5c

/-- What separates the fields of a parameter. -/
def semicolon : UInt16 := 0x3b

/-- `MAX_OSC_PARAM_LEN` (`oscParser.ts:119-120`). -/
def maxOscParamLen : Nat := 4096

/-- `_parseOsc9` (`oscParser.ts:308-326`). -/
def parseOsc9 (rest raw : JsString) : Option OscFrame :=
  let (subStr, payload) := splitFirst semicolon rest
  match parseInt subStr with
  | .finite subcommand => some (.osc9 subcommand (payload.getD []) raw)
  | _ => none

/-- `_parseOsc777` (`oscParser.ts:328-347`). -/
def parseOsc777 (rest raw : JsString) : Option OscFrame :=
  if rest.isEmpty then none
  else
    let (action, payload) := splitFirst semicolon rest
    if action.isEmpty then none else some (.osc777 action (payload.getD []) raw)

/-- `_parseOscParam` (`oscParser.ts:277-306`). -/
def parseOscParam (param : JsString) : Option OscFrame :=
  let (codeStr, rest) := splitFirst semicolon param
  match parseInt codeStr with
  | .finite 9 => parseOsc9 (rest.getD []) param
  | .finite 777 => parseOsc777 (rest.getD []) param
  | .finite 99 => some (.osc99 param)
  | _ => none

theorem parseOscParam_raw {param : JsString} {frame : OscFrame}
    (h : parseOscParam param = some frame) : frame.raw = param := by
  unfold parseOscParam parseOsc9 parseOsc777 at h
  dsimp only at h
  split at h
  · split at h <;> cases h
    rfl
  · split_ifs at h
    cases h
    rfl
  · cases h
    rfl
  · cases h

/-- `State` (`oscParser.ts:124-133`). -/
inductive State where
  | normal
  | esc
  | oscParam
  | oscEscInParam
  deriving DecidableEq, Repr

end Osc

/-- `OscParser` (`oscParser.ts:149-273`), where a callback is what it has been called with. -/
structure OscParser where
  state : Osc.State
  paramBuf : JsString
  onFrame : Option (List OscFrame)
  deriving DecidableEq, Repr

namespace OscParser

open Osc

/-- The parser before any text, with no subscriber. -/
def new : OscParser := ⟨.normal, [], none⟩

/-- `reset` (`oscParser.ts:265-272`). -/
def reset (parser : OscParser) : OscParser := { parser with state := .normal, paramBuf := [] }

/-- The end of a sequence (`oscParser.ts:216-223`, `oscParser.ts:241-248`): the frame, if there is
one, goes to the callback. -/
def finish (parser : OscParser) : Option OscFrame × OscParser :=
  let frame := parseOscParam parser.paramBuf
  (frame, ⟨.normal, [], parser.onFrame.map (fun called => called ++ frame.toList)⟩)

/-- A pass of the loop over the code unit `ch`: the frame it ends, the parser after it, and whether
the index steps back. -/
def pass (parser : OscParser) (ch : UInt16) : Option OscFrame × OscParser × Bool :=
  match parser.state with
  | .normal =>
    if ch = Osc.esc then (none, { parser with state := .esc }, false)
    else if ch = c1Osc then (none, { parser with state := .oscParam, paramBuf := [] }, false)
    else (none, parser, false)
  | .esc =>
    if ch = bracket then (none, { parser with state := .oscParam, paramBuf := [] }, false)
    else if ch = Osc.esc then (none, { parser with state := .esc }, false)
    else if ch = c1Osc then (none, { parser with state := .oscParam, paramBuf := [] }, false)
    else (none, { parser with state := .normal }, false)
  | .oscParam =>
    if ch = bel ∨ ch = c1St then (parser.finish.1, parser.finish.2, false)
    else if ch = Osc.esc then (none, { parser with state := .oscEscInParam }, false)
    else if parser.paramBuf.length < maxOscParamLen then
      (none, { parser with paramBuf := parser.paramBuf ++ [ch] }, false)
    else (none, { parser with state := .normal, paramBuf := [] }, false)
  | .oscEscInParam =>
    if ch = backslash then (parser.finish.1, parser.finish.2, false)
    else
      (none, { parser with state := .oscParam, paramBuf := parser.paramBuf ++ [Osc.esc] }, true)

section Pass

variable {buf : JsString} {called : Option (List OscFrame)} {ch : UInt16}

theorem pass_oscParam_ends (h : ch = bel ∨ ch = c1St) :
    pass ⟨.oscParam, buf, called⟩ ch =
      ((finish ⟨.oscParam, buf, called⟩).1, (finish ⟨.oscParam, buf, called⟩).2, false) :=
  if_pos h

@[simp] theorem pass_oscParam_esc :
    pass ⟨.oscParam, buf, called⟩ Osc.esc = (none, ⟨.oscEscInParam, buf, called⟩, false) := rfl

theorem pass_oscParam_keeps (h : ¬ (ch = bel ∨ ch = c1St)) (h' : ch ≠ Osc.esc)
    (room : buf.length < maxOscParamLen) :
    pass ⟨.oscParam, buf, called⟩ ch = (none, ⟨.oscParam, buf ++ [ch], called⟩, false) := by
  simp only [pass, if_neg h, if_neg h', if_pos room]

theorem pass_oscParam_drops (h : ¬ (ch = bel ∨ ch = c1St)) (h' : ch ≠ Osc.esc)
    (full : ¬ buf.length < maxOscParamLen) :
    pass ⟨.oscParam, buf, called⟩ ch = (none, ⟨.normal, [], called⟩, false) := by
  simp only [pass, if_neg h, if_neg h', if_neg full]

theorem pass_oscEscInParam (h : ch ≠ backslash) :
    pass ⟨.oscEscInParam, buf, called⟩ ch =
      (none, ⟨.oscParam, buf ++ [Osc.esc], called⟩, true) :=
  if_neg h

@[simp] theorem pass_oscEscInParam_backslash : pass ⟨.oscEscInParam, buf, called⟩ backslash =
    ((finish ⟨.oscEscInParam, buf, called⟩).1, (finish ⟨.oscEscInParam, buf, called⟩).2, false) :=
  rfl

end Pass

/-- The loop of `push` from the index `i` on: `none` if it has not come to the end of the chunk when
the fuel is spent. -/
def loop (chunk : JsString) : Nat → Nat → List OscFrame → OscParser →
    Option (List OscFrame × OscParser)
  | fuel, i, frames, parser =>
    match chunk[i]? with
    | none => some (frames, parser)
    | some ch =>
      match fuel with
      | 0 => none
      | fuel + 1 =>
        let (frame, parser, back) := parser.pass ch
        loop chunk fuel (if back then i else i + 1) (frames ++ frame.toList) parser

/-- `push` (`oscParser.ts:168-263`). -/
def push (fuel : Nat) (parser : OscParser) (chunk : JsString) :
    Option (List OscFrame × OscParser) :=
  loop chunk fuel 0 [] parser

/-- The pushes of some chunks, one after the other: all the frames they return. -/
def pushAll (fuel : Nat) : OscParser → List JsString → Option (List OscFrame × OscParser)
  | parser, [] => some ([], parser)
  | parser, chunk :: chunks => do
    let (frames, parser) ← parser.push fuel chunk
    let (later, parser) ← pushAll fuel parser chunks
    return (frames ++ later, parser)

end OscParser

end VsFleet
