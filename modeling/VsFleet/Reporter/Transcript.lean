import VsFleet.Reporter.ClaudeInfer

/-!
# The scans of a transcript

The two corroborators as the source runs them over the text of a transcript
(`fleet-reporter/src/claude_infer.rs`): line by line, block by block, with what was seen so far.
-/

namespace VsFleet

/-- The carriage return of a line ending. -/
def stripReturn (line : List Char) : List Char :=
  if line.getLast? = some '\r' then line.dropLast else line

/-- `str::lines`: a line feed ends a line, with the carriage return before it, and the last line
need not have one. -/
def strLines (text : List Char) : List (List Char) :=
  let pieces := text.splitOn '\n'
  pieces.dropLast.map stripReturn ++ pieces.getLast?.toList.filter (fun line => ¬ line.isEmpty)

/-- The content blocks of a message, in either of its shapes. -/
def contentBlocks (value : Json) : Option (List Json) :=
  match (value.get? "message").bind (fun m => m.get? "content") <|> value.get? "content" with
  | some (.array blocks) => some blocks
  | _ => none

/-- The body of the loop over the lines, with what is done with a block. -/
def scanLine {σ : Type} (fromStr : String → Option Json) (block : σ → Json → σ) (scan : σ)
    (line : List Char) : σ :=
  let line := trim line
  if line.isEmpty then scan
  else
    match fromStr (String.ofList line) with
    | none => scan
    | some value =>
      match contentBlocks value with
      | some blocks => blocks.foldl block scan
      | none => scan

/-! ## The last call -/

/-- What `corroborate_jsonl` keeps; of the hash set only membership is read. -/
structure LastScan where
  dispatched : List String
  completed : List String
  sawAnyTool : Bool

/-- The body of its loop over the blocks (`claude_infer.rs:103-123`). -/
def LastScan.block (scan : LastScan) (block : Json) : LastScan :=
  match (block.get? "type").bind Json.asString with
  | some "tool_use" =>
    match (block.get? "id").bind Json.asString with
    | some id => { scan with sawAnyTool := true, dispatched := scan.dispatched ++ [id] }
    | none => scan
  | some "tool_result" =>
    match (block.get? "tool_use_id").bind Json.asString with
    | some id => { scan with sawAnyTool := true, completed := id :: scan.completed }
    | none => scan
  | _ => scan

/-- `corroborate_jsonl` (`claude_infer.rs:83-134`). -/
def corroborateLast (fromStr : String → Option Json) (body : String) : Corroboration :=
  let scan := (strLines body.toList).foldl (scanLine fromStr LastScan.block) ⟨[], [], false⟩
  if !scan.sawAnyTool then .unknown
  else
    match scan.dispatched.getLast? with
    | some last => if last ∉ scan.completed then .stuck else .resolved
    | none => .unknown

/-! ## A given call -/

/-- What `corroborate_jsonl_for` keeps. -/
structure CallScan where
  dispatched : Bool
  completed : Bool

/-- The body of its loop over the blocks (`claude_infer.rs:165-180`). -/
def CallScan.block (toolUseId : String) (scan : CallScan) (block : Json) : CallScan :=
  match (block.get? "type").bind Json.asString with
  | some "tool_use" =>
    if (block.get? "id").bind Json.asString = some toolUseId then { scan with dispatched := true }
    else scan
  | some "tool_result" =>
    if (block.get? "tool_use_id").bind Json.asString = some toolUseId then
      { scan with completed := true }
    else scan
  | _ => scan

/-- `corroborate_jsonl_for` (`claude_infer.rs:146-190`). -/
def corroborateFor (fromStr : String → Option Json) (body toolUseId : String) : Corroboration :=
  let scan := (strLines body.toList).foldl (scanLine fromStr (CallScan.block toolUseId))
    ⟨false, false⟩
  if !scan.dispatched then .unknown
  else if scan.completed then .resolved
  else .stuck

end VsFleet
