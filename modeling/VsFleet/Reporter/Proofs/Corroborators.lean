import VsFleet.Reporter.Transcript

/-!
# The two corroborators

Both scans read a transcript as the calls and the results among its content blocks, in order. On
the last call they agree; a line that is not JSON is passed over by both; and what a call has got
it keeps when the transcript grows.
-/

namespace VsFleet

/-! ## Lines -/

theorem trim_append_whitespace {c : Char} (white : isWhitespace c = true) (line : List Char) :
    trim (line ++ [c]) = trim line := by
  unfold trim trimStart
  rw [List.dropWhile_append]
  split
  · rename_i blank
    rw [List.isEmpty_iff] at blank
    simp [blank, white]
  · simp [white]

theorem trim_stripReturn (line : List Char) : trim (stripReturn line) = trim line := by
  unfold stripReturn
  split
  · rename_i ends
    obtain ⟨front, rfl⟩ := List.getLast?_eq_some_iff.mp ends
    rw [List.dropLast_concat, trim_append_whitespace (by decide)]
  · rfl

/-- The lines of a text that say something, without the white space around them. -/
def saidLines (text : List Char) : List (List Char) :=
  ((strLines text).map trim).filter (fun line => ¬ line.isEmpty)

/-- An empty last piece is no line, and would say nothing as one. -/
theorem saidLines_eq (text : List Char) :
    saidLines text = ((text.splitOn '\n').map trim).filter (fun line => ¬ line.isEmpty) := by
  obtain ⟨last, ends⟩ := Option.ne_none_iff_exists'.mp
    (mt List.getLast?_eq_none_iff.mp (List.splitOn_ne_nil '\n' text))
  obtain ⟨front, pieces⟩ := List.getLast?_eq_some_iff.mp ends
  have stripped : (front.map stripReturn).map trim = front.map trim := by
    rw [List.map_map]
    exact List.map_congr_left (fun line _ => trim_stripReturn line)
  rw [saidLines, strLines, pieces]
  simp only [List.dropLast_concat, List.getLast?_concat, Option.toList_some, List.map_append,
    List.filter_append, stripped, List.map_cons, List.map_nil]
  cases last with
  | nil => rfl
  | cons c last => simp

/-- A line feed between two texts parts their lines. -/
theorem saidLines_append (text more : List Char) :
    saidLines (text ++ '\n' :: more) = saidLines text ++ saidLines more := by
  simp only [saidLines_eq, List.splitOn_append_cons_self, List.map_append, List.filter_append]

/-! ## Scans -/

section Scan

variable {σ : Type} {fromStr : String → Option Json} {block : σ → Json → σ}

theorem transcriptBlocks_eq (fromStr : String → Option Json) (line : String) :
    transcriptBlocks fromStr line = ((fromStr line).bind contentBlocks).getD [] := by
  unfold transcriptBlocks contentBlocks
  cases fromStr line with
  | none => rfl
  | some value =>
    rw [Option.bind_some]
    dsimp only
    cases (value.get? "message").bind (fun m => m.get? "content") <|> value.get? "content" with
    | none => rfl
    | some content => cases content <;> rfl

/-- A line is read as its blocks. -/
theorem scanLine_eq (scan : σ) (line : List Char) : scanLine fromStr block scan line =
    if (trim line).isEmpty then scan
    else (transcriptBlocks fromStr (String.ofList (trim line))).foldl block scan := by
  rw [transcriptBlocks_eq, scanLine]
  cases fromStr (String.ofList (trim line)) with
  | none => rfl
  | some value =>
    rw [Option.bind_some]
    cases read : contentBlocks value <;> simp [read]

/-- A scan of the lines that say something is a scan of their blocks. -/
theorem foldl_scanLine (lines : List (List Char)) (scan : σ) :
    lines.foldl (scanLine fromStr block) scan =
      (((lines.map trim).filter (fun line => ¬ line.isEmpty)).flatMap (fun line =>
        transcriptBlocks fromStr (String.ofList line))).foldl block scan := by
  induction lines generalizing scan with
  | nil => rfl
  | cons line lines ih =>
    rw [List.foldl_cons, ih, scanLine_eq, List.map_cons]
    cases blank : (trim line).isEmpty with
    | true => rw [List.filter_cons_of_neg (by simp [blank]), if_pos rfl]
    | false =>
      rw [List.filter_cons_of_pos (by simp [blank]), List.flatMap_cons, List.foldl_append,
        if_neg Bool.false_ne_true]

theorem foldl_strLines (body : String) (scan : σ) :
    (strLines body.toList).foldl (scanLine fromStr block) scan =
      (transcript fromStr body).foldl block scan := by
  have said := saidLines_eq body.toList
  rw [foldl_scanLine]
  simp only [transcript, saidLines] at said ⊢
  rw [said]

end Scan

/-! ## Blocks -/

theorem blockId_of_type {type type' key : String} {b : Json}
    (other : (b.get? "type").bind Json.asString = some type') :
    blockId type key b = if type' = type then (b.get? key).bind Json.asString else none := by
  rw [blockId, other]
  simp only [Option.some.injEq]

/-- A block that is neither a call nor a result. -/
theorem blockId_of_no_type {type key : String} {b : Json}
    (none : (b.get? "type").bind Json.asString ≠ some type) : blockId type key b = .none := by
  rw [blockId, if_neg none]

theorem dispatched_cons (b : Json) (blocks : List Json) :
    dispatched (b :: blocks) = dispatched [b] ++ dispatched blocks :=
  List.filterMap_append (l := [b])

theorem completed_cons (b : Json) (blocks : List Json) :
    completed (b :: blocks) = completed [b] ++ completed blocks :=
  List.filterMap_append (l := [b])

/-- What one block adds to the scan for the last call. -/
theorem lastScan_block (scan : LastScan) (b : Json) :
    (scan.block b).dispatched = scan.dispatched ++ dispatched [b] ∧
    (∀ id, id ∈ (scan.block b).completed ↔ id ∈ scan.completed ∨ id ∈ completed [b]) ∧
    ((scan.block b).sawAnyTool = true ↔
      scan.sawAnyTool = true ∨ dispatched [b] ≠ [] ∨ completed [b] ≠ []) := by
  unfold LastScan.block dispatched completed
  split
  · rename_i call
    rw [List.filterMap_cons, List.filterMap_cons, blockId_of_type call, blockId_of_type call]
    cases (b.get? "id").bind Json.asString <;> simp
  · rename_i result
    rw [List.filterMap_cons, List.filterMap_cons, blockId_of_type result, blockId_of_type result]
    cases (b.get? "tool_use_id").bind Json.asString <;> simp [or_comm]
  · rename_i call result
    rw [List.filterMap_cons, List.filterMap_cons, blockId_of_no_type (fun h => call h),
      blockId_of_no_type (fun h => result h)]
    simp

/-- The scan for the last call has seen the calls and the results of the blocks. -/
theorem foldl_lastScan (blocks : List Json) : ∀ scan : LastScan,
    (blocks.foldl LastScan.block scan).dispatched = scan.dispatched ++ dispatched blocks ∧
    (∀ id, id ∈ (blocks.foldl LastScan.block scan).completed ↔
      id ∈ scan.completed ∨ id ∈ completed blocks) ∧
    ((blocks.foldl LastScan.block scan).sawAnyTool = true ↔
      scan.sawAnyTool = true ∨ dispatched blocks ≠ [] ∨ completed blocks ≠ []) := by
  induction blocks with
  | nil => simp [dispatched, completed]
  | cons b blocks ih =>
    intro scan
    obtain ⟨calls, results, saw⟩ := ih (scan.block b)
    obtain ⟨call, result, seen⟩ := lastScan_block scan b
    rw [dispatched_cons, completed_cons, List.foldl_cons, calls, saw, call, seen,
      List.append_assoc]
    refine ⟨rfl, fun id => ?_, ?_⟩
    · rw [results, result, List.mem_append, or_assoc]
    · simp only [ne_eq, List.append_eq_nil_iff, not_and_or, or_assoc, or_left_comm]

/-- What one block adds to the scan for a call. -/
theorem callScan_block (toolUseId : String) (scan : CallScan) (b : Json) :
    ((scan.block toolUseId b).dispatched = true ↔
      scan.dispatched = true ∨ toolUseId ∈ dispatched [b]) ∧
    ((scan.block toolUseId b).completed = true ↔
      scan.completed = true ∨ toolUseId ∈ completed [b]) := by
  unfold CallScan.block dispatched completed
  split
  · rename_i call
    rw [List.filterMap_cons, List.filterMap_cons, blockId_of_type call, blockId_of_type call]
    cases (b.get? "id").bind Json.asString with
    | none => simp
    | some id => by_cases same : id = toolUseId <;> simp [same, Ne.symm]
  · rename_i result
    rw [List.filterMap_cons, List.filterMap_cons, blockId_of_type result, blockId_of_type result]
    cases (b.get? "tool_use_id").bind Json.asString with
    | none => simp
    | some id => by_cases same : id = toolUseId <;> simp [same, Ne.symm]
  · rename_i call result
    rw [List.filterMap_cons, List.filterMap_cons, blockId_of_no_type (fun h => call h),
      blockId_of_no_type (fun h => result h)]
    simp

/-- The scan for one call has seen whether it is among the calls, and among the results. -/
theorem foldl_callScan (toolUseId : String) (blocks : List Json) : ∀ scan : CallScan,
    ((blocks.foldl (CallScan.block toolUseId) scan).dispatched = true ↔
      scan.dispatched = true ∨ toolUseId ∈ dispatched blocks) ∧
    ((blocks.foldl (CallScan.block toolUseId) scan).completed = true ↔
      scan.completed = true ∨ toolUseId ∈ completed blocks) := by
  induction blocks with
  | nil => simp [dispatched, completed]
  | cons b blocks ih =>
    intro scan
    obtain ⟨calls, results⟩ := ih (scan.block toolUseId b)
    obtain ⟨call, result⟩ := callScan_block toolUseId scan b
    rw [dispatched_cons, completed_cons, List.foldl_cons, calls, results, call, result,
      List.mem_append, List.mem_append, or_assoc, or_assoc]
    exact ⟨Iff.rfl, Iff.rfl⟩

/-! ## The scans and the blocks -/

theorem corroborateLast_eq (fromStr : String → Option Json) (body : String) :
    corroborateLast fromStr body = corroborateJsonl (transcript fromStr body) := by
  obtain ⟨calls, results, saw⟩ := foldl_lastScan (transcript fromStr body) ⟨[], [], false⟩
  rw [List.nil_append] at calls
  unfold corroborateLast corroborateJsonl
  rw [foldl_strLines]
  dsimp only
  rw [calls]
  cases ends : (dispatched (transcript fromStr body)).getLast? with
  | none => split <;> rfl
  | some last =>
    have tool : ((transcript fromStr body).foldl LastScan.block ⟨[], [], false⟩).sawAnyTool =
        true := by
      refine saw.mpr (Or.inr (Or.inl ?_))
      intro none
      rw [none] at ends
      cases ends
    have got := results last
    simp only [List.not_mem_nil, false_or] at got
    rw [tool]
    simp only [got]
    by_cases done : last ∈ completed (transcript fromStr body) <;> simp [done]

theorem corroborateFor_eq (fromStr : String → Option Json) (body toolUseId : String) :
    corroborateFor fromStr body toolUseId =
      corroborateJsonlFor (transcript fromStr body) toolUseId := by
  obtain ⟨calls, results⟩ := foldl_callScan toolUseId (transcript fromStr body) ⟨false, false⟩
  simp only [Bool.false_eq_true, false_or] at calls results
  unfold corroborateFor corroborateJsonlFor
  rw [foldl_strLines]
  dsimp only
  by_cases called : toolUseId ∈ dispatched (transcript fromStr body) <;>
    by_cases done : toolUseId ∈ completed (transcript fromStr body) <;>
    simp [called, done, calls, results]

/-! ## Agreement -/

/-- The lines of a body that are JSON once trimmed. -/
def jsonLines (fromStr : String → Option Json) (body : String) : List (List Char) :=
  (strLines body.toList).filter (fun line => (fromStr (String.ofList (trim line))).isSome)

/-- A line that is not JSON has no blocks, and a line that says nothing is not read. -/
theorem transcript_jsonLines (fromStr : String → Option Json) (body : String) :
    transcript fromStr body =
      (((jsonLines fromStr body).map trim).filter (fun line => ¬ line.isEmpty)).flatMap
        (fun line => transcriptBlocks fromStr (String.ofList line)) := by
  have said := saidLines_eq body.toList
  have read : transcript fromStr body = (saidLines body.toList).flatMap (fun line =>
      transcriptBlocks fromStr (String.ofList line)) := by
    rw [said]
    rfl
  rw [read, saidLines, jsonLines]
  induction strLines body.toList with
  | nil => rfl
  | cons line lines ih =>
    rw [List.map_cons, List.filter_cons, List.filter_cons]
    cases json : fromStr (String.ofList (trim line)) with
    | none =>
      have silent : transcriptBlocks fromStr (String.ofList (trim line)) = [] := by
        rw [transcriptBlocks_eq, json]
        rfl
      rw [Option.isSome_none, if_neg Bool.false_ne_true]
      split
      · rw [List.flatMap_cons, silent, List.nil_append, ih]
      · exact ih
    | some value =>
      rw [Option.isSome_some, if_pos rfl, List.map_cons, List.filter_cons]
      split <;> simp only [List.flatMap_cons, ih]

theorem transcript_append (fromStr : String → Option Json) (body more : String) :
    transcript fromStr (body ++ "\n" ++ more) =
      transcript fromStr body ++ transcript fromStr more := by
  have parted := saidLines_append body.toList more.toList
  rw [saidLines_eq, saidLines_eq, saidLines_eq] at parted
  have text : (body ++ "\n" ++ more).toList = body.toList ++ '\n' :: more.toList := by
    simp [String.toList_append]
  unfold transcript
  rw [text]
  dsimp only
  rw [parted, List.flatMap_append]

theorem corroborateJsonlFor_resolved {blocks : List Json} {id : String} :
    corroborateJsonlFor blocks id = .resolved ↔ id ∈ dispatched blocks ∧ id ∈ completed blocks := by
  unfold corroborateJsonlFor
  by_cases called : id ∈ dispatched blocks <;> by_cases done : id ∈ completed blocks <;>
    simp [called, done]

/-- What has its result keeps it, whatever blocks follow. -/
theorem corroborateJsonlFor_append {blocks : List Json} {id : String}
    (resolved : corroborateJsonlFor blocks id = .resolved) (more : List Json) :
    corroborateJsonlFor (blocks ++ more) id = .resolved := by
  obtain ⟨called, done⟩ := corroborateJsonlFor_resolved.mp resolved
  rw [corroborateJsonlFor_resolved, dispatched, completed, List.filterMap_append,
    List.filterMap_append]
  exact ⟨List.mem_append_left _ called, List.mem_append_left _ done⟩

/-- On a call that is dispatched the scan for it tells the two verdicts of the scan for the last
call apart. -/
theorem corroborateJsonl_last {blocks : List Json} {id : String}
    (last : (dispatched blocks).getLast? = some id) :
    corroborateJsonl blocks = corroborateJsonlFor blocks id := by
  have called : id ∈ dispatched blocks := List.mem_of_getLast? last
  simp [corroborateJsonl, corroborateJsonlFor, last, called]

/-- The two scans agree on the last call; two bodies whose lines differ in what is not JSON only
get the same verdicts; and lines that are added, after a line that is finished or not, leave a
call its result. -/
theorem corroborators_agree (fromStr : String → Option Json) :
    (∀ body id, (dispatched (transcript fromStr body)).getLast? = some id →
      corroborateLast fromStr body = corroborateFor fromStr body id) ∧
    (∀ body body', jsonLines fromStr body = jsonLines fromStr body' →
      corroborateLast fromStr body = corroborateLast fromStr body' ∧
      ∀ id, corroborateFor fromStr body id = corroborateFor fromStr body' id) ∧
    (∀ body more id, corroborateFor fromStr body id = .resolved →
      corroborateFor fromStr (body ++ "\n" ++ more) id = .resolved) ∧
    (∀ front more id, corroborateFor fromStr (front ++ "\n") id = .resolved →
      corroborateFor fromStr (front ++ "\n" ++ more) id = .resolved) := by
  simp only [corroborateLast_eq, corroborateFor_eq]
  refine ⟨fun body id last => corroborateJsonl_last last, fun body body' same => ?_,
    fun body more id resolved => ?_, fun front more id resolved => ?_⟩
  · have read : transcript fromStr body = transcript fromStr body' := by
      rw [transcript_jsonLines, same, ← transcript_jsonLines]
    rw [read]
    exact ⟨rfl, fun _ => rfl⟩
  · rw [transcript_append]
    exact corroborateJsonlFor_append resolved _
  · -- nothing is said after the line feed that ends the body
    have whole : transcript fromStr (front ++ "\n") = transcript fromStr front := by
      have parted := transcript_append fromStr front ""
      have silent : transcript fromStr "" = [] := rfl
      rwa [String.append_empty, silent, List.append_nil] at parted
    rw [transcript_append]
    rw [whole] at resolved
    exact corroborateJsonlFor_append resolved _

/-- The lines of a transcript with a call `t` and with its result, for worked cases. -/
def callLine : String := "\x7b\"content\":[\x7b\"type\":\"tool_use\",\"id\":\"t\"\x7d]\x7d"

/-- A line of a transcript with the result of a tool call. -/
def resultLine : String :=
  "\x7b\"content\":[\x7b\"type\":\"tool_result\",\"tool_use_id\":\"t\"\x7d]\x7d"

/-- The JSON of these two lines, and of no other. -/
def readCall (line : String) : Option Json :=
  if line = callLine then
    some (.object [("content", .array [.object [("type", .string "tool_use"),
      ("id", .string "t")]])])
  else if line = resultLine then
    some (.object [("content", .array [.object [("type", .string "tool_result"),
      ("tool_use_id", .string "t")]])])
  else none

/-- A call and its result around a line that is cut off, with the result and without. -/
theorem corroborators_agree_at_call :
    corroborateLast readCall (callLine ++ "\n\x7b\n") = .stuck ∧
    corroborateLast readCall (callLine ++ "\n\x7b\n") =
      corroborateFor readCall (callLine ++ "\n\x7b\n") "t" ∧
    corroborateFor readCall (callLine ++ "\n\x7b\n") "t" =
      corroborateFor readCall (callLine ++ "\n") "t" ∧
    corroborateFor readCall (callLine ++ "\n" ++ resultLine ++ "\n" ++ callLine) "t" =
      .resolved ∧
    corroborateFor readCall (callLine ++ "\n" ++ resultLine ++ "\n" ++ "null") "t" =
      .resolved := by
  obtain ⟨agree, skipped, kept, kept'⟩ := corroborators_agree readCall
  exact ⟨by decide +kernel, agree _ _ (by decide +kernel), (skipped _ _ (by decide +kernel)).2 "t",
    kept (callLine ++ "\n" ++ resultLine) callLine "t" (by decide +kernel),
    kept' (callLine ++ "\n" ++ resultLine) "null" "t" (by decide +kernel)⟩

end VsFleet
