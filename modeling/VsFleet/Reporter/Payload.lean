import VsFleet.Protocol.Objects

/-!
# Hook payloads

What the hook parsers of both agents rest on: the decoding of a structure of optional fields that
the derive macro of serde writes, and the text functions of the standard library. A text is handed
to them as JSON already; an object keeps its fields in the order of the text.
-/

namespace VsFleet

/-! ## Structures of optional fields -/

/-- An optional field under its name and its alias: absent and null are none, and a field that is
there twice is an error. -/
def optionalField {α : Type} (decode : Json → Option α) (names : List String)
    (fields : List (String × Json)) : Option (Option α) :=
  match fields.filter (fun field => field.1 ∈ names) with
  | [] => some none
  | [(_, .null)] => some none
  | [(_, v)] => (decode v).map some
  | _ => none

/-- `filter(|s| !s.is_empty())`. -/
def nonEmpty (s : Option String) : Option String := s.filter (fun s => ¬ s.isEmpty)

/-! ## Text -/

/-- `char::is_whitespace`, the Unicode property. -/
def isWhitespace (c : Char) : Bool :=
  let n := c.toNat
  (9 ≤ n && n ≤ 13) || n == 0x20 || n == 0x85 || n == 0xA0 || n == 0x1680 ||
    (0x2000 ≤ n && n ≤ 0x200A) || n == 0x2028 || n == 0x2029 || n == 0x202F || n == 0x205F ||
    n == 0x3000

/-- `trim_start`. -/
def trimStart (text : List Char) : List Char := text.dropWhile isWhitespace

/-- `trim`. -/
def trim (text : List Char) : List Char := (trimStart (trimStart text).reverse).reverse

/-- `split_once` at the first white space, which goes. -/
def splitOnce (text : List Char) : Option (List Char × List Char) :=
  match text.dropWhile (fun c => ¬ isWhitespace c) with
  | [] => none
  | _ :: rest => some (text.takeWhile (fun c => ¬ isWhitespace c), rest)

/-- `preview` (`claude.rs:413-423`). -/
def preview (msg : String) : String :=
  let oneLine := msg.toList.map (fun c => if c = '\n' ∨ c = '\r' then ' ' else c)
  let trimmed := trim oneLine
  if trimmed.length ≤ 100 then String.ofList trimmed
  else String.ofList (trimmed.take 100 ++ ['…'])

end VsFleet
