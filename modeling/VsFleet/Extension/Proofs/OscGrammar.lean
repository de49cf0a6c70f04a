import VsFleet.Extension.OscParser

/-!
# The grammar of OSC parameters

The code and the subcommand are read by `parseInt`, which takes a number off the front of a field
and lets the rest of the field be. So a field that only begins like a number of the grammar passes
for it, and digits that no double stands for come out as another number or as none.
-/

namespace VsFleet

namespace Osc

open JsText

/-- The numeral of the notification code. -/
def nine : JsString := ofString "9"

/-- The numeral of the shell integration code. -/
def sevenSevenSeven : JsString := ofString "777"

/-- The numeral of the code that is there for later. -/
def ninetyNine : JsString := ofString "99"

/-- The parameters of the grammar with the frames they stand for. -/
inductive Grammatical : JsString → OscFrame → Prop
  | osc9 (number : JsString) (digits : Digits number) :
    Grammatical (nine ++ semicolon :: number)
      (.osc9 (decimal number) [] (nine ++ semicolon :: number))
  | osc9Payload (number payload : JsString) (digits : Digits number) :
    Grammatical (nine ++ semicolon :: (number ++ semicolon :: payload))
      (.osc9 (decimal number) payload (nine ++ semicolon :: (number ++ semicolon :: payload)))
  | osc777 (action : JsString) (some_action : action ≠ []) (field : semicolon ∉ action) :
    Grammatical (sevenSevenSeven ++ semicolon :: action)
      (.osc777 action [] (sevenSevenSeven ++ semicolon :: action))
  | osc777Payload (action payload : JsString) (some_action : action ≠ [])
      (field : semicolon ∉ action) :
    Grammatical (sevenSevenSeven ++ semicolon :: (action ++ semicolon :: payload))
      (.osc777 action payload (sevenSevenSeven ++ semicolon :: (action ++ semicolon :: payload)))
  | osc99 : Grammatical ninetyNine (.osc99 ninetyNine)
  | osc99Rest (rest : JsString) :
    Grammatical (ninetyNine ++ semicolon :: rest) (.osc99 (ninetyNine ++ semicolon :: rest))

/-- The field in front of the first semicolon. -/
def code (param : JsString) : JsString := (splitFirst semicolon param).1

/-- What is behind the first semicolon. -/
def rest (param : JsString) : JsString := (splitFirst semicolon param).2.getD []

/-- The field between the first two semicolons. -/
def field (param : JsString) : JsString := (splitFirst semicolon (rest param)).1

/-- What is behind the second semicolon. -/
def payload (param : JsString) : JsString := (splitFirst semicolon (rest param)).2.getD []

section Fields

variable {param : JsString} {frame : OscFrame}

theorem parseOscParam_eq : parseOscParam param =
    match parseInt (code param) with
    | .finite 9 => parseOsc9 (rest param) param
    | .finite 777 => parseOsc777 (rest param) param
    | .finite 99 => some (.osc99 param)
    | _ => none := rfl

theorem parseOscParam_nine (h : parseInt (code param) = .finite 9) :
    parseOscParam param = some frame ↔ ∃ subcommand, parseInt (field param) = .finite subcommand ∧
      frame = .osc9 subcommand (payload param) param := by
  have read : parseOscParam param = parseOsc9 (rest param) param := by
    rw [parseOscParam_eq, h]
    rfl
  rw [read]
  unfold parseOsc9 field payload
  dsimp only
  split
  · rename_i subcommand found
    simp [found, eq_comm]
  · rename_i other
    exact iff_of_false (fun none_some => nomatch none_some) (fun ⟨n, found, _⟩ => other n found)

theorem parseOscParam_sevenSevenSeven (h : parseInt (code param) = .finite 777) :
    parseOscParam param = some frame ↔
      field param ≠ [] ∧ frame = .osc777 (field param) (payload param) param := by
  have read : parseOscParam param = parseOsc777 (rest param) param := by
    rw [parseOscParam_eq, h]
    rfl
  have empty : rest param = [] → field param = [] := fun none_left => by
    rw [field, none_left]
    rfl
  rw [read, parseOsc777]
  show (if _ then none else if (field param).isEmpty then none
    else some (.osc777 (field param) (payload param) param)) = some frame ↔ _
  simp only [List.isEmpty_iff]
  by_cases no_action : field param = []
  · rw [if_pos no_action, ite_self]
    simp [no_action]
  · rw [if_neg (fun none_left => no_action (empty none_left)), if_neg no_action]
    simp [no_action, eq_comm]

theorem parseOscParam_ninetyNine (h : parseInt (code param) = .finite 99) :
    parseOscParam param = some frame ↔ frame = .osc99 param := by
  have read : parseOscParam param = some (.osc99 param) := by
    rw [parseOscParam_eq, h]
    rfl
  rw [read, Option.some.injEq, eq_comm]

theorem parseOscParam_other (h9 : parseInt (code param) ≠ .finite 9)
    (h777 : parseInt (code param) ≠ .finite 777) (h99 : parseInt (code param) ≠ .finite 99) :
    parseOscParam param = none := by
  rw [parseOscParam_eq]
  split
  · exact absurd ‹_› h9
  · exact absurd ‹_› h777
  · exact absurd ‹_› h99
  · rfl

variable (param)

/-- A parameter is its first field, or that and what is behind its semicolon. -/
theorem eq_code :
    param = code param ∧ rest param = [] ∨ param = code param ++ semicolon :: rest param := by
  have joined := splitFirst_join (c := semicolon) (a := param)
  unfold code rest
  cases h : (splitFirst semicolon param).2 with
  | none =>
    rw [h, List.append_nil] at joined
    exact .inl ⟨joined.symm, rfl⟩
  | some later =>
    rw [h] at joined
    exact .inr joined.symm

/-- What is behind the first semicolon is the second field, or that and what is behind its
semicolon. -/
theorem rest_eq_field : rest param = field param ∧ payload param = [] ∨
    rest param = field param ++ semicolon :: payload param :=
  eq_code (rest param)

variable {param}

theorem code_rest {a b : JsString} (h : semicolon ∉ a) :
    code (a ++ semicolon :: b) = a ∧ rest (a ++ semicolon :: b) = b := by
  unfold code rest
  rw [splitFirst_append h]
  exact ⟨rfl, rfl⟩

theorem field_payload {a b c : JsString} (ha : semicolon ∉ a) (hb : semicolon ∉ b) :
    field (a ++ semicolon :: (b ++ semicolon :: c)) = b ∧
      payload (a ++ semicolon :: (b ++ semicolon :: c)) = c := by
  unfold field payload
  rw [(code_rest ha).2]
  exact code_rest hb

theorem field_last {a b : JsString} (ha : semicolon ∉ a) (hb : semicolon ∉ b) :
    field (a ++ semicolon :: b) = b ∧ payload (a ++ semicolon :: b) = [] := by
  unfold field payload
  rw [(code_rest ha).2, splitFirst_of_not_mem hb]
  exact ⟨rfl, rfl⟩

theorem semicolon_not_mem {number : JsString} (h : Digits number) : semicolon ∉ number :=
  fun mem => absurd (List.all_eq_true.mp h.2 semicolon mem) (by decide)

/-- The fields of a parameter of the grammar. -/
theorem Grammatical.fields (h : Grammatical param frame) :
    code param = nine ∧ Digits (field param) ∧
        frame = .osc9 (decimal (field param)) (payload param) param ∨
      code param = sevenSevenSeven ∧ field param ≠ [] ∧
        frame = .osc777 (field param) (payload param) param ∨
      code param = ninetyNine ∧ frame = .osc99 param := by
  have no_9 : semicolon ∉ nine := by decide
  have no_777 : semicolon ∉ sevenSevenSeven := by decide
  have no_99 : semicolon ∉ ninetyNine := by decide
  cases h with
  | osc9 number digits =>
    obtain ⟨number_field, no_payload⟩ := field_last no_9 (semicolon_not_mem digits)
    rw [number_field, no_payload]
    exact .inl ⟨(code_rest no_9).1, digits, rfl⟩
  | osc9Payload number later digits =>
    obtain ⟨number_field, the_payload⟩ :=
      field_payload (c := later) no_9 (semicolon_not_mem digits)
    rw [number_field, the_payload]
    exact .inl ⟨(code_rest no_9).1, digits, rfl⟩
  | osc777 action some_action one_field =>
    obtain ⟨action_field, no_payload⟩ := field_last no_777 one_field
    rw [action_field, no_payload]
    exact .inr (.inl ⟨(code_rest no_777).1, some_action, rfl⟩)
  | osc777Payload action later some_action one_field =>
    obtain ⟨action_field, the_payload⟩ := field_payload (c := later) no_777 one_field
    rw [action_field, the_payload]
    exact .inr (.inl ⟨(code_rest no_777).1, some_action, rfl⟩)
  | osc99 => exact .inr (.inr ⟨by decide, rfl⟩)
  | osc99Rest later => exact .inr (.inr ⟨(code_rest no_99).1, rfl⟩)

/-- A field that is not empty comes behind a semicolon. -/
theorem eq_code_field (some_field : field param ≠ []) :
    param = code param ++ semicolon :: field param ∧ payload param = [] ∨
      param = code param ++ semicolon :: (field param ++ semicolon :: payload param) := by
  rcases eq_code param with ⟨-, none_left⟩ | whole
  · exact absurd (by rw [field, none_left]; rfl) some_field
  · rcases rest_eq_field param with ⟨only, no_payload⟩ | both
    · exact .inl ⟨only ▸ whole, no_payload⟩
    · exact .inr (both ▸ whole)

/-- The grammar, field by field. -/
theorem grammatical_iff : Grammatical param frame ↔
    code param = nine ∧ Digits (field param) ∧
        frame = .osc9 (decimal (field param)) (payload param) param ∨
      code param = sevenSevenSeven ∧ field param ≠ [] ∧
        frame = .osc777 (field param) (payload param) param ∨
      code param = ninetyNine ∧ frame = .osc99 param := by
  refine ⟨Grammatical.fields, ?_⟩
  rintro (⟨the_code, digits, rfl⟩ | ⟨the_code, some_field, rfl⟩ | ⟨the_code, rfl⟩)
  · rcases eq_code_field digits.1 with ⟨whole, no_payload⟩ | whole
    · have := Grammatical.osc9 (field param) digits
      rwa [← the_code, ← whole, ← no_payload] at this
    · have := Grammatical.osc9Payload (field param) (payload param) digits
      rwa [← the_code, ← whole] at this
  · have one_field : semicolon ∉ field param := not_mem_splitFirst
    rcases eq_code_field some_field with ⟨whole, no_payload⟩ | whole
    · have := Grammatical.osc777 (field param) some_field one_field
      rwa [← the_code, ← whole, ← no_payload] at this
    · have := Grammatical.osc777Payload (field param) (payload param) some_field one_field
      rwa [← the_code, ← whole] at this
  · rcases eq_code param with ⟨only, -⟩ | whole
    · rw [only, the_code]
      exact .osc99
    · have := Grammatical.osc99Rest (rest param)
      rwa [← the_code, ← whole] at this

/-- Where `parseInt` reads one of the codes, the code is its numeral, or there is nothing in the
next field to make a frame of; and a subcommand of digits is its own double. -/
def Faithful (param : JsString) : Prop :=
  match parseInt (code param) with
  | .finite 9 =>
    if code param = nine ∧ Digits (field param) then
      toDouble (decimal (field param)) = some (decimal (field param))
    else ∀ n, parseInt (field param) ≠ .finite n
  | .finite 777 => code param = sevenSevenSeven ∨ field param = []
  | .finite 99 => code param = ninetyNine
  | _ => True

theorem parseInt_nine : parseInt nine = .finite 9 := by decide

theorem parseInt_sevenSevenSeven : parseInt sevenSevenSeven = .finite 777 := by decide

theorem parseInt_ninetyNine : parseInt ninetyNine = .finite 99 := by decide

/-- A parameter that begins with the code 9 and is of the grammar. -/
theorem exact_nine (the_code : code param = nine) (digits : Digits (field param)) :
    (∀ frame, parseOscParam param = some frame ↔ Grammatical param frame) ↔
      toDouble (decimal (field param)) = some (decimal (field param)) := by
  have read : parseInt (code param) = .finite 9 := by rw [the_code, parseInt_nine]
  have grammatical : ∀ frame, Grammatical param frame ↔
      frame = .osc9 (decimal (field param)) (payload param) param := by
    intro frame
    rw [grammatical_iff, the_code]
    simp [digits, show nine ≠ sevenSevenSeven by decide, show nine ≠ ninetyNine by decide]
  simp only [parseOscParam_nine read, grammatical, parseInt_digits digits]
  cases toDouble (decimal (field param)) with
  | none => simp
  | some n =>
    simp only [Number.finite.injEq, Option.some.injEq]
    constructor
    · intro same
      obtain ⟨subcommand, rfl, here⟩ :=
        (same (.osc9 (decimal (field param)) (payload param) param)).mpr rfl
      cases here
      omega
    · rintro rfl frame
      simp

/-- The parameters that no frame stands for. -/
theorem rejects_iff (none_for : ∀ frame, ¬ Grammatical param frame) :
    (∀ frame, parseOscParam param = some frame ↔ Grammatical param frame) ↔
      ∀ frame, parseOscParam param ≠ some frame :=
  forall_congr' fun frame => by simp only [none_for frame, iff_false, ne_eq]

theorem not_grammatical (h9 : code param ≠ nine ∨ ¬ Digits (field param))
    (h777 : code param ≠ sevenSevenSeven ∨ field param = []) (h99 : code param ≠ ninetyNine) :
    ∀ frame, ¬ Grammatical param frame := by
  intro frame grammatical
  rcases grammatical_iff.mp grammatical with ⟨the_code, digits, -⟩ | ⟨the_code, some_field, -⟩ |
    ⟨the_code, -⟩
  · exact h9.elim (fun h => h the_code) (fun h => h digits)
  · exact h777.elim (fun h => h the_code) some_field
  · exact h99 the_code

/-- A code that is read as another number is another numeral. -/
theorem code_ne {numeral : JsString} {n : Int} (read : parseInt numeral = .finite n)
    (differs : parseInt (code param) ≠ .finite n) : code param ≠ numeral :=
  fun same => differs (same ▸ read)

theorem accepts_nine (h : parseInt (code param) = .finite 9) :
    (∀ frame, parseOscParam param = some frame ↔ Grammatical param frame) ↔ Faithful param := by
  have no_777 : code param ≠ sevenSevenSeven := code_ne parseInt_sevenSevenSeven (by rw [h]; decide)
  have no_99 : code param ≠ ninetyNine := code_ne parseInt_ninetyNine (by rw [h]; decide)
  unfold Faithful
  rw [h]
  split_ifs with strict
  · exact exact_nine strict.1 strict.2
  · rw [rejects_iff (not_grammatical (not_and_or.mp strict) (.inl no_777) no_99)]
    simp only [ne_eq, parseOscParam_nine h, not_exists, not_and]
    exact ⟨fun none_read n read => none_read _ n read rfl,
      fun none_read _ n read => absurd read (none_read n)⟩

theorem accepts_sevenSevenSeven (h : parseInt (code param) = .finite 777) :
    (∀ frame, parseOscParam param = some frame ↔ Grammatical param frame) ↔ Faithful param := by
  have no_9 : code param ≠ nine := code_ne parseInt_nine (by rw [h]; decide)
  have no_99 : code param ≠ ninetyNine := code_ne parseInt_ninetyNine (by rw [h]; decide)
  unfold Faithful
  rw [h]
  by_cases strict : code param = sevenSevenSeven ∧ field param ≠ []
  · refine iff_of_true (fun frame => ?_) (.inl strict.1)
    rw [parseOscParam_sevenSevenSeven h, grammatical_iff]
    simp only [no_9, no_99, false_and, false_or, or_false]
    simp [strict]
  · have apart : code param ≠ sevenSevenSeven ∨ field param = [] := by
      rwa [not_and_or, not_not] at strict
    rw [rejects_iff (not_grammatical (.inl no_9) apart no_99)]
    simp only [ne_eq, parseOscParam_sevenSevenSeven h, not_and]
    constructor
    · intro none_for
      by_cases empty : field param = []
      · exact .inr empty
      · exact absurd rfl (none_for _ empty)
    · intro exact_code frame some_field
      exact absurd (exact_code.resolve_right some_field) (apart.resolve_right some_field)

theorem accepts_ninetyNine (h : parseInt (code param) = .finite 99) :
    (∀ frame, parseOscParam param = some frame ↔ Grammatical param frame) ↔ Faithful param := by
  have no_9 : code param ≠ nine := code_ne parseInt_nine (by rw [h]; decide)
  have no_777 : code param ≠ sevenSevenSeven := code_ne parseInt_sevenSevenSeven (by rw [h]; decide)
  unfold Faithful
  rw [h]
  by_cases strict : code param = ninetyNine
  · refine iff_of_true (fun frame => ?_) strict
    rw [parseOscParam_ninetyNine h, grammatical_iff]
    simp only [no_9, no_777, false_and, false_or]
    simp [strict]
  · rw [rejects_iff (not_grammatical (.inl no_9) (.inl no_777) strict)]
    simp only [ne_eq, parseOscParam_ninetyNine h]
    exact ⟨fun none_for => absurd rfl (none_for _), fun exact_code => absurd exact_code strict⟩

theorem accepts_other (h9 : parseInt (code param) ≠ .finite 9)
    (h777 : parseInt (code param) ≠ .finite 777) (h99 : parseInt (code param) ≠ .finite 99) :
    (∀ frame, parseOscParam param = some frame ↔ Grammatical param frame) ↔ Faithful param := by
  have nothing : Faithful param := by
    unfold Faithful
    split
    · exact absurd ‹_› h9
    · exact absurd ‹_› h777
    · exact absurd ‹_› h99
    · trivial
  refine iff_of_true ?_ nothing
  rw [rejects_iff (not_grammatical (.inl (code_ne parseInt_nine h9))
    (.inl (code_ne parseInt_sevenSevenSeven h777)) (code_ne parseInt_ninetyNine h99)),
    parseOscParam_other h9 h777 h99]
  exact fun _ none_some => nomatch none_some

/-- The parser accepts a parameter just by the grammar, and takes it apart so, exactly for the
faithful ones. -/
theorem accepts_iff (param : JsString) :
    (∀ frame, parseOscParam param = some frame ↔ Grammatical param frame) ↔ Faithful param := by
  by_cases h9 : parseInt (code param) = .finite 9
  · exact accepts_nine h9
  by_cases h777 : parseInt (code param) = .finite 777
  · exact accepts_sevenSevenSeven h777
  by_cases h99 : parseInt (code param) = .finite 99
  · exact accepts_ninetyNine h99
  exact accepts_other h9 h777 h99

/-- A letter behind the code. -/
theorem letterBehindCode_accepted :
    parseOscParam (ofString "9abc;1") = some (.osc9 1 [] (ofString "9abc;1")) ∧
      ∀ frame, ¬ Grammatical (ofString "9abc;1") frame := by
  refine ⟨by decide, fun frame grammatical => ?_⟩
  rcases grammatical_iff.mp grammatical with ⟨the_code, -⟩ | ⟨the_code, -⟩ | ⟨the_code, -⟩
  all_goals exact absurd the_code (by decide)

end Fields

end Osc

end VsFleet
