import Mathlib.Data.List.Basic

/-!
# The words of a shell command

How a POSIX shell takes the text of a command apart: into operators and words, with the quotes of a
word removed. An expansion, of a parameter or of a command, is a piece of its word and kept as its
text, up to the bracket that closes it. Line continuations within an operator or a name, the bodies
of here-documents, aliases and `case` patterns within an expansion are outside.
-/

namespace VsFleet.Shell

/-- A piece of a word: a character that stands for itself, or an expansion. What is not quoted is
still open to pathname expansion and to the splitting of fields. -/
inductive Piece where
  | char (c : Char) (quoted : Bool)
  | expansion (text : List Char) (quoted : Bool)
  deriving DecidableEq, Repr

/-- A token; the number of a redirection is one of its own. -/
inductive Token where
  | word (pieces : List Piece)
  | ioNumber (digits : List Char)
  | op (text : List Char)
  deriving DecidableEq, Repr

/-- What is open in an expansion. -/
inductive Bracket where
  | paren
  | brace
  | single
  | double
  | backquote
  deriving DecidableEq, Repr

/-- Where in the text the lexer is: between quotes or not, within an operator or a comment, behind a
backslash or a dollar sign, or within an expansion. -/
inductive Mode where
  | plain
  | operator (text : List Char)
  | comment
  | single
  | double
  | escape (quoted : Bool)
  | dollar (quoted : Bool)
  | name (text : List Char) (quoted : Bool)
  | nested (text : List Char) (brackets : List Bracket) (escaped quoted : Bool)
  deriving DecidableEq, Repr

/-- The lexer: the tokens so far and the word that has begun. -/
structure Lexer where
  tokens : List Token
  word : Option (List Piece)
  mode : Mode
  deriving DecidableEq, Repr

/-- The operators of the shell grammar that separate words. -/
def operators : List (List Char) :=
  [['&'], ['|'], [';'], ['<'], ['>'], ['('], [')'], ['&', '&'], ['|', '|'], [';', ';'],
    ['<', '<'], ['>', '>'], ['<', '&'], ['>', '&'], ['<', '>'], ['<', '<', '-'], ['>', '|']]

/-- The character of the old command substitution. -/
def isBackquote (c : Char) : Bool := c.toNat = 96

/-- A character that a name starts with. -/
def isNameStart (c : Char) : Bool := c.isAlpha || c = '_'

/-- A character that a name goes on with. -/
def isNameChar (c : Char) : Bool := c.isAlphanum || c = '_'

/-- The special parameters and the positional ones. -/
def isParameter (c : Char) : Bool := c.isDigit || c ∈ ['@', '*', '#', '?', '-', '$', '!']

/-- The mode around an expansion or a character behind a backslash. -/
def Mode.around : Bool → Mode
  | true => .double
  | false => .plain

/-- The digits of a word that is a number and nothing else. -/
def digits? (pieces : List Piece) : Option (List Char) :=
  if pieces.isEmpty then none
  else pieces.mapM (fun piece => match piece with
    | .char c false => if c.isDigit then some c else none
    | _ => none)

namespace Lexer

/-- The lexer at the start of a text. -/
def new : Lexer := ⟨[], none, .plain⟩

/-- The lexer goes on in a mode. -/
def enter (s : Lexer) (mode : Mode) : Lexer := { s with mode }

/-- A word begins, if none has. -/
def begin (s : Lexer) : Lexer := { s with word := some (s.word.getD []) }

/-- A piece is added to the word, which begins if there is none. -/
def push (s : Lexer) (piece : Piece) : Lexer := { s with word := some (s.word.getD [] ++ [piece]) }

/-- A token is complete. -/
def emit (s : Lexer) (token : Token) : Lexer := { s with tokens := s.tokens ++ [token] }

/-- The word that has begun ends. -/
def endWord (s : Lexer) : Lexer :=
  match s.word with
  | some pieces => { s with tokens := s.tokens ++ [.word pieces], word := none }
  | none => s

/-- The word in front of a redirection ends: a number belongs to it. -/
def endNumber (s : Lexer) : Lexer :=
  match s.word.bind digits? with
  | some digits => { s with tokens := s.tokens ++ [.ioNumber digits], word := none }
  | none => s.endWord

/-- A character outside of quotes. -/
def plain (s : Lexer) (c : Char) : Lexer :=
  if c = '\n' then (s.endWord.emit (.op ['\n'])).enter .plain
  else if c = '<' ∨ c = '>' then s.endNumber.enter (.operator [c])
  else if [c] ∈ operators then s.endWord.enter (.operator [c])
  else if c = ' ' ∨ c = '\t' then s.endWord.enter .plain
  else if c = '\'' then s.begin.enter .single
  else if c = '"' then s.begin.enter .double
  else if c = '\\' then s.enter (.escape false)
  else if c = '$' then s.begin.enter (.dollar false)
  else if isBackquote c then s.begin.enter (.nested [c] [.backquote] false false)
  else if c = '#' ∧ s.word = none then s.enter .comment
  else (s.push (.char c false)).enter .plain

/-- A character between double quotes. -/
def double (s : Lexer) (c : Char) : Lexer :=
  if c = '"' then s.enter .plain
  else if c = '\\' then s.enter (.escape true)
  else if c = '$' then s.enter (.dollar true)
  else if isBackquote c then s.enter (.nested [c] [.backquote] false true)
  else (s.push (.char c true)).enter .double

/-- The character is read in the mode around. -/
def around (s : Lexer) : Bool → Char → Lexer
  | true => s.double
  | false => s.plain

/-- What a character opens within an expansion, behind some text. -/
def opens (text : List Char) (inside : Bracket) (c : Char) : Option Bracket :=
  let expands := text.getLast? = some '$'
  match inside with
  | .single => none
  | .backquote => none
  | .double =>
    if isBackquote c then some .backquote
    else if c = '(' ∧ expands then some .paren
    else if c = '\x7b' ∧ expands then some .brace
    else none
  | .paren | .brace =>
    if isBackquote c then some .backquote
    else if c = '\'' then some .single
    else if c = '"' then some .double
    else if c = '(' ∧ (inside = .paren ∨ expands) then some .paren
    else if c = '\x7b' ∧ expands then some .brace
    else none

/-- The character that closes a bracket. -/
def closes : Bracket → Char → Bool
  | .paren, c => c = ')'
  | .brace, c => c = '\x7d'
  | .single, c => c = '\''
  | .double, c => c = '"'
  | .backquote, c => isBackquote c

/-- The brackets still open after a character within an expansion, and whether it escapes the
next. -/
def brackets (text : List Char) (escaped : Bool) (c : Char) :
    List Bracket → List Bracket × Bool
  | [] => ([], false)
  | inside :: outside =>
    if escaped then (inside :: outside, false)
    else if closes inside c then (outside, false)
    else if c = '\\' ∧ inside ≠ .single then (inside :: outside, true)
    else match opens text inside c with
      | some bracket => (bracket :: inside :: outside, false)
      | none => (inside :: outside, false)

/-- The next character. -/
def step (s : Lexer) (c : Char) : Lexer :=
  match s.mode with
  | .plain => s.plain c
  | .operator text =>
    if text ++ [c] ∈ operators then s.enter (.operator (text ++ [c]))
    else (s.emit (.op text)).plain c
  | .comment => if c = '\n' then s.plain c else s
  | .single => if c = '\'' then s.enter .plain else s.push (.char c true)
  | .double => s.double c
  | .escape false => if c = '\n' then s.enter .plain else (s.push (.char c true)).enter .plain
  | .escape true =>
    if c = '\n' then s.enter .double
    else if c = '$' ∨ c = '"' ∨ c = '\\' ∨ isBackquote c then (s.push (.char c true)).enter .double
    else ((s.push (.char '\\' true)).push (.char c true)).enter .double
  | .dollar quoted =>
    if c = '(' then s.enter (.nested ['$', c] [.paren] false quoted)
    else if c = '\x7b' then s.enter (.nested ['$', c] [.brace] false quoted)
    else if isNameStart c then s.enter (.name ['$', c] quoted)
    else if isParameter c then (s.push (.expansion ['$', c] quoted)).enter (.around quoted)
    else (s.push (.char '$' quoted)).around quoted c
  | .name text quoted =>
    if isNameChar c then s.enter (.name (text ++ [c]) quoted)
    else (s.push (.expansion text quoted)).around quoted c
  | .nested text open_ escaped quoted =>
    match brackets text escaped c open_ with
    | ([], _) => (s.push (.expansion (text ++ [c]) quoted)).enter (.around quoted)
    | (left, escaped') => s.enter (.nested (text ++ [c]) left escaped' quoted)

/-- The lexer reads a text. -/
def run (s : Lexer) (text : List Char) : Lexer := text.foldl step s

/-- The tokens at the end of the text, unless a quote or an expansion is left open. -/
def finish (s : Lexer) : Option (List Token) :=
  match s.mode with
  | .plain | .comment => some s.endWord.tokens
  | .operator text => some (s.emit (.op text)).tokens
  | .dollar false => some (s.push (.char '$' false)).endWord.tokens
  | .name text false => some (s.push (.expansion text false)).endWord.tokens
  | _ => none

end Lexer

/-- The tokens of a text, unless a quote or an expansion is left open in it. -/
def lex (text : String) : Option (List Token) := (Lexer.new.run text.toList).finish

/-- The text as a word that stands for itself. -/
def quoted (text : String) : List Piece := text.toList.map (fun c => .char c true)

/-- The pieces of an unquoted text. -/
def bare (text : String) : List Piece := text.toList.map (fun c => .char c false)

/-! ## Commands -/

/-- The operators whose next word is the target of a redirection. -/
def redirections : List (List Char) :=
  [['<'], ['>'], ['<', '<'], ['>', '>'], ['<', '&'], ['>', '&'], ['<', '>'], ['<', '<', '-'],
    ['>', '|']]

/-- The words of the simple commands, the one with `words` begun, without their redirections. -/
def commandsFrom (words : List (List Piece)) : List Token → List (List (List Piece))
  | [] => if words.isEmpty then [] else [words]
  | .word pieces :: tokens => commandsFrom (words ++ [pieces]) tokens
  | .ioNumber _ :: tokens => commandsFrom words tokens
  | .op text :: .word pieces :: tokens =>
    if text ∈ redirections then commandsFrom words tokens
    else if words.isEmpty then commandsFrom [pieces] tokens
    else words :: commandsFrom [pieces] tokens
  | .op _ :: tokens =>
    if words.isEmpty then commandsFrom [] tokens else words :: commandsFrom [] tokens

/-- The simple commands that some tokens make, each as its words. -/
def commands (tokens : List Token) : List (List (List Piece)) := commandsFrom [] tokens

section Commands

variable (words : List (List Piece)) (tokens : List Token)

/-- A word goes on the command that has begun. -/
theorem commandsFrom_word (pieces : List Piece) :
    commandsFrom words (.word pieces :: tokens) = commandsFrom (words ++ [pieces]) tokens := rfl

/-- So do several. -/
theorem commandsFrom_words (more : List (List Piece)) :
    commandsFrom words (more.map .word ++ tokens) = commandsFrom (words ++ more) tokens := by
  induction more generalizing words with
  | nil => rw [List.map_nil, List.nil_append, List.append_nil]
  | cons pieces more ih =>
    rw [List.map_cons, List.cons_append, commandsFrom_word, ih, List.append_assoc,
      List.singleton_append]

/-- The number of a redirection is no word of it. -/
theorem commandsFrom_number (digits : List Char) :
    commandsFrom words (.ioNumber digits :: tokens) = commandsFrom words tokens := rfl

/-- The target of a redirection is no word of the command. -/
theorem commandsFrom_redirect {text : List Char} (redirects : text ∈ redirections)
    (pieces : List Piece) :
    commandsFrom words (.op text :: .word pieces :: tokens) = commandsFrom words tokens := by
  rw [commandsFrom, if_pos redirects]

/-- Any other operator ends the command. -/
theorem commandsFrom_end {text : List Char} (ends : text ∉ redirections) (some_words : words ≠ []) :
    commandsFrom words (.op text :: tokens) = words :: commandsFrom [] tokens := by
  have begun : words.isEmpty = false := List.isEmpty_eq_false_iff.mpr some_words
  cases tokens with
  | nil => simp [commandsFrom, begun]
  | cons token tokens =>
    cases token with
    | word pieces => simp [commandsFrom, begun, ends]
    | ioNumber digits => simp [commandsFrom, begun]
    | op text => simp [commandsFrom, begun]

end Commands

/-! ## Texts put together -/

namespace Lexer

/-- A text is read piece by piece. -/
theorem run_append (s : Lexer) (text rest : List Char) :
    s.run (text ++ rest) = (s.run text).run rest := List.foldl_append

theorem run_cons (s : Lexer) (c : Char) (text : List Char) :
    s.run (c :: text) = (s.step c).run text := rfl

/-- The lexer behind some tokens. -/
def after (tokens : List Token) (s : Lexer) : Lexer := { s with tokens := tokens ++ s.tokens }

section After

variable (tokens : List Token) (s : Lexer)

/-- The steps of the lexer do not look at the tokens before: each commutes with them. -/
@[simp] theorem enter_after (mode : Mode) :
    (s.after tokens).enter mode = (s.enter mode).after tokens := rfl

@[simp] theorem begin_after : (s.after tokens).begin = s.begin.after tokens := rfl

@[simp] theorem push_after (piece : Piece) :
    (s.after tokens).push piece = (s.push piece).after tokens := rfl

@[simp] theorem emit_after (token : Token) :
    (s.after tokens).emit token = (s.emit token).after tokens := by
  simp [emit, after]

@[simp] theorem endWord_after : (s.after tokens).endWord = s.endWord.after tokens := by
  obtain ⟨before, word, mode⟩ := s
  cases word <;> simp [endWord, after]

@[simp] theorem endNumber_after : (s.after tokens).endNumber = s.endNumber.after tokens := by
  unfold endNumber
  rw [endWord_after]
  show (match s.word.bind digits? with | some _ => _ | none => _) = _
  cases s.word.bind digits? <;> simp [after]

@[simp] theorem plain_after (c : Char) : (s.after tokens).plain c = (s.plain c).after tokens := by
  have word : (s.after tokens).word = s.word := rfl
  unfold plain
  simp only [word, enter_after, begin_after, push_after, emit_after, endWord_after,
    endNumber_after, apply_ite (after tokens)]

@[simp] theorem double_after (c : Char) :
    (s.after tokens).double c = (s.double c).after tokens := by
  unfold double
  simp only [enter_after, push_after, apply_ite (after tokens)]

@[simp] theorem around_after (quoted : Bool) (c : Char) :
    (s.after tokens).around quoted c = (s.around quoted c).after tokens := by
  cases quoted
  · exact plain_after tokens s c
  · exact double_after tokens s c

/-- What a character does, does not depend on the tokens there are. -/
theorem step_after (c : Char) : (s.after tokens).step c = (s.step c).after tokens := by
  have mode : (s.after tokens).mode = s.mode := rfl
  unfold step
  rw [mode]
  cases s.mode with
  | plain => exact plain_after tokens s c
  | double => exact double_after tokens s c
  | operator text => simp only [enter_after, emit_after, plain_after, apply_ite (after tokens)]
  | comment => simp only [plain_after, apply_ite (after tokens)]
  | single => simp only [enter_after, push_after, apply_ite (after tokens)]
  | escape quoted =>
    cases quoted <;> simp only [enter_after, push_after, apply_ite (after tokens)]
  | dollar quoted =>
    simp only [enter_after, push_after, around_after, apply_ite (after tokens)]
  | name text quoted =>
    simp only [enter_after, push_after, around_after, apply_ite (after tokens)]
  | nested text open_ escaped quoted =>
    simp only [enter_after, push_after]
    split <;> rfl

/-- So a text is read in the same way behind other tokens. -/
theorem run_after (text : List Char) : (s.after tokens).run text = (s.run text).after tokens := by
  induction text generalizing s with
  | nil => rfl
  | cons c text ih => rw [run_cons, run_cons, step_after, ih]

/-- And it ends in the same way. -/
theorem finish_after : (s.after tokens).finish = s.finish.map (fun later => tokens ++ later) := by
  have mode : (s.after tokens).mode = s.mode := rfl
  unfold finish
  rw [mode]
  cases s.mode with
  | plain | comment => exact congrArg (fun l => some l.tokens) (endWord_after tokens s)
  | operator text => exact congrArg (fun l => some l.tokens) (emit_after tokens s (.op text))
  | dollar quoted =>
    cases quoted
    · exact congrArg (fun l => some l.tokens)
        (endWord_after tokens (s.push (.char '$' false)))
    · rfl
  | name text quoted =>
    cases quoted
    · exact congrArg (fun l => some l.tokens)
        (endWord_after tokens (s.push (.expansion text false)))
    · rfl
  | single | double | escape | nested => rfl

end After

/-- A blank ends the word. -/
theorem run_blank (tokens : List Token) (word : List Piece) (text : List Char) :
    (⟨tokens, some word, .plain⟩ : Lexer).run (' ' :: text) =
      (new.run text).after (tokens ++ [.word word]) := by
  rw [← run_after, run_cons]
  congr 1
  simp [after, new, step, plain, endWord, enter, operators]

/-- So does the end of the line, which is a token as well. -/
theorem run_newline (tokens : List Token) (word : List Piece) (text : List Char) :
    (⟨tokens, some word, .plain⟩ : Lexer).run ('\n' :: text) =
      (new.run text).after (tokens ++ [.word word, .op ['\n']]) := by
  rw [← run_after, run_cons]
  congr 1
  simp [after, new, step, plain, endWord, emit, enter]

/-! ## Single quotes -/

/-- Between single quotes every character stands for itself. -/
theorem run_single (tokens : List Token) {text : List Char} (plain : '\'' ∉ text) :
    ∀ word : List Piece, (⟨tokens, some word, .single⟩ : Lexer).run text =
      ⟨tokens, some (word ++ text.map (fun c => .char c true)), .single⟩ := by
  induction text with
  | nil => exact fun word => by simp [run]
  | cons c text ih =>
    intro word
    have ne : c ≠ '\'' := fun eq => plain (eq ▸ List.mem_cons_self)
    rw [run_cons, step]
    simp only [if_neg ne]
    have rest := ih (fun mem => plain (List.mem_cons_of_mem _ mem)) (word ++ [.char c true])
    rw [List.append_assoc] at rest
    exact rest

end Lexer

/-- A text between single quotes, each of its own quotes as a closing one, an escaped one and an
opening one. -/
def quote (text : List Char) : List Char :=
  '\'' :: (text.flatMap (fun c => if c = '\'' then ['\'', '\\', '\'', '\''] else [c]) ++ ['\''])

namespace Lexer

/-- The inside of a quotation gives its characters, each of them quoted. -/
theorem run_quote_inner (tokens : List Token) (text : List Char) : ∀ word : List Piece,
    (⟨tokens, some word, .single⟩ : Lexer).run
        (text.flatMap (fun c => if c = '\'' then ['\'', '\\', '\'', '\''] else [c])) =
      ⟨tokens, some (word ++ text.map (fun c => .char c true)), .single⟩ := by
  induction text with
  | nil => exact fun word => by simp [run]
  | cons c text ih =>
    intro word
    rw [List.flatMap_cons, run_append]
    have char : (⟨tokens, some word, .single⟩ : Lexer).run
        (if c = '\'' then ['\'', '\\', '\'', '\''] else [c]) =
          ⟨tokens, some (word ++ [.char c true]), .single⟩ := by
      by_cases own : c = '\''
      · subst own
        rfl
      · rw [if_neg own]
        exact run_single tokens (by simpa using Ne.symm own) word
    rw [char, ih, List.append_assoc]
    rfl

/-- Outside of quotes a quoted text is a piece of a word that stands for itself. -/
theorem run_quote (tokens : List Token) (word : Option (List Piece)) (text : List Char) :
    (⟨tokens, word, .plain⟩ : Lexer).run (quote text) =
      ⟨tokens, some (word.getD [] ++ text.map (fun c => .char c true)), .plain⟩ := by
  have open_ : (⟨tokens, word, .plain⟩ : Lexer).step '\'' =
      ⟨tokens, some (word.getD []), .single⟩ := rfl
  rw [quote, run_cons, open_, run_append, run_quote_inner]
  rfl

end Lexer

/-! ## Texts made of words -/

/-- The text is a piece of a word, whatever comes in front of it. -/
def Spells (text : List Char) (pieces : List Piece) : Prop :=
  ∀ tokens word, (⟨tokens, word, .plain⟩ : Lexer).run text =
    ⟨tokens, some (word.getD [] ++ pieces), .plain⟩

/-- The text reads as the tokens, with no quote or operator left open behind it. -/
def Reads (text : List Char) (tokens : List Token) : Prop :=
  (Lexer.new.run text).endWord = ⟨tokens, none, .plain⟩

instance (text : List Char) (tokens : List Token) : Decidable (Reads text tokens) :=
  inferInstanceAs (Decidable (_ = _))

/-- A character that means nothing to the shell. -/
def isPlain (c : Char) : Bool := c.isAlphanum || c ∈ ['-', '.', '_', '/', ':', '=']

/-- Two spellings side by side spell one word. -/
theorem Spells.append {text more : List Char} {pieces pieces' : List Piece}
    (h : Spells text pieces) (h' : Spells more pieces') :
    Spells (text ++ more) (pieces ++ pieces') := by
  intro tokens word
  rw [Lexer.run_append, h, h', Option.getD_some, List.append_assoc]

/-- A quotation spells its text. -/
theorem spells_quote (text : List Char) :
    Spells (quote text) (text.map (fun c => .char c true)) :=
  fun tokens word => Lexer.run_quote tokens word text

/-- A plain character goes on the word. -/
theorem step_plain (tokens : List Token) (word : Option (List Piece)) {c : Char}
    (plain : isPlain c = true) :
    (⟨tokens, word, .plain⟩ : Lexer).step c =
      ⟨tokens, some (word.getD [] ++ [.char c false]), .plain⟩ := by
  have other : ∀ c' : Char, isPlain c' = false → c ≠ c' := by
    rintro c' special rfl
    rw [plain] at special
    cases special
  have no_operator : [c] ∉ operators := by
    have special : (operators.all (fun text =>
        text.length != 1 || text.all (fun c' => !isPlain c'))) = true := by decide
    intro mem
    have not_plain := List.all_eq_true.mp special [c] mem
    simp only [List.length_singleton, bne_self_eq_false, Bool.false_or, List.all_cons,
      List.all_nil, Bool.and_true, plain, Bool.not_true] at not_plain
    cases not_plain
  have no_redirection : ¬ (c = '<' ∨ c = '>') := by
    rw [not_or]
    exact ⟨other '<' (by decide), other '>' (by decide)⟩
  have no_blank : ¬ (c = ' ' ∨ c = '\t') := by
    rw [not_or]
    exact ⟨other ' ' (by decide), other '\t' (by decide)⟩
  have no_backquote : isBackquote c = false := by
    rw [isBackquote, decide_eq_false_iff_not]
    intro backquote
    exact other (Char.ofNat 96) (by decide) (by rw [← backquote, Char.ofNat_toNat])
  have no_comment : ¬ (c = '#' ∧ word = none) := fun comment => other '#' (by decide) comment.1
  simp only [Lexer.step, Lexer.plain, if_neg (other '\n' (by decide)), if_neg no_redirection,
    if_neg no_operator, if_neg no_blank, if_neg (other '\'' (by decide)),
    if_neg (other '"' (by decide)), if_neg (other '\\' (by decide)),
    if_neg (other '$' (by decide)), no_backquote, Bool.false_eq_true, if_false,
    if_neg no_comment]
  rfl

/-- A text of such characters is a piece of a word. -/
theorem spells_bare {text : List Char} (plain : ∀ c ∈ text, isPlain c = true)
    (some_text : text ≠ []) : Spells text (text.map (fun c => .char c false)) := by
  induction text with
  | nil => exact absurd rfl some_text
  | cons c text ih =>
    intro tokens word
    rw [Lexer.run_cons, step_plain tokens word (plain c List.mem_cons_self)]
    by_cases more : text = []
    · rw [more]
      rfl
    · rw [ih (fun c' mem => plain c' (List.mem_cons_of_mem _ mem)) more, Option.getD_some,
        List.append_assoc]
      rfl

namespace Lexer

@[simp] theorem endWord_mode (s : Lexer) : s.endWord.mode = s.mode := by
  unfold endWord
  split <;> rfl

/-- From a fresh word on, a text is read as from the start. -/
theorem run_behind (tokens : List Token) (text : List Char) :
    (⟨tokens, none, .plain⟩ : Lexer).run text = (new.run text).after tokens := by
  rw [← run_after]
  simp [after, new]

end Lexer

section Reads

variable {text more : List Char} {tokens tokens' : List Token}

/-- What spells a word is read as that word. -/
theorem Spells.reads {pieces : List Piece} (h : Spells text pieces) :
    Reads text [.word pieces] := by
  rw [Reads, Lexer.new, h]
  rfl

/-- A text that was read leaves nothing open. -/
theorem Reads.plain (h : Reads text tokens) : (Lexer.new.run text).mode = .plain := by
  rw [← Lexer.endWord_mode, h]

/-- What follows the end of a word. -/
theorem Reads.behind (h : Reads more tokens') {s : Lexer} (ended : s = ⟨tokens, none, .plain⟩) :
    (s.run more).endWord = ⟨tokens ++ tokens', none, .plain⟩ := by
  rw [ended, Lexer.run_behind, Lexer.endWord_after, h]
  rfl

/-- A blank sets two texts apart. -/
theorem Reads.blank (h : Reads text tokens) (h' : Reads more tokens') :
    Reads (text ++ ' ' :: more) (tokens ++ tokens') := by
  rw [Reads, Lexer.run_append, Lexer.run_cons]
  refine h'.behind ?_
  rw [Lexer.step, h.plain]
  exact congrArg (Lexer.enter · .plain) h

/-- So does a semicolon, which is a token of its own. -/
theorem Reads.semicolon (h : Reads text tokens) (h' : Reads more tokens') :
    Reads (text ++ ';' :: ' ' :: more) (tokens ++ .op [';'] :: tokens') := by
  rw [Reads, Lexer.run_append, Lexer.run_cons, Lexer.run_cons]
  have semicolon : (Lexer.new.run text).step ';' = ⟨tokens, none, .operator [';']⟩ := by
    rw [Lexer.step, h.plain]
    exact congrArg (fun s : Lexer => s.enter (.operator [';'])) h
  have ended : ((Lexer.new.run text).step ';').step ' ' =
      ⟨tokens ++ [.op [';']], none, .plain⟩ := by
    rw [semicolon]
    rfl
  rw [h'.behind ended, List.append_assoc]
  rfl

/-- A redirection to a path is its operator and the word behind it. -/
theorem Reads.redirect {pieces : List Piece} (h : Spells ('/' :: text) pieces) :
    Reads ('>' :: '/' :: text) [.op ['>'], .word pieces] := by
  have head : (Lexer.new.step '>').step '/' =
      (⟨[.op ['>']], none, .plain⟩ : Lexer).step '/' := by decide
  have target := h [.op ['>']] none
  rw [Lexer.run_cons] at target
  rw [Reads, Lexer.run_cons, Lexer.run_cons, head, target]
  rfl

/-- What is read is what the lexer gives for the text. -/
theorem Reads.lex (h : Reads text tokens) : lex (String.ofList text) = some tokens := by
  rw [Shell.lex, String.toList_ofList, Lexer.finish, h.plain]
  exact congrArg (fun s : Lexer => some s.tokens) h

/-- Texts with a blank between each two. -/
theorem Reads.intercalate {ι : Type} {spell : ι → List Char} {read : ι → List Token} {is : List ι}
    (all : ∀ i ∈ is, Reads (spell i) (read i)) (some_text : is ≠ []) :
    Reads ([' '].intercalate (is.map spell)) (is.flatMap read) := by
  induction is with
  | nil => exact absurd rfl some_text
  | cons i is ih =>
    have first := all i List.mem_cons_self
    by_cases last : is = []
    · simpa [last, List.intercalate_singleton] using first
    · have rest := ih (fun i' mem => all i' (List.mem_cons_of_mem _ mem)) last
      obtain ⟨i', is', rfl⟩ := List.exists_cons_of_ne_nil last
      simp only [List.map_cons, List.intercalate_cons_cons, List.flatMap_cons] at rest ⊢
      rw [List.append_assoc]
      exact first.blank rest

end Reads

/-! ## What is left of the quotes -/

/-- The characters of a word that stand for themselves. -/
def literals (pieces : List Piece) : List Char :=
  pieces.filterMap (fun piece => match piece with
    | .char c _ => some c
    | .expansion .. => none)

/-- The characters that a token stands for. -/
def Token.chars : Token → List Char
  | .word pieces => literals pieces
  | .ioNumber digits => digits
  | .op _ => []

/-- The digits of a number are its literal characters. -/
theorem literals_of_digits? {pieces : List Piece} {digits : List Char}
    (number : digits? pieces = some digits) : literals pieces = digits := by
  unfold digits? at number
  split at number
  · cases number
  · rename_i h
    clear h
    induction pieces generalizing digits with
    | nil =>
      cases number
      rfl
    | cons piece pieces ih =>
      rw [List.mapM_cons] at number
      obtain ⟨c, own, others⟩ := Option.bind_eq_some_iff.mp number
      obtain ⟨rest, number', eq⟩ := Option.bind_eq_some_iff.mp others
      cases eq
      rcases piece with ⟨d, _ | _⟩ | _
      · simp only at own
        split at own
        · cases own
          rw [← ih number']
          rfl
        · cases own
      · cases own
      · cases own

/-- A character that, besides the single quote, takes part in quoting. -/
def quotes (c : Char) : Bool := c = '"' || c = '\\'

/-- How many of these have been taken in that may not come out. -/
def Mode.owed : Mode → Nat
  | .plain | .operator _ | .comment | .single => 0
  | .double => 1
  | .escape quoted => if quoted then 2 else 1
  | .dollar quoted | .name _ quoted | .nested _ _ _ quoted => if quoted then 1 else 0

namespace Lexer

/-- The characters that have come out. -/
def chars (s : Lexer) : List Char := s.tokens.flatMap Token.chars ++ literals (s.word.getD [])

/-- Of `n` characters taken in that quote, no more have come out than are owed; and where all have,
no single quote has. -/
structure Balanced (s : Lexer) (n : Nat) : Prop where
  owed : s.chars.countP quotes + s.mode.owed ≤ n
  single : s.chars.countP quotes = n → '\'' ∉ s.chars

section Chars

variable (s : Lexer)

@[simp] theorem chars_enter (mode : Mode) : (s.enter mode).chars = s.chars := rfl

@[simp] theorem chars_begin : s.begin.chars = s.chars := rfl

@[simp] theorem chars_push_char (c : Char) (quoted : Bool) :
    (s.push (.char c quoted)).chars = s.chars ++ [c] := by
  simp [chars, push, literals]

@[simp] theorem chars_push_expansion (text : List Char) (quoted : Bool) :
    (s.push (.expansion text quoted)).chars = s.chars := by
  simp [chars, push, literals]

@[simp] theorem chars_emit_op (text : List Char) : (s.emit (.op text)).chars = s.chars := by
  simp [chars, emit, Token.chars]

@[simp] theorem chars_endWord : s.endWord.chars = s.chars := by
  obtain ⟨tokens, word, mode⟩ := s
  cases word <;> simp [chars, endWord, Token.chars, literals]

@[simp] theorem chars_endNumber : s.endNumber.chars = s.chars := by
  unfold endNumber
  split
  · rename_i digits own
    obtain ⟨tokens, word, mode⟩ := s
    obtain ⟨pieces, rfl, number⟩ := Option.bind_eq_some_iff.mp own
    simp only [chars, List.flatMap_append, List.flatMap_singleton, Token.chars, Option.getD_some,
      Option.getD_none, List.append_assoc, literals_of_digits? number]
    simp [literals]
  · exact chars_endWord s

end Chars

section Balance

variable {s s' : Lexer} {n : Nat} {c : Char}

/-- The character comes out of a step, or not; `more` says that it may as well not have. -/
theorem Balanced.out (h : s.Balanced n) (chars : s'.chars = s.chars ++ [c])
    (owed : s'.mode.owed ≤ s.mode.owed)
    (plain : c = '\'' → s.chars.countP quotes < n) :
    s'.Balanced (n + if quotes c then 1 else 0) := by
  have bound := h.owed
  refine ⟨?_, ?_⟩
  · rw [chars, List.countP_append, List.countP_singleton]
    omega
  · rw [chars, List.countP_append, List.countP_singleton]
    intro eq mem
    rcases List.mem_append.mp mem with old | new
    · exact h.single (by omega) old
    · have := plain (List.mem_singleton.mp new).symm
      omega

/-- No character comes out of a step, and one that quotes may have been taken in. -/
theorem Balanced.hold (h : s.Balanced n) (chars : s'.chars = s.chars)
    (owed : s'.mode.owed ≤ s.mode.owed + if quotes c then 1 else 0) :
    s'.Balanced (n + if quotes c then 1 else 0) := by
  have bound := h.owed
  refine ⟨?_, ?_⟩
  · rw [chars]
    omega
  · rw [chars]
    intro eq
    exact h.single (by omega)

/-- A step that adds no character and opens no quotation keeps the count. -/
theorem Balanced.same (h : s.Balanced n) (chars : s'.chars = s.chars)
    (owed : s'.mode.owed ≤ s.mode.owed) : s'.Balanced n where
  owed := by
    rw [chars]
    exact Nat.le_trans (Nat.add_le_add_left owed _) h.owed
  single := by
    rw [chars]
    exact h.single

/-- A character outside of quotes counts if it is a quote. -/
theorem Balanced.plain (h : s.Balanced n) :
    (s.plain c).Balanced (n + if quotes c then 1 else 0) := by
  unfold Lexer.plain
  by_cases line : c = '\n'
  · rw [if_pos line]
    exact h.hold (by simp) (Nat.zero_le _)
  rw [if_neg line]
  by_cases redirect : c = '<' ∨ c = '>'
  · rw [if_pos redirect]
    exact h.hold (by simp) (Nat.zero_le _)
  rw [if_neg redirect]
  by_cases operator : [c] ∈ operators
  · rw [if_pos operator]
    exact h.hold (by simp) (Nat.zero_le _)
  rw [if_neg operator]
  by_cases blank : c = ' ' ∨ c = '\t'
  · rw [if_pos blank]
    exact h.hold (by simp) (Nat.zero_le _)
  rw [if_neg blank]
  by_cases single : c = '\''
  · rw [if_pos single]
    exact h.hold (by simp) (Nat.zero_le _)
  rw [if_neg single]
  by_cases double : c = '"'
  · subst double
    exact h.hold rfl (Nat.le_add_left _ _)
  rw [if_neg double]
  by_cases escape : c = '\\'
  · subst escape
    exact h.hold rfl (Nat.le_add_left _ _)
  rw [if_neg escape]
  by_cases dollar : c = '$'
  · rw [if_pos dollar]
    exact h.hold (by simp) (Nat.zero_le _)
  rw [if_neg dollar]
  by_cases backquote : isBackquote c
  · rw [if_pos backquote]
    exact h.hold (by simp) (Nat.zero_le _)
  rw [if_neg backquote]
  by_cases comment : c = '#' ∧ s.word = none
  · rw [if_pos comment]
    exact h.hold (by simp) (Nat.zero_le _)
  rw [if_neg comment]
  exact h.out (by simp) (Nat.zero_le _) (fun eq => absurd eq single)

/-- So does one inside. -/
theorem Balanced.double (h : s.Balanced n) (inside : 1 ≤ s.mode.owed) :
    (s.double c).Balanced (n + if quotes c then 1 else 0) := by
  unfold Lexer.double
  by_cases close : c = '"'
  · rw [if_pos close]
    exact h.hold (by simp) (Nat.zero_le _)
  rw [if_neg close]
  by_cases escape : c = '\\'
  · subst escape
    exact h.hold rfl (Nat.add_le_add_right inside 1)
  rw [if_neg escape]
  by_cases dollar : c = '$'
  · rw [if_pos dollar]
    exact h.hold rfl (Nat.le_add_right_of_le inside)
  rw [if_neg dollar]
  by_cases backquote : isBackquote c
  · rw [if_pos backquote]
    exact h.hold rfl (Nat.le_add_right_of_le inside)
  rw [if_neg backquote]
  have := h.owed
  exact h.out (by simp) inside (fun _ => by omega)

/-- So does one behind an expansion, wherever that is. -/
theorem Balanced.around {quoted : Bool} (h : s.Balanced n)
    (inside : s.mode.owed = if quoted then 1 else 0) :
    (s.around quoted c).Balanced (n + if quotes c then 1 else 0) := by
  cases quoted with
  | true => exact h.double (Nat.le_of_eq inside.symm)
  | false => exact h.plain

theorem owed_around (quoted : Bool) : (Mode.around quoted).owed = if quoted then 1 else 0 := by
  cases quoted <;> rfl

/-- Behind a backslash between double quotes a character that does not need it comes out with
it. -/
theorem Balanced.escape (h : s.Balanced n) (owed : s.mode.owed = 2) (other : quotes c = false) :
    (((s.push (.char '\\' true)).push (.char c true)).enter .double).Balanced n := by
  have bound := h.owed
  refine ⟨?_, ?_⟩
  · simp only [chars_enter, chars_push_char, List.countP_append, List.countP_singleton, other]
    simp only [quotes, enter, Mode.owed]
    simp
    omega
  · simp only [chars_enter, chars_push_char, List.countP_append, List.countP_singleton, other]
    simp [quotes]
    omega

/-- Each character adds to the count what it is. -/
theorem Balanced.step (h : s.Balanced n) : (s.step c).Balanced (n + if quotes c then 1 else 0) := by
  have bound := h.owed
  unfold Lexer.step
  cases mode : s.mode with
  | plain => exact h.plain
  | double => exact h.double (by rw [mode]; exact Nat.le_refl 1)
  | operator text =>
    simp only
    split
    · exact h.hold rfl (Nat.zero_le _)
    · have emitted : (s.emit (.op text)).Balanced n := h.same (by simp) (Nat.le_refl _)
      exact emitted.plain
  | comment =>
    simp only
    split
    · exact h.plain
    · exact h.hold rfl (Nat.le_add_right _ _)
  | single =>
    simp only
    split
    · exact h.hold rfl (Nat.zero_le _)
    · rename_i other
      exact h.out (by simp) (Nat.le_refl _) (fun eq => absurd eq other)
  | escape quoted =>
    rw [mode] at bound
    cases quoted with
    | false =>
      simp only
      split
      · exact h.hold rfl (Nat.zero_le _)
      · exact h.out (by simp) (Nat.zero_le _) (fun _ => Nat.lt_of_succ_le bound)
    | true =>
      have inside : 1 ≤ s.mode.owed := by rw [mode]; exact Nat.le_succ 1
      simp only
      split
      · exact h.hold rfl (Nat.le_add_right_of_le inside)
      · split
        · exact h.out (by simp) inside (fun _ => Nat.lt_of_succ_le (Nat.le_of_succ_le bound))
        · rename_i other
          have plain : quotes c = false := by
            simp only [quotes, Bool.or_eq_false_iff, decide_eq_false_iff_not]
            exact ⟨fun eq => other (.inr (.inl eq)), fun eq => other (.inr (.inr (.inl eq)))⟩
          rw [plain]
          exact h.escape (by rw [mode]; rfl) plain
  | dollar quoted =>
    have owed : s.mode.owed = if quoted then 1 else 0 := by rw [mode]; rfl
    simp only
    split
    · exact h.hold rfl (Nat.le_add_right_of_le (Nat.le_of_eq owed.symm))
    split
    · exact h.hold rfl (Nat.le_add_right_of_le (Nat.le_of_eq owed.symm))
    split
    · exact h.hold rfl (Nat.le_add_right_of_le (Nat.le_of_eq owed.symm))
    split
    · exact h.hold (by simp)
        (Nat.le_add_right_of_le (Nat.le_of_eq ((owed_around quoted).trans owed.symm)))
    · have dollar : (s.push (.char '$' quoted)).Balanced n :=
        h.out (c := '$') (by simp) (Nat.le_refl _) (fun eq => absurd eq (by decide))
      exact dollar.around owed
  | name text quoted =>
    have owed : s.mode.owed = if quoted then 1 else 0 := by rw [mode]; rfl
    simp only
    split
    · exact h.hold rfl (Nat.le_add_right_of_le (Nat.le_of_eq owed.symm))
    · have pushed : (s.push (.expansion text quoted)).Balanced n :=
        h.same (by simp) (Nat.le_refl _)
      exact pushed.around owed
  | nested text open_ escaped quoted =>
    have owed : s.mode.owed = if quoted then 1 else 0 := by rw [mode]; rfl
    simp only
    split
    · exact h.hold (by simp)
        (Nat.le_add_right_of_le (Nat.le_of_eq ((owed_around quoted).trans owed.symm)))
    · exact h.hold rfl (Nat.le_add_right_of_le (Nat.le_of_eq owed.symm))

/-- A text adds the number of its quotes. -/
theorem Balanced.run (text : List Char) :
    ∀ {s n}, Balanced s n → (s.run text).Balanced (n + text.countP quotes) := by
  induction text with
  | nil => exact fun h => h
  | cons c text ih =>
    intro s n h
    rw [run_cons, List.countP_cons, Nat.add_comm (text.countP quotes), ← Nat.add_assoc]
    exact ih h.step

/-- The tokens have the characters of the lexer once the word is ended. -/
theorem endWord_tokens (s : Lexer) : s.endWord.tokens.flatMap Token.chars = s.chars := by
  obtain ⟨tokens, word, mode⟩ := s
  cases word <;> simp [chars, endWord, Token.chars, literals]

/-- At the end the tokens have no other characters than those read, but for a dollar sign. -/
theorem finish_tokens {tokens : List Token} (done : s.finish = some tokens) :
    tokens.flatMap Token.chars <+: s.chars ++ ['$'] := by
  unfold finish at done
  split at done
  · cases done
    rw [endWord_tokens]
    exact List.prefix_append _ _
  · cases done
    rw [endWord_tokens]
    exact List.prefix_append _ _
  · cases done
    simp only [emit, List.flatMap_append, List.flatMap_singleton, Token.chars, List.append_nil, chars,
      List.append_assoc]
    exact List.prefix_append _ _
  · cases done
    exact ⟨[], by rw [List.append_nil, endWord_tokens, chars_push_char]⟩
  · cases done
    rw [endWord_tokens, chars_push_expansion]
    exact List.prefix_append _ _
  · cases done

/-- Where all of the characters that quote have come out at the end, no single quote has. -/
theorem Balanced.finish (h : s.Balanced n) {tokens : List Token} (done : s.finish = some tokens)
    (all : (tokens.flatMap Token.chars).countP quotes = n) :
    '\'' ∉ tokens.flatMap Token.chars := by
  obtain ⟨rest, eq⟩ := finish_tokens done
  have counts := congrArg (List.countP quotes) eq
  rw [List.countP_append, List.countP_append, all] at counts
  have bound := h.owed
  have plain : ['$'].countP quotes = 0 := rfl
  intro mem
  have mem : '\'' ∈ s.chars ++ ['$'] := eq ▸ List.mem_append_left rest mem
  rcases List.mem_append.mp mem with mem | mem
  · exact h.single (by omega) mem
  · exact absurd mem (by decide)

end Balance

end Lexer

end VsFleet.Shell
