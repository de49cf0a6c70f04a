import VsFleet.Extension.Shim
import VsFleet.Host.ClaudeShim
import VsFleet.Misc.Shell

/-!
# The paths in generated shell commands

Every command and script quotes the paths it is built from, and the shell reads them back as they
are; but the hooks of a spawned server put the quotes around the path as it stands, and a path with
a quote of its own comes out of them.
-/

namespace VsFleet

open Shell

/-! ## What the shell is to read -/

/-- The tokens of a relay: the payload of the hook goes to the socket, whatever comes of it. -/
def relayTokens (path : String) : List Token :=
  [.word (bare "printf"), .word (quoted "claude %s\\n"),
    .word [.expansion "$(cat | tr -d '\\r\\n')".toList true], .op ['|'],
    .word (bare "nc"), .word (bare "-U"), .word (quoted path),
    .ioNumber ['2'], .op ['>'], .word (bare "/dev/null"), .op ['|', '|'], .word (bare "true")]

/-- The shell passes the path to `nc -U` as one word, and runs nothing but the relay. -/
def Relays (command path : String) : Prop := lex command = some (relayTokens path)

/-- The commands it runs, and with them those of the payload. -/
theorem Relays.commands {command path : String} (h : Relays command path) :
    (lex command).map commands = some
      [[bare "printf", quoted "claude %s\\n",
          [.expansion "$(cat | tr -d '\\r\\n')".toList true]],
        [bare "nc", bare "-U", quoted path],
        [bare "true"]] := by
  rw [h]
  rfl

example : (lex "cat | tr -d '\\r\\n'").map Shell.commands =
    some [[bare "cat"], [bare "tr", bare "-d", quoted "\\r\\n"]] := by
  decide +kernel

/-- The tokens of the shim script up to the shim dir: its comments. -/
def shimHead : List Token := List.replicate 5 (.op ['\n'])

/-- Its tokens between the shim dir and the first `exec`. -/
def shimBody : List Token :=
  let newline : Token := .op ['\n']
  let semicolon : Token := .op [';']
  let var (name : String) : Token := .word [.expansion name.toList true]
  [.word (bare "clean_path="), newline,
    .word (bare "saved_ifs=" ++ [.expansion "$IFS".toList false]), newline,
    .word (bare "IFS=:"), newline,
    .word (bare "for"), .word (bare "dir"), .word (bare "in"),
    .word [.expansion "$PATH".toList false], semicolon, .word (bare "do"), newline,
    .word (bare "["), .word (bare "-n"), var "$dir", .word (bare "]"), .op ['|', '|'],
    .word (bare "continue"), newline,
    .word (bare "["), var "$dir", .word (bare "="), var "$fleet_shim_dir", .word (bare "]"),
    .op ['&', '&'], .word (bare "continue"), newline,
    .word (bare "if"), .word (bare "["), .word (bare "-z"), var "$clean_path", .word (bare "]"),
    semicolon, .word (bare "then"), newline,
    .word (bare "clean_path=" ++ [.expansion "$dir".toList true]), newline,
    .word (bare "else"), newline,
    .word (bare "clean_path=" ++ [.expansion "$clean_path".toList true, .char ':' true,
      .expansion "$dir".toList true]), newline,
    .word (bare "fi"), newline,
    .word (bare "done"), newline,
    .word (bare "IFS=" ++ [.expansion "$saved_ifs".toList false]), newline,
    .word (bare "PATH=" ++ [.expansion "$clean_path".toList true]), newline,
    .word (bare "export"), .word (bare "PATH"), newline, newline,
    .word (bare "if"), .word (bare "["), var "$\x7bFLEET_CLAUDE_SHIM_ACTIVE:-\x7d",
    .word (bare "="), .word (quoted "1"), .word (bare "]"), semicolon, .word (bare "then"), newline,
    .word (bare "exec")]

/-- Its tokens between the two `exec`. -/
def shimTail : List Token :=
  [.word [.expansion "$@".toList true], .op ['\n'], .word (bare "fi"), .op ['\n'],
    .word (bare "export"), .word (bare "FLEET_CLAUDE_SHIM_ACTIVE=1"), .op ['\n'],
    .word (bare "exec")]

/-- The tokens of the shim script: the paths are words that stand for themselves, that of the shim
dir as the value of an assignment. -/
def shimTokens (real hooksFile shimDir : String) : List Token :=
  shimHead ++ .word (bare "fleet_shim_dir=" ++ quoted shimDir) :: .op ['\n'] :: shimBody ++
    .word (quoted real) :: shimTail ++ .word (quoted real) :: .word (bare "--settings") ::
    .word (quoted hooksFile) :: [.word [.expansion "$@".toList true], .op ['\n']]

/-- The commands of a group of hooks. -/
def groupCommands (group : Json) : List String :=
  match group.get? "hooks" with
  | some (.array hooks) => hooks.filterMap (fun hook => (hook.get? "command").bind Json.asString)
  | _ => []

/-- The commands of a settings document. -/
def settingsCommands (settings : Json) : List String :=
  match settings.get? "hooks" with
  | some (.object events) => events.flatMap (fun event => match event.2 with
    | .array groups => groups.flatMap groupCommands
    | _ => [])
  | _ => []

/-- Every hook command relays to the socket, and the shim script has the paths it is given. -/
structure QuotesPaths (socket real hooksFile shimDir : String) : Prop where
  cli : ∀ command ∈ (buildClaudeHooks socket).flatMap (fun event => groupCommands event.2),
    Relays command socket
  host : ∀ command ∈ settingsCommands (claudeHooksSettings socket), Relays command socket
  extension : ∀ command ∈ settingsCommands (Extension.claudeHooksSettings socket),
    Relays command socket
  shim : lex (claudeShimScript real hooksFile shimDir) = some (shimTokens real hooksFile shimDir)

/-! ## Quoted paths -/

theorem shQuote_toList (path : String) : (shQuote path).toList = quote path.toList := by
  have inner : ∀ c : Char, (if c = '\'' then "'\\''" else c.toString).toList =
      if c = '\'' then ['\'', '\\', '\'', '\''] else [c] := by
    intro c
    split <;> simp
  unfold shQuote quote
  simp only [String.toList_append, String.toList_join, List.flatMap_map, inner]
  rfl

/-- The text of a relay in front of the socket. -/
def relayHead : String := "printf 'claude %s\\n' \"$(cat | tr -d '\\r\\n')\" | nc -U "

/-- Its text behind the socket. -/
def relayRest : String := "2>/dev/null || true"

theorem run_relayHead : Lexer.new.run relayHead.toList =
    ⟨(relayTokens "").take 6, none, .plain⟩ := by
  unfold relayHead
  rw [show String.toList _ = _ from String.toList_ofList]
  decide +kernel

theorem lex_relayRest :
    (Lexer.new.run relayRest.toList).finish = some ((relayTokens "").drop 7) := by
  decide +kernel

/-- A relay of which the shell reads the socket as a word that stands for the path. -/
theorem relays_of_run {socket path : String}
    (word : (⟨(relayTokens "").take 6, none, .plain⟩ : Lexer).run socket.toList =
      ⟨(relayTokens "").take 6, some (quoted path), .plain⟩) :
    Relays (relayHead ++ socket ++ " " ++ relayRest) path := by
  have blank : " ".toList = [' '] := rfl
  unfold Relays lex
  simp only [String.toList_append, Lexer.run_append, run_relayHead, word, blank]
  rw [← Lexer.run_append, List.singleton_append, Lexer.run_blank, Lexer.finish_after, lex_relayRest]
  rfl

theorem relays_shQuote (path : String) :
    Relays (relayHead ++ shQuote path ++ " " ++ relayRest) path := by
  apply relays_of_run
  rw [shQuote_toList, Lexer.run_quote]
  rfl

theorem hookRelayCommand_eq (path : String) :
    Extension.hookRelayCommand path = relayHead ++ shQuote path ++ " " ++ relayRest := by
  have rest : " 2>/dev/null || true" = " " ++ relayRest := rfl
  unfold Extension.hookRelayCommand
  rw [rest, ← String.append_assoc]
  rfl

/-- The commands of the hooks that `fleet init` writes. -/
theorem buildClaudeHooks_commands (socket : String) :
    (buildClaudeHooks socket).flatMap (fun event => groupCommands event.2) =
      List.replicate 5 (Extension.hookRelayCommand socket) := rfl

/-- Those of the hooks of a window. -/
theorem extension_commands (socket : String) :
    settingsCommands (Extension.claudeHooksSettings socket) =
      List.replicate 5 (Extension.hookRelayCommand socket) := rfl

/-- Those of the hooks of a spawned server. -/
theorem host_commands (socket : String) : settingsCommands (claudeHooksSettings socket) =
    List.replicate 6 (relayHead ++ ("'" ++ socket ++ "'") ++ " " ++ relayRest) := by
  have text : "printf 'claude %s\\n' \"$(cat | tr -d '\\r\\n')\" | nc -U '" ++ socket ++
      "' 2>/dev/null || true" = relayHead ++ ("'" ++ socket ++ "'") ++ " " ++ relayRest := by
    have head : "printf 'claude %s\\n' \"$(cat | tr -d '\\r\\n')\" | nc -U '" = relayHead ++ "'" :=
      rfl
    have rest : "' 2>/dev/null || true" = "'" ++ (" " ++ relayRest) := rfl
    rw [head, rest]
    simp only [String.append_assoc]
  rw [← text]
  rfl

/-! ## The path as it stands between quotes -/

theorem run_relayHead_quote : Lexer.new.run (relayHead ++ "'").toList =
    ⟨(relayTokens "").take 6, some [], .single⟩ := by
  rw [String.toList_append, Lexer.run_append, run_relayHead]
  rfl

/-- The characters that come out of a relay are those of the path, and of the fixed words. -/
theorem relayTokens_chars (path : String) : (relayTokens path).flatMap Token.chars =
    "printfclaude %s\\nnc-U".toList ++ path.toList ++ "2/dev/nulltrue".toList := by
  have own : Token.chars (.word (quoted path)) = path.toList := by
    simp [Token.chars, literals, quoted]
  simp only [relayTokens, List.flatMap_cons, List.flatMap_nil, own]
  rfl

/-- Between quotes as it stands a path without a quote is read as it is. -/
theorem relays_of_notMem {path : String} (plain : '\'' ∉ path.toList) :
    Relays (relayHead ++ ("'" ++ path ++ "'") ++ " " ++ relayRest) path := by
  apply relays_of_run
  have open_ : "'".toList = ['\''] := rfl
  simp only [String.toList_append, open_, Lexer.run_append]
  have first : (⟨(relayTokens "").take 6, none, .plain⟩ : Lexer).run ['\''] =
      ⟨(relayTokens "").take 6, some [], .single⟩ := rfl
  rw [first, Lexer.run_single _ plain]
  rfl

/-- A path with a quote is not: the quote would have to be escaped, or to stand between double
quotes, and the backslash or the double quotes would be lost. -/
theorem not_relays_of_mem {path : String} (quoted : '\'' ∈ path.toList) :
    ¬ Relays (relayHead ++ ("'" ++ path ++ "'") ++ " " ++ relayRest) path := by
  intro relays
  have start : (Lexer.new.run (relayHead ++ "'").toList).Balanced 1 := by
    rw [run_relayHead_quote]
    exact ⟨by decide, fun _ => by decide⟩
  have text : (relayHead ++ ("'" ++ path ++ "'") ++ " " ++ relayRest).toList =
      (relayHead ++ "'").toList ++ (path.toList ++ ("'" ++ " " ++ relayRest).toList) := by
    simp only [String.toList_append, List.append_assoc]
  have balanced := start.run (path.toList ++ ("'" ++ " " ++ relayRest).toList)
  rw [← Lexer.run_append, ← text] at balanced
  have none := balanced.finish relays (by
    rw [relayTokens_chars, List.countP_append, List.countP_append, List.countP_append]
    have before : "printfclaude %s\\nnc-U".toList.countP quotes = 1 := by decide
    have behind : "2/dev/nulltrue".toList.countP quotes = 0 := by decide
    have rest : ("'" ++ " " ++ relayRest).toList.countP quotes = 0 := by decide
    omega)
  rw [relayTokens_chars] at none
  exact none (List.mem_append_left _ (List.mem_append_right _ quoted))

/-! ## The shim script -/

theorem run_shimScriptHead : Lexer.new.run shimScriptHead.toList =
    ⟨shimHead, some (bare "fleet_shim_dir="), .plain⟩ := by
  unfold shimScriptHead
  simp only [String.toList_append]
  repeat rw [show String.toList _ = _ from String.toList_ofList]
  decide +kernel

theorem run_shimScriptBody :
    Lexer.new.run shimScriptBody.toList = ⟨shimBody, none, .plain⟩ := by
  unfold shimScriptBody
  simp only [String.toList_append]
  repeat rw [show String.toList _ = _ from String.toList_ofList]
  decide +kernel

theorem run_shimScriptTail :
    Lexer.new.run shimScriptTail.toList = ⟨shimTail, none, .plain⟩ := by
  unfold shimScriptTail
  simp only [String.toList_append]
  repeat rw [show String.toList _ = _ from String.toList_ofList]
  decide +kernel

theorem run_settings :
    Lexer.new.run "--settings ".toList = ⟨[.word (bare "--settings")], none, .plain⟩ := by
  decide +kernel

theorem run_arguments : (Lexer.new.run "\"$@\"\n".toList).finish =
    some [.word [.expansion "$@".toList true], .op ['\n']] := by
  decide +kernel

theorem run_shq (tokens : List Token) (word : Option (List Piece)) (path : String) :
    (⟨tokens, word, .plain⟩ : Lexer).run (shq path).toList =
      ⟨tokens, some (word.getD [] ++ quoted path), .plain⟩ := by
  rw [shq, shQuote_toList, Lexer.run_quote]
  rfl

theorem lex_claudeShimScript (real hooksFile shimDir : String) :
    lex (claudeShimScript real hooksFile shimDir) = some (shimTokens real hooksFile shimDir) := by
  have newline : "\n".toList = ['\n'] := rfl
  have blank : " ".toList = [' '] := rfl
  unfold lex claudeShimScript
  simp only [String.toList_append, List.append_assoc]
  rw [Lexer.run_append, run_shimScriptHead, Lexer.run_append, run_shq, newline,
    List.singleton_append, Lexer.run_newline, Lexer.finish_after]
  rw [Lexer.run_append, run_shimScriptBody, Lexer.run_append, run_shq, blank,
    List.singleton_append, Lexer.run_blank, Lexer.finish_after]
  rw [Lexer.run_append, run_shimScriptTail, Lexer.run_append, run_shq, List.singleton_append,
    Lexer.run_blank, Lexer.finish_after]
  rw [Lexer.run_append, run_settings, Lexer.run_append, run_shq, List.singleton_append,
    Lexer.run_blank, Lexer.finish_after, run_arguments]
  rfl

/-! ## All of them -/

/-- Every generated command has its paths just where the socket has no quote. -/
theorem quotesPaths_iff (socket real hooksFile shimDir : String) :
    QuotesPaths socket real hooksFile shimDir ↔ '\'' ∉ socket.toList := by
  have mem : relayHead ++ ("'" ++ socket ++ "'") ++ " " ++ relayRest ∈
      settingsCommands (claudeHooksSettings socket) := by
    rw [host_commands]
    exact List.mem_replicate.mpr ⟨by decide, rfl⟩
  have relays : ∀ {command n}, command ∈ List.replicate n (Extension.hookRelayCommand socket) →
      Relays command socket := by
    intro command n mem
    rw [List.eq_of_mem_replicate mem, hookRelayCommand_eq]
    exact relays_shQuote socket
  constructor
  · intro quotes quoted
    exact not_relays_of_mem quoted (quotes.host _ mem)
  · intro plain
    refine ⟨fun command mem => ?_, fun command mem => ?_, fun command mem => ?_,
      lex_claudeShimScript real hooksFile shimDir⟩
    · rw [buildClaudeHooks_commands] at mem
      exact relays mem
    · rw [host_commands] at mem
      rw [List.eq_of_mem_replicate mem]
      exact relays_of_notMem plain
    · rw [extension_commands] at mem
      exact relays mem

/-- A quote in the path of the socket ends it, and what follows is run. -/
theorem quoteInSocket_runs :
    ¬ QuotesPaths "/tmp/x'; touch y; '" "/usr/bin/claude" "/tmp/h.json" "/tmp/shim" := by
  intro quotes
  have relays := quotes.host _ (by
    rw [host_commands]
    exact List.mem_replicate.mpr ⟨by decide, rfl⟩)
  exact absurd relays (by unfold Relays; decide +kernel)

end VsFleet
