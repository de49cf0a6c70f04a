import VsFleet.Host.Proofs.ShellQuoting
import VsFleet.Host.RemoteCommand

/-!
# What runs on the other machine

The shell there reads back the words of the command as they were put in, whatever is in the label,
the token, the repository and the programs; so it runs what it is to run, and the editor gets the
variables of a spawned server.
-/

namespace VsFleet

open Shell

/-! ## Ids -/

theorem isAlphanum_of_mem_toDigits (n : Nat) : ∀ c ∈ Nat.toDigits 16 n, c.isAlphanum = true := by
  have digit : ∀ d : Fin 16, (Nat.digitChar d).isAlphanum = true := by decide
  induction n using Nat.strong_induction_on with
  | _ n ih =>
    intro c mem
    rw [Nat.toDigits_eq_if (by decide)] at mem
    split at mem
    · rename_i small
      rw [List.mem_singleton.mp mem]
      exact digit ⟨n, small⟩
    · rcases List.mem_append.mp mem with high | low
      · exact ih (n / 16) (by omega) c high
      · rw [List.mem_singleton.mp low]
        exact digit ⟨n % 16, by omega⟩

theorem isPlain_toString (n : Nat) : ∀ c ∈ (toString n).toList, isPlain c = true := by
  intro c mem
  have digit : c.isDigit = true := by
    refine Nat.isDigit_of_mem_toDigits (b := 10) (n := n) (by decide) (by decide) ?_
    simpa using mem
  simp [isPlain, Char.isAlphanum, digit]

/-- The id of a spawned server means nothing to the shell. -/
theorem isPlain_serverId (pid nanos n : Nat) :
    ∀ c ∈ (ServerSupervisor.serverId (launchId pid nanos) n).toList, isPlain c = true := by
  intro c mem
  have fixed : "server-".toList.all isPlain = true := by decide +kernel
  have hex : ∀ m, c ∈ Nat.toDigits 16 m → isPlain c = true := by
    intro m mem
    simp [isPlain, isAlphanum_of_mem_toDigits m c mem]
  simp only [ServerSupervisor.serverId, launchId, String.toList_append, String.toList_ofList,
    List.mem_append, or_assoc] at mem
  rcases mem with mem | mem | mem | mem | mem | mem
  · exact List.all_eq_true.mp fixed c mem
  · exact hex pid mem
  · rw [List.mem_singleton.mp mem]
    decide
  · exact hex nanos mem
  · rw [List.mem_singleton.mp mem]
    decide
  · exact isPlain_toString n c mem

/-! ## What the shell is to read -/

/-- An assignment as a word. -/
def assignment (v : String × String) : List Piece := bare (v.1 ++ "=") ++ quoted v.2

/-- The tokens that prepare the workspace. -/
def workspaceTokens (id : String) (spawnRepo : Option String) : List Token :=
  let remoteWs := ".fleet/ws-" ++ id
  let make : List Token := [.word (bare "mkdir"), .word (bare "-p"), .word (quoted remoteWs)]
  match spawnRepo.filter (fun spec : String => trim spec.toList ≠ []) with
  | some spec =>
    [.word (bare "git"), .word (bare "clone"), .word (bare "--depth"), .word (bare "1"),
      .word (quoted (resolveRepo spec)), .word (quoted remoteWs), .ioNumber ['2'], .op ['>'],
      .word (bare "/dev/null"), .op ['|', '|']] ++ make
  | none => make

/-- The tokens that start the reporter. -/
def reporterTokens (id : String) (rHub : UInt16) (remoteReporter : String) : List Token :=
  [.word (quoted remoteReporter), .word (bare "--serve"), .word (bare "--ws"),
    .word (bare ("ws://127.0.0.1:" ++ toString rHub.toNat)), .word (bare "--socket"),
    .word (quoted ("/tmp/fleet-reporter-" ++ id ++ ".sock")), .word (bare "--session-id"),
    .word (bare id), .op ['>'], .word (bare ("/tmp/fleet-rep-" ++ id ++ ".log")), .ioNumber ['2'],
    .op ['>', '&'], .word (bare "1"), .op ['&'],
    .word (bare "RPID=" ++ [.expansion "$!".toList false])]

/-- The words of the editor, with its variables. -/
def editorWords (id label : String) (rCs rBridge : UInt16) (bridgeToken remoteEditor : String) :
    List (List Piece) :=
  bare "env" :: ((remoteEnv id label rCs rBridge bridgeToken).map assignment ++
    quoted remoteEditor :: (remoteArgs id rCs).map quoted)

/-- The tokens of the command. -/
def remoteTokens (id label : String) (rCs rHub rBridge : UInt16)
    (bridgeToken remoteEditor remoteReporter : String) (spawnRepo : Option String) : List Token :=
  [.op [';']].intercalate [
    workspaceTokens id spawnRepo,
    [.word (bare "mkdir"), .word (bare "-p"), .word (quoted (".fleet/cs-userdata-" ++ id)),
      .ioNumber ['2'], .op ['>'], .word (bare "/dev/null")],
    [.word (bare "rm"), .word (bare "-f"),
      .word (quoted ("/tmp/fleet-reporter-" ++ id ++ ".sock"))],
    reporterTokens id rHub remoteReporter,
    [.word (bare "trap"), .word (quoted "kill $RPID 2>/dev/null"), .word (bare "EXIT"),
      .word (bare "INT"), .word (bare "TERM")],
    (editorWords id label rCs rBridge bridgeToken remoteEditor).map .word,
    [.word (bare "kill"), .word [.expansion "$RPID".toList false], .ioNumber ['2'], .op ['>'],
      .word (bare "/dev/null")]]

/-! ## The words -/

theorem spells_shq (text : String) : Spells (shq text).toList (quoted text) := by
  rw [shq, shQuote_toList]
  exact spells_quote text.toList

theorem reads_shq (text : String) : Reads (shq text).toList [.word (quoted text)] :=
  (spells_shq text).reads

theorem spells_plain {text : String} (plain : ∀ c ∈ text.toList, isPlain c = true)
    (some_text : text ≠ "") : Spells text.toList (bare text) :=
  spells_bare plain (mt String.toList_eq_nil_iff.mp some_text)

theorem spells_fixed (text : String)
    (plain : (text.toList.all isPlain && !text.toList.isEmpty) = true) :
    Spells text.toList (bare text) := by
  rw [Bool.and_eq_true, List.all_eq_true, Bool.not_eq_true', List.isEmpty_eq_false_iff] at plain
  exact spells_bare plain.1 plain.2

theorem bare_append (text more : String) : bare (text ++ more) = bare text ++ bare more := by
  simp [bare]

section Strings

variable {text more : String} {tokens tokens' : List Token}

theorem reads_blank (h : Reads text.toList tokens) (h' : Reads more.toList tokens') :
    Reads (text ++ " " ++ more).toList (tokens ++ tokens') := by
  rw [String.append_assoc, String.toList_append, String.toList_append]
  exact h.blank h'

theorem reads_semicolon (h : Reads text.toList tokens) (h' : Reads more.toList tokens') :
    Reads (text ++ "; " ++ more).toList (tokens ++ .op [';'] :: tokens') := by
  rw [String.append_assoc, String.toList_append, String.toList_append]
  exact h.semicolon h'

end Strings

/-- What prepares the workspace, in front of its semicolon. -/
theorem reads_wsPrep (id : String) (spawnRepo : Option String) :
    ∃ text, wsPrep (".fleet/ws-" ++ id) spawnRepo = text ++ ";" ∧
      Reads text.toList (workspaceTokens id spawnRepo) := by
  have mkdir : Reads "mkdir -p".toList [.word (bare "mkdir"), .word (bare "-p")] := by
    decide +kernel
  have clone : Reads "git clone --depth 1".toList [.word (bare "git"), .word (bare "clone"),
      .word (bare "--depth"), .word (bare "1")] := by decide +kernel
  have or : Reads "2>/dev/null || mkdir -p".toList [.ioNumber ['2'], .op ['>'],
      .word (bare "/dev/null"), .op ['|', '|'], .word (bare "mkdir"), .word (bare "-p")] := by
    decide +kernel
  have ws := reads_shq (".fleet/ws-" ++ id)
  unfold wsPrep workspaceTokens
  generalize spawnRepo.filter (fun spec : String => trim spec.toList ≠ []) = repo
  cases repo with
  | none =>
    have first : "mkdir -p " = "mkdir -p" ++ " " := by decide +kernel
    exact ⟨_, by rw [first], reads_blank mkdir ws⟩
  | some spec =>
    have all := reads_blank (reads_blank clone (reads_shq (resolveRepo spec)))
      (reads_blank ws (reads_blank or ws))
    simp only [List.cons_append, List.nil_append] at all
    refine ⟨_, ?_, all⟩
    have first : "git clone --depth 1 " = "git clone --depth 1" ++ " " := by decide +kernel
    have middle : " 2>/dev/null || mkdir -p " = " " ++ ("2>/dev/null || mkdir -p" ++ " ") := by
      decide +kernel
    simp only [first, middle, String.append_assoc]

/-- Texts with a blank between each two, each a word. -/
theorem reads_words {ι : Type} {spell : ι → String} {read : ι → List Piece} {is : List ι}
    (all : ∀ i ∈ is, Spells (spell i).toList (read i)) (some_text : is ≠ []) :
    Reads (" ".intercalate (is.map spell)).toList (is.map (fun i => .word (read i))) := by
  have each : ∀ i ∈ is, Reads ((fun i => (spell i).toList) i) [.word (read i)] :=
    fun i mem => (all i mem).reads
  have joined := Reads.intercalate each some_text
  rw [← List.map_eq_flatMap] at joined
  rw [String.toList_intercalate, List.map_map]
  exact joined

/-- The names of the variables. -/
theorem names_remoteEnv (id label : String) (rCs rBridge : UInt16) (bridgeToken : String) :
    (remoteEnv id label rCs rBridge bridgeToken).map Prod.fst =
      ["FLEET_REPORTER_SOCKET", "FLEET_SESSION_ID", "FLEET_BRIDGE_URL", "FLEET_BRIDGE_TOKEN",
        "FLEET_BRIDGE_LOG_DIR", "FLEET_SERVER_ID", "FLEET_SERVER_LABEL", "FLEET_SERVER_URL"] := rfl

theorem spells_assignment {id label : String} {rCs rBridge : UInt16} {bridgeToken : String} :
    ∀ v ∈ remoteEnv id label rCs rBridge bridgeToken,
      Spells (v.1 ++ "=" ++ shq v.2).toList (assignment v) := by
  intro v mem
  have name := List.mem_map_of_mem (f := Prod.fst) mem
  rw [names_remoteEnv] at name
  have all : ∀ name ∈ ["FLEET_REPORTER_SOCKET", "FLEET_SESSION_ID", "FLEET_BRIDGE_URL",
      "FLEET_BRIDGE_TOKEN", "FLEET_BRIDGE_LOG_DIR", "FLEET_SERVER_ID", "FLEET_SERVER_LABEL",
      "FLEET_SERVER_URL"],
      ((name ++ "=").toList.all isPlain && !(name ++ "=").toList.isEmpty) = true := by
    decide +kernel
  rw [String.toList_append]
  exact (spells_fixed (v.1 ++ "=") (all v.1 name)).append (spells_shq v.2)

theorem reads_env (id label : String) (rCs rBridge : UInt16) (bridgeToken : String) :
    Reads (" ".intercalate ((remoteEnv id label rCs rBridge bridgeToken).map
        (fun v => v.1 ++ "=" ++ shq v.2))).toList
      ((remoteEnv id label rCs rBridge bridgeToken).map (fun v => .word (assignment v))) :=
  reads_words spells_assignment (List.cons_ne_nil _ _)

theorem reads_args (id : String) (rCs : UInt16) :
    Reads (" ".intercalate ((remoteArgs id rCs).map shq)).toList
      ((remoteArgs id rCs).map (fun arg => .word (quoted arg))) :=
  reads_words (fun arg _ => spells_shq arg) (List.cons_ne_nil _ _)

theorem reads_reporter {id : String} (plain : ∀ c ∈ id.toList, isPlain c = true) (named : id ≠ "")
    (rHub : UInt16) (remoteReporter : String) :
    Reads (shq remoteReporter ++ " " ++ ("--serve --ws" ++ " " ++
      ("ws://127.0.0.1:" ++ toString rHub.toNat ++ " " ++ ("--socket" ++ " " ++
        (shq ("/tmp/fleet-reporter-" ++ id ++ ".sock") ++ " " ++ ("--session-id" ++ " " ++ (id ++ " " ++
          (">/tmp/fleet-rep-" ++ id ++ ".log" ++ " " ++ "2>&1 & RPID=$!")))))))).toList
      (reporterTokens id rHub remoteReporter) := by
  have serve : Reads "--serve --ws".toList [.word (bare "--serve"), .word (bare "--ws")] := by
    decide +kernel
  have hub : Reads ("ws://127.0.0.1:" ++ toString rHub.toNat).toList
      [.word (bare ("ws://127.0.0.1:" ++ toString rHub.toNat))] := by
    rw [String.toList_append, bare_append]
    refine Spells.reads (Spells.append (spells_fixed "ws://127.0.0.1:" (by decide +kernel)) ?_)
    exact spells_plain (isPlain_toString _) (by simp)
  have socket : Reads "--socket".toList [.word (bare "--socket")] := by decide +kernel
  have session : Reads "--session-id".toList [.word (bare "--session-id")] := by decide +kernel
  have log : Reads (">/tmp/fleet-rep-" ++ id ++ ".log").toList
      [.op ['>'], .word (bare ("/tmp/fleet-rep-" ++ id ++ ".log"))] := by
    have path : Spells ("/tmp/fleet-rep-" ++ id ++ ".log").toList
        (bare ("/tmp/fleet-rep-" ++ id ++ ".log")) := by
      simp only [String.toList_append, bare_append]
      exact ((spells_fixed "/tmp/fleet-rep-" (by decide +kernel)).append
        (spells_plain plain named)).append (spells_fixed ".log" (by decide +kernel))
    have slash : "/tmp/fleet-rep-" = "/" ++ "tmp/fleet-rep-" := by decide +kernel
    have target : ">/tmp/fleet-rep-" = ">/" ++ "tmp/fleet-rep-" := by decide +kernel
    rw [slash] at path
    rw [slash, target, String.append_assoc, String.append_assoc, String.toList_append]
    rw [String.append_assoc, String.append_assoc, String.toList_append] at path
    exact Reads.redirect path
  have rest : Reads "2>&1 & RPID=$!".toList [.ioNumber ['2'], .op ['>', '&'], .word (bare "1"),
      .op ['&'], .word (bare "RPID=" ++ [.expansion "$!".toList false])] := by decide +kernel
  have name : Reads id.toList [.word (bare id)] := (spells_plain plain named).reads
  exact reads_blank (reads_shq _) (reads_blank serve (reads_blank hub (reads_blank socket
    (reads_blank (reads_shq _) (reads_blank session (reads_blank name (reads_blank log rest)))))))

theorem lex_of_reads {text spelled : String} {tokens read : List Token}
    (h : Reads spelled.toList read) (same : text = spelled) (same' : tokens = read) :
    lex text = some tokens := by
  subst same same'
  have all := h.lex
  rwa [String.ofList_toList] at all

/-- The shell reads back what was put in. -/
theorem lex_sshRemoteCommand {id : String} (plain : ∀ c ∈ id.toList, isPlain c = true)
    (named : id ≠ "") (label : String) (rCs rHub rBridge : UInt16)
    (bridgeToken remoteEditor remoteReporter : String) (spawnRepo : Option String) :
    lex (sshRemoteCommand id label rCs rHub rBridge bridgeToken remoteEditor remoteReporter
      spawnRepo) = some (remoteTokens id label rCs rHub rBridge bridgeToken remoteEditor
        remoteReporter spawnRepo) := by
  obtain ⟨prep, workspace, reads⟩ := reads_wsPrep id spawnRepo
  have mkdir : Reads "mkdir -p".toList [.word (bare "mkdir"), .word (bare "-p")] := by
    decide +kernel
  have quiet : Reads "2>/dev/null".toList
      [.ioNumber ['2'], .op ['>'], .word (bare "/dev/null")] := by decide +kernel
  have rm : Reads "rm -f".toList [.word (bare "rm"), .word (bare "-f")] := by decide +kernel
  have trap : Reads "trap 'kill $RPID 2>/dev/null' EXIT INT TERM".toList [.word (bare "trap"),
      .word (quoted "kill $RPID 2>/dev/null"), .word (bare "EXIT"), .word (bare "INT"),
      .word (bare "TERM")] := by decide +kernel
  have env : Reads "env".toList [.word (bare "env")] := by decide +kernel
  have kill : Reads "kill $RPID 2>/dev/null".toList [.word (bare "kill"),
      .word [.expansion "$RPID".toList false], .ioNumber ['2'], .op ['>'],
      .word (bare "/dev/null")] := by decide +kernel
  have editor := reads_blank env (reads_blank (reads_env id label rCs rBridge bridgeToken)
    (reads_blank (reads_shq remoteEditor) (reads_args id rCs)))
  have all := reads_semicolon reads (reads_semicolon
    (reads_blank mkdir (reads_blank (reads_shq (".fleet/cs-userdata-" ++ id)) quiet))
    (reads_semicolon (reads_blank rm (reads_shq ("/tmp/fleet-reporter-" ++ id ++ ".sock")))
      (reads_semicolon (reads_reporter plain named rHub remoteReporter)
        (reads_semicolon trap (reads_semicolon editor kill)))))
  refine lex_of_reads all ?_ ?_
  · -- the fixed texts, cut where the words and the commands end
    have semicolon : "; " = ";" ++ " " := by decide +kernel
    have makes : " mkdir -p " = " " ++ ("mkdir -p" ++ " ") := by decide +kernel
    have removes : " 2>/dev/null; rm -f " =
        " " ++ ("2>/dev/null" ++ (";" ++ (" " ++ ("rm -f" ++ " ")))) := by decide +kernel
    have serves : " --serve --ws ws://127.0.0.1:" =
        " " ++ ("--serve --ws" ++ (" " ++ "ws://127.0.0.1:")) := by decide +kernel
    have socket : " --socket " = " " ++ ("--socket" ++ " ") := by decide +kernel
    have session : " --session-id " = " " ++ ("--session-id" ++ " ") := by decide +kernel
    have log : " >/tmp/fleet-rep-" = " " ++ ">/tmp/fleet-rep-" := by decide +kernel
    have joined : ".log 2>&1 & " = ".log" ++ (" " ++ "2>&1 & ") := by decide +kernel
    have background : "2>&1 & RPID=$!" = "2>&1 & " ++ "RPID=$!" := by decide +kernel
    have trapped : "RPID=$!; trap 'kill $RPID 2>/dev/null' EXIT INT TERM; " = "RPID=$!" ++ (";" ++
        (" " ++ ("trap 'kill $RPID 2>/dev/null' EXIT INT TERM" ++ (";" ++ " ")))) := by
      decide +kernel
    have runs : "env " = "env" ++ " " := by decide +kernel
    have kills : "; kill $RPID 2>/dev/null" = ";" ++ (" " ++ "kill $RPID 2>/dev/null") := by
      decide +kernel
    unfold sshRemoteCommand
    dsimp only
    -- a closing `rfl` would compare the fixed texts character by character
    rewrite [workspace, removes, serves, socket, session, log, joined, makes, trapped, background,
      runs, kills, semicolon]
    simp only [String.append_assoc, -String.reduceAppend]
  · simp only [remoteTokens, editorWords, List.intercalate_cons_cons, List.intercalate_singleton,
      List.map_cons, List.map_append, List.map_map, List.append_assoc, List.cons_append,
      List.nil_append]
    rfl

/-! ## What runs -/

/-- The words of the commands, one after the other. -/
def remoteCommands (id label : String) (rCs rHub rBridge : UInt16)
    (bridgeToken remoteEditor remoteReporter : String) (spawnRepo : Option String) :
    List (List (List Piece)) :=
  let remoteWs := ".fleet/ws-" ++ id
  let remoteSock := "/tmp/fleet-reporter-" ++ id ++ ".sock"
  (match spawnRepo.filter (fun spec : String => trim spec.toList ≠ []) with
    | some spec => [[bare "git", bare "clone", bare "--depth", bare "1", quoted (resolveRepo spec),
        quoted remoteWs]]
    | none => []) ++
  [[bare "mkdir", bare "-p", quoted remoteWs],
    [bare "mkdir", bare "-p", quoted (".fleet/cs-userdata-" ++ id)],
    [bare "rm", bare "-f", quoted remoteSock],
    [quoted remoteReporter, bare "--serve", bare "--ws",
      bare ("ws://127.0.0.1:" ++ toString rHub.toNat), bare "--socket", quoted remoteSock,
      bare "--session-id", bare id],
    [bare "RPID=" ++ [.expansion "$!".toList false]],
    [bare "trap", quoted "kill $RPID 2>/dev/null", bare "EXIT", bare "INT", bare "TERM"],
    editorWords id label rCs rBridge bridgeToken remoteEditor,
    [bare "kill", [.expansion "$RPID".toList false]]]

theorem commands_workspaceTokens (id : String) (spawnRepo : Option String) (rest : List Token) :
    commandsFrom [] (workspaceTokens id spawnRepo ++ .op [';'] :: rest) =
      (match spawnRepo.filter (fun spec : String => trim spec.toList ≠ []) with
        | some spec => [[bare "git", bare "clone", bare "--depth", bare "1",
            quoted (resolveRepo spec), quoted (".fleet/ws-" ++ id)]]
        | none => []) ++
      [bare "mkdir", bare "-p", quoted (".fleet/ws-" ++ id)] :: commandsFrom [] rest := by
  have target : ['>'] ∈ redirections := by decide
  have semicolon : [';'] ∉ redirections := by decide
  have or : ['|', '|'] ∉ redirections := by decide
  unfold workspaceTokens
  generalize spawnRepo.filter (fun spec : String => trim spec.toList ≠ []) = repo
  cases repo with
  | none =>
    simp only [List.cons_append, List.nil_append, commandsFrom_word, ne_eq, reduceCtorEq,
      not_false_eq_true, commandsFrom_end _ _ semicolon]
  | some spec =>
    simp only [List.cons_append, List.nil_append, commandsFrom_word, commandsFrom_number,
      commandsFrom_redirect _ _ target, ne_eq, reduceCtorEq, not_false_eq_true,
      commandsFrom_end _ _ or, commandsFrom_end _ _ semicolon]

theorem commands_remoteTokens (id label : String) (rCs rHub rBridge : UInt16)
    (bridgeToken remoteEditor remoteReporter : String) (spawnRepo : Option String) :
    commands (remoteTokens id label rCs rHub rBridge bridgeToken remoteEditor remoteReporter
      spawnRepo) = remoteCommands id label rCs rHub rBridge bridgeToken remoteEditor remoteReporter
        spawnRepo := by
  have target : ['>'] ∈ redirections := by decide
  have merge : ['>', '&'] ∈ redirections := by decide
  have semicolon : [';'] ∉ redirections := by decide
  have background : ['&'] ∉ redirections := by decide
  have editor : editorWords id label rCs rBridge bridgeToken remoteEditor ≠ [] :=
    List.cons_ne_nil _ _
  simp only [commands, remoteTokens, remoteCommands, List.intercalate_cons_cons,
    List.intercalate_singleton, List.append_assoc, List.singleton_append, commands_workspaceTokens]
  simp only [reporterTokens, List.cons_append, List.nil_append, commandsFrom_word,
    commandsFrom_words, commandsFrom_number, commandsFrom_redirect _ _ target,
    commandsFrom_redirect _ _ merge, ne_eq, reduceCtorEq, not_false_eq_true,
    commandsFrom_end _ _ semicolon, commandsFrom_end _ _ background, editor]
  rfl

/-- What `env` makes of assignments and a command that is none. -/
theorem envOperands_assignments (vars : List (String × String))
    (names : ∀ v ∈ vars, '=' ∉ v.1.toList) {program : List Char} (plain : '=' ∉ program)
    (args : List (List Char)) :
    envOperands (vars.map (fun v => (v.1 ++ "=" ++ v.2).toList) ++ program :: args) =
      (vars, program :: args) := by
  induction vars with
  | nil => exact if_neg plain
  | cons v vars ih =>
    have rest := ih (fun v' mem => names v' (List.mem_cons_of_mem _ mem))
    have name : ∀ c ∈ v.1.toList, decide (c ≠ '=') = true := by
      intro c mem
      rw [decide_eq_true_iff]
      rintro rfl
      exact names v List.mem_cons_self mem
    have text : (v.1 ++ "=" ++ v.2).toList = v.1.toList ++ '=' :: v.2.toList := by simp
    rw [List.map_cons, List.cons_append, envOperands, rest, text, if_pos (by simp),
      List.takeWhile_append_of_pos name, List.dropWhile_append_of_pos name]
    simp

theorem literals_char (text : List Char) (quoted : Bool) :
    literals (text.map (fun c => .char c quoted)) = text := by
  induction text with
  | nil => rfl
  | cons c text ih => exact congrArg (List.cons c) ih

theorem literals_quoted (text : String) : literals (quoted text) = text.toList :=
  literals_char text.toList true

theorem literals_assignment (v : String × String) :
    literals (assignment v) = (v.1 ++ "=" ++ v.2).toList := by
  rw [assignment, literals, List.filterMap_append, String.toList_append]
  exact congrArg₂ List.append (literals_char _ false) (literals_char _ true)

/-- The editor gets the variables and the arguments, whatever is in them. -/
theorem editor_operands (id label : String) (rCs rBridge : UInt16)
    (bridgeToken remoteEditor : String) (program : '=' ∉ remoteEditor.toList) :
    envOperands ((editorWords id label rCs rBridge bridgeToken remoteEditor).tail.map literals) =
      (remoteEnv id label rCs rBridge bridgeToken,
        remoteEditor.toList :: (remoteArgs id rCs).map String.toList) := by
  have names : ∀ v ∈ remoteEnv id label rCs rBridge bridgeToken, '=' ∉ v.1.toList := by
    intro v mem
    have name := List.mem_map_of_mem (f := Prod.fst) mem
    rw [names_remoteEnv] at name
    have all : ∀ name ∈ ["FLEET_REPORTER_SOCKET", "FLEET_SESSION_ID", "FLEET_BRIDGE_URL",
        "FLEET_BRIDGE_TOKEN", "FLEET_BRIDGE_LOG_DIR", "FLEET_SERVER_ID", "FLEET_SERVER_LABEL",
        "FLEET_SERVER_URL"], '=' ∉ name.toList := by
      decide +kernel
    exact all v.1 name
  rw [editorWords, List.tail_cons, List.map_append, List.map_map, List.map_cons, List.map_map]
  have vars : (literals ∘ assignment) = (fun v => (v.1 ++ "=" ++ v.2).toList) :=
    funext literals_assignment
  have words : (literals ∘ quoted) = String.toList := funext literals_quoted
  rw [vars, words, literals_quoted]
  exact envOperands_assignments _ names program _

/-- The shell on the other machine runs the commands that were put together, each with the words it
was given, whatever is in the label, the token, the repository and the programs; and `env` starts
the editor with its arguments and just the variables that a server on this machine gets. -/
theorem remote_command_runs (pid nanos n : Nat) (label : String) (rCs rHub rBridge : UInt16)
    (bridgeToken remoteEditor remoteReporter : String) (spawnRepo : Option String) :
    let id := ServerSupervisor.serverId (launchId pid nanos) n
    (lex (sshRemoteCommand id label rCs rHub rBridge bridgeToken remoteEditor remoteReporter
      spawnRepo)).map commands =
      some (remoteCommands id label rCs rHub rBridge bridgeToken remoteEditor remoteReporter
        spawnRepo) ∧
    ('=' ∉ remoteEditor.toList →
      envOperands ((editorWords id label rCs rBridge bridgeToken remoteEditor).tail.map literals) =
        (remoteEnv id label rCs rBridge bridgeToken,
          remoteEditor.toList :: (remoteArgs id rCs).map String.toList)) := by
  intro id
  have named : id ≠ "" := by
    intro none
    have first := congrArg (fun s : String => s.toList.length) none
    simp [id, ServerSupervisor.serverId] at first
  refine ⟨?_, editor_operands id label rCs rBridge bridgeToken remoteEditor⟩
  rw [lex_sshRemoteCommand (isPlain_serverId pid nanos n) named, Option.map_some,
    commands_remoteTokens]

/-- A label with a quote and a command in it. -/
theorem remote_command_runs_quote :
    let id := ServerSupervisor.serverId (launchId 1 2) 0
    (lex (sshRemoteCommand id "x'; touch y; '" 18000 19000 20000 "t" "code" "fleet-reporter"
      none)).map commands =
      some (remoteCommands id "x'; touch y; '" 18000 19000 20000 "t" "code" "fleet-reporter" none) ∧
    envOperands ((editorWords id "x'; touch y; '" 18000 20000 "t" "code").tail.map literals) =
      (remoteEnv id "x'; touch y; '" 18000 20000 "t",
        "code".toList :: (remoteArgs id 18000).map String.toList) :=
  have runs := remote_command_runs 1 2 0 "x'; touch y; '" 18000 19000 20000 "t" "code"
    "fleet-reporter" none
  ⟨runs.1, runs.2 (by decide)⟩

end VsFleet
