import VsFleet.Host.ToolPath
import VsFleet.Misc.Separated
import Mathlib.Data.List.Find

/-!
# The shim is not in the way

A terminal of a spawned server finds Fleet's shim as `claude`; the shim starts the `claude` that
would have been found without it, and hands on a path on which that one is found again, where no
entry of the path is a pattern and every `claude` on it may be executed. However often the shim is
run below itself, the hooks are added once.
-/

namespace VsFleet

/-! ## Paths and their directories -/

section

variable {path shimDir dir : List Char} {dirs : List (List Char)}

theorem not_mem_splitPaths (path : List Char) : ∀ dir ∈ splitPaths path, ':' ∉ dir :=
  not_mem_of_mem_splitOn path

theorem splitPaths_ne_nil (path : List Char) : splitPaths path ≠ [] :=
  List.splitOn_ne_nil _ _

theorem splitPaths_intercalate (whole : ∀ dir ∈ dirs, ':' ∉ dir) (some_dir : dirs ≠ []) :
    splitPaths ([':'].intercalate dirs) = dirs :=
  List.splitOn_intercalate ':' whole some_dir

/-- The directory that is put in front of a path is its first. -/
theorem splitPaths_prependPath (whole : ':' ∉ dir) (path : List Char) :
    splitPaths (prependPath dir path) = dir :: splitPaths path := by
  have all_whole : ∀ part ∈ dir :: splitPaths path, ':' ∉ part := by
    intro part mem
    rcases List.mem_cons.mp mem with rfl | mem
    · exact whole
    · exact not_mem_splitPaths path part mem
  have joined : joinPaths (dir :: splitPaths path) =
      some ([':'].intercalate (dir :: splitPaths path)) :=
    if_pos (List.all_eq_true.mpr (fun part mem => decide_eq_true (all_whole part mem)))
  rw [prependPath, joined]
  exact splitPaths_intercalate all_whole (List.cons_ne_nil _ _)

theorem foldl_pushExistingDir (isDir : List Char → Bool) (more : List (List Char)) :
    ∀ dirs, ∃ added, more.foldl (pushExistingDir isDir) dirs = dirs ++ added := by
  induction more with
  | nil => exact fun dirs => ⟨[], (List.append_nil dirs).symm⟩
  | cons dir more ih =>
    intro dirs
    obtain ⟨added, eq⟩ := ih (pushExistingDir isDir dirs dir)
    rw [List.foldl_cons, eq]
    unfold pushExistingDir
    split
    · exact ⟨dir :: added, by rw [List.append_assoc]; rfl⟩
    · exact ⟨added, rfl⟩

/-- The tool path begins with the path there was. -/
theorem splitPaths_fleetToolPathFrom (isDir : List Char → Bool) (apps : List (List Char))
    (path : List Char) (home user : Option (List Char)) :
    ∃ added, splitPaths (fleetToolPathFrom isDir apps (some path) home user) =
      splitPaths path ++ added := by
  obtain ⟨added, eq⟩ := foldl_pushExistingDir isDir (toolDirs apps home user) (splitPaths path)
  unfold fleetToolPathFrom
  dsimp only [Option.map_some, Option.getD_some]
  rw [eq]
  unfold joinPaths
  split
  · rename_i whole
    refine ⟨added, splitPaths_intercalate ?_ ?_⟩
    · exact fun dir mem => of_decide_eq_true (List.all_eq_true.mp whole dir mem)
    · exact fun none_left => splitPaths_ne_nil path (List.append_eq_nil_iff.mp none_left).1
  · exact ⟨[], (List.append_nil _).symm⟩

/-! ## The loop of the script -/

/-- What the shell promises of a field that is no pattern: it stays as it is. -/
def KeepsPlain (expand : List Char → List (List Char)) : Prop :=
  ∀ field, plainField field = true → expand field = [field]

variable {expand : List Char → List (List Char)}

theorem KeepsPlain.flatMap (keeps : KeepsPlain expand)
    (plain : ∀ dir ∈ dirs, plainField dir = true) : dirs.flatMap expand = dirs := by
  induction dirs with
  | nil => rfl
  | cons dir dirs ih =>
    rw [List.forall_mem_cons] at plain
    rw [List.flatMap_cons, keeps dir plain.1, ih plain.2]
    rfl

/-- The directories the loop keeps. -/
def keptDirs (shimDir : List Char) (dirs : List (List Char)) : List (List Char) :=
  dirs.filter (fun dir => dir ≠ [] ∧ dir ≠ shimDir)

/-- With the directories kept so far on the clean path, the loop puts the others behind them. -/
theorem foldl_cleanTurn (dirs : List (List Char)) : ∀ done : List (List Char),
    (∀ dir ∈ done, dir ≠ []) → dirs.foldl (cleanTurn shimDir) ([':'].intercalate done) =
      [':'].intercalate (done ++ keptDirs shimDir dirs) := by
  induction dirs with
  | nil => exact fun done _ => by simp [keptDirs]
  | cons dir dirs ih =>
    intro done named
    rw [List.foldl_cons, keptDirs, List.filter_cons, cleanTurn]
    by_cases empty : dir = []
    · rw [if_pos empty, if_neg (by simp [empty])]
      exact ih done named
    · by_cases shim : dir = shimDir
      · rw [if_neg empty, if_pos shim, if_neg (by simp [shim])]
        exact ih done named
      · have named' : ∀ d ∈ done ++ [dir], d ≠ [] := by
          intro d mem
          rcases List.mem_append.mp mem with old | new
          · exact named d old
          · exact List.mem_singleton.mp new ▸ empty
        have turn : (if [':'].intercalate done = [] then dir
            else [':'].intercalate done ++ ':' :: dir) = [':'].intercalate (done ++ [dir]) := by
          cases done with
          | nil => simp
          | cons first done =>
            have some_text : [':'].intercalate (first :: done) ≠ [] := by
              have := named first List.mem_cons_self
              cases done <;> simp [this]
            rw [if_neg some_text, intercalate_snoc (List.cons_ne_nil _ _)]
        rw [if_neg empty, if_neg shim, turn, if_pos (by simp [empty, shim]), ih _ named',
          List.append_assoc]
        rfl

theorem cleanPath_eq (keeps : KeepsPlain expand)
    (plain : ∀ dir ∈ splitPaths path, plainField dir = true) (shimDir : List Char) :
    cleanPath expand shimDir path = [':'].intercalate (keptDirs shimDir (splitPaths path)) := by
  rw [cleanPath, ← splitPaths, keeps.flatMap plain]
  exact foldl_cleanTurn (splitPaths path) [] (fun _ mem => absurd mem List.not_mem_nil)

/-- The clean path has the directories of the path but for the shim's and the empty ones. -/
theorem splitPaths_cleanPath (keeps : KeepsPlain expand)
    (plain : ∀ dir ∈ splitPaths path, plainField dir = true)
    (some_kept : keptDirs shimDir (splitPaths path) ≠ []) :
    splitPaths (cleanPath expand shimDir path) = keptDirs shimDir (splitPaths path) := by
  rw [cleanPath_eq keeps plain]
  refine splitPaths_intercalate (fun dir mem => ?_) some_kept
  exact not_mem_splitPaths path dir (List.mem_of_mem_filter mem)

/-- Whatever path of plain entries the shim is given, its directory is not on the one handed on. -/
theorem shimDir_not_mem_cleanPath (keeps : KeepsPlain expand)
    (plain : ∀ dir ∈ splitPaths path, plainField dir = true) (named : shimDir ≠ []) :
    shimDir ∉ splitPaths (cleanPath expand shimDir path) := by
  by_cases none_kept : keptDirs shimDir (splitPaths path) = []
  · rw [cleanPath_eq keeps plain, none_kept]
    simpa [splitPaths] using named
  · rw [splitPaths_cleanPath keeps plain none_kept]
    intro mem
    exact (of_decide_eq_true (List.mem_filter.mp mem).2).2 rfl

end

/-! ## What is found -/

section

variable {isFile : List Char → Bool} {shimDir path real : List Char}

theorem samePath_self (dir : List Char) : samePath dir dir = true := decide_eq_true rfl

/-- Where the shim's directory is spelled in one way, the search of Fleet skips what the loop of the
script skips. -/
theorem findRealClaude_eq (one_spelling : ∀ dir ∈ splitPaths path, samePath dir shimDir = true →
      dir = shimDir) : findRealClaude isFile none shimDir path =
    ((keptDirs shimDir (splitPaths path)).map (fun dir => joinName dir claude)).find? isFile := by
  have alike : (splitPaths path).filter (fun dir => dir ≠ [] ∧ ¬ samePath dir shimDir) =
      keptDirs shimDir (splitPaths path) := by
    refine List.filter_congr (fun dir mem => decide_eq_decide.mpr (and_congr_right (fun _ => ?_)))
    refine not_congr ⟨one_spelling dir mem, ?_⟩
    rintro rfl
    exact samePath_self dir
  rw [← alike]
  rfl

/-- What a path finds is found on every longer one. -/
theorem findRealClaude_append {longer : List Char} {added : List (List Char)}
    (begins : splitPaths longer = splitPaths path ++ added)
    (found : findRealClaude isFile none shimDir path = some real) :
    findRealClaude isFile none shimDir longer = some real := by
  unfold findRealClaude at found ⊢
  rw [Option.filter_none] at found ⊢
  dsimp only at found ⊢
  rw [begins, List.filter_append, List.map_append, List.find?_append, found]
  rfl

end

/-- Where what Fleet takes for a file and what a shell takes for a command agree, they find the
same. -/
theorem find?_executable {isExecutable : List Char → Bool} {files : List (List Char)}
    (commands : ∀ file, isExecutable file = true → isFile file = true)
    (executable : ∀ file ∈ files, isFile file = true → isExecutable file = true) :
    files.find? isExecutable = files.find? isFile := by
  refine List.find?_congr (fun file mem => ?_)
  exact Bool.eq_iff_iff.mpr ⟨commands file, executable file mem⟩

/-! ## The shim below itself -/

section

variable {expand : List Char → List (List Char)}

/-- Once the variable is set the arguments are handed on as they are. -/
theorem runShims_active (real hooksFile shimDir : List Char)
    (calls : List (List Char × List (List Char))) :
    (runShims expand real hooksFile shimDir true calls).map (fun exec => exec.args) =
      calls.map (fun call => call.2) := by
  induction calls with
  | nil => rfl
  | cons call calls ih =>
    rw [List.map_cons, ← ih]
    rfl

theorem runShims_exec {real hooksFile shimDir : List Char} (keeps : KeepsPlain expand)
    (named : shimDir ≠ []) (calls : List (List Char × List (List Char)))
    (plain : ∀ call ∈ calls, ∀ dir ∈ splitPaths call.1, plainField dir = true) : ∀ active,
    ∀ exec ∈ runShims expand real hooksFile shimDir active calls,
      exec.program = real ∧ shimDir ∉ splitPaths exec.env.path := by
  induction calls with
  | nil => exact fun _ exec mem => absurd mem List.not_mem_nil
  | cons call calls ih =>
    intro active exec mem
    rw [List.forall_mem_cons] at plain
    rcases List.mem_cons.mp mem with rfl | mem
    · cases active
      · exact ⟨rfl, shimDir_not_mem_cleanPath keeps plain.1 named⟩
      · exact ⟨rfl, shimDir_not_mem_cleanPath keeps plain.1 named⟩
    · exact ih plain.2 _ exec mem

end

/-- The shim of a spawned server is not in the way, where no entry of the paths is a pattern and
every `claude` on them may be executed. A terminal finds it as `claude`; it starts what Fleet has
found, which is the user's own `claude` if there is one, and on the path that is handed on that one
is found again; and however often the shim is run below itself, with whatever paths, the hooks are
added to the first call and to no other. -/
theorem shim_transparent (isFile isExecutable isDir : List Char → Bool)
    (expand : List Char → List (List Char)) (apps : List (List Char)) (path : List Char)
    (home user : Option (List Char)) (shimDir hooksFile real : List Char)
    (keeps : KeepsPlain expand)
    (commands : ∀ file, isExecutable file = true → isFile file = true)
    (found : findRealClaude isFile none shimDir
      (fleetToolPathFrom isDir apps (some path) home user) = some real)
    (one_spelling : ∀ dir ∈ splitPaths (fleetToolPathFrom isDir apps (some path) home user),
      samePath dir shimDir = true → dir = shimDir)
    (plain : ∀ dir ∈ shimDir :: splitPaths (fleetToolPathFrom isDir apps (some path) home user),
      plainField dir = true)
    (executable : ∀ dir ∈ splitPaths (fleetToolPathFrom isDir apps (some path) home user),
      isFile (joinName dir claude) = true → isExecutable (joinName dir claude) = true)
    (whole : ':' ∉ shimDir) (named : shimDir ≠ []) :
    let tool := fleetToolPathFrom isDir apps (some path) home user
    let terminal := prependPath shimDir tool
    let handedOn := cleanPath expand shimDir terminal
    (isExecutable (joinName shimDir claude) = true →
      lookupClaude isExecutable terminal = some (joinName shimDir claude)) ∧
    splitPaths handedOn = (splitPaths tool).filter (fun dir => dir ≠ [] ∧ dir ≠ shimDir) ∧
    lookupClaude isExecutable handedOn = some real ∧
    (∀ own, findRealClaude isFile none shimDir path = some own → own = real) ∧
    ∀ args calls,
      (runShims expand real hooksFile shimDir false ((terminal, args) :: calls)).map
          (fun exec => exec.args) =
        ("--settings".toList :: hooksFile :: args) :: calls.map (fun call => call.2) ∧
      ((∀ call ∈ calls, ∀ dir ∈ splitPaths call.1, plainField dir = true) →
        ∀ exec ∈ runShims expand real hooksFile shimDir false ((terminal, args) :: calls),
          exec.program = real ∧ shimDir ∉ splitPaths exec.env.path) := by
  intro tool terminal handedOn
  have listed : splitPaths terminal = shimDir :: splitPaths tool :=
    splitPaths_prependPath whole tool
  have plain_terminal : ∀ dir ∈ splitPaths terminal, plainField dir = true := by
    rw [listed]
    exact plain
  have kept : keptDirs shimDir (splitPaths terminal) = keptDirs shimDir (splitPaths tool) := by
    rw [listed, keptDirs, List.filter_cons_of_neg (by simp)]
    rfl
  have searched := (findRealClaude_eq one_spelling).symm.trans found
  have some_kept : keptDirs shimDir (splitPaths terminal) ≠ [] := by
    intro none_kept
    rw [← kept, none_kept] at searched
    cases searched
  have handed : splitPaths handedOn = keptDirs shimDir (splitPaths tool) :=
    (splitPaths_cleanPath keeps plain_terminal some_kept).trans kept
  refine ⟨fun installed => ?_, handed, ?_, fun own own_found => ?_, fun args calls => ⟨?_, ?_⟩⟩
  · rw [lookupClaude, listed, List.map_cons, List.find?_cons_of_pos installed]
  · rw [lookupClaude, handed, find?_executable commands]
    · exact searched
    · intro file mem
      obtain ⟨dir, there, rfl⟩ := List.mem_map.mp mem
      exact executable dir (List.mem_of_mem_filter there)
  · obtain ⟨added, begins⟩ := splitPaths_fleetToolPathFrom isDir apps path home user
    exact Option.some.inj ((findRealClaude_append begins own_found).symm.trans found)
  · change _ :: (runShims expand real hooksFile shimDir true calls).map _ = _
    rw [runShims_active]
    rfl
  · intro plain_calls
    refine runShims_exec keeps named _ ?_ false
    rw [List.forall_mem_cons]
    exact ⟨plain_terminal, plain_calls⟩

/-- The files of a user with a `claude` of their own, and of the server's shim. -/
def ownClaude (file : List Char) : Bool :=
  file = "/u/bin/claude".toList ∨ file = "/base/shim/claude".toList

theorem shim_transparent_ownClaude :
    lookupClaude ownClaude (cleanPath (fun field => [field]) "/base/shim".toList
      (prependPath "/base/shim".toList
        (fleetToolPathFrom (fun _ => false) [] (some "/usr/bin::/u/bin".toList) none none))) =
          some "/u/bin/claude".toList :=
  (shim_transparent ownClaude ownClaude (fun _ => false) (fun field => [field]) []
    "/usr/bin::/u/bin".toList none none "/base/shim".toList
    "/base/shim/fleet-hooks.json".toList "/u/bin/claude".toList (fun _ _ => rfl)
    (fun _ executable => executable) (by decide +kernel) (by decide +kernel) (by decide +kernel)
    (fun _ _ executable => executable) (by decide +kernel) (by decide +kernel)).2.2.1

end VsFleet
