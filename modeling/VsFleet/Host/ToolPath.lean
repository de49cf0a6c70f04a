import VsFleet.Host.ClaudeShim

/-!
# The path of the tools

The directories a spawned server's terminal looks for its commands in, and the `claude` that Fleet's
shim starts (`fleet-host/src/spawn.rs`), on a unix. Texts are lists of characters. The files do not
change meanwhile; which there are, which of them may be executed and what the shell expands a
pattern to are parameters.
-/

namespace VsFleet

/-- `split_paths`. -/
def splitPaths (path : List Char) : List (List Char) := path.splitOn ':'

/-- `join_paths`: a directory with the separator in it is refused. -/
def joinPaths (dirs : List (List Char)) : Option (List Char) :=
  if dirs.all (fun dir => ':' ∉ dir) then some ([':'].intercalate dirs) else none

/-- `Path::components`: whether the path begins at the root, and its names. -/
def pathComponents (path : List Char) : Bool × List (List Char) :=
  let names := (path.splitOn '/').filter (fun name => name ≠ [])
  let rooted := path.head? = some '/'
  (rooted, match names with
    | [] => []
    | first :: rest => (if rooted ∧ first = ['.'] then [] else [first]) ++
        rest.filter (fun name => name ≠ ['.']))

/-- `==` of two paths. -/
def samePath (a b : List Char) : Bool := pathComponents a = pathComponents b

/-- `Path::join` with the name of a file. -/
def joinName (dir name : List Char) : List Char :=
  if dir = [] ∨ dir.getLast? = some '/' then dir ++ name else dir ++ '/' :: name

/-- The name of the command that is looked for. -/
def claude : List Char := "claude".toList

/-- `push_existing_dir` (`spawn.rs:1398-1402`). -/
def pushExistingDir (isDir : List Char → Bool) (dirs : List (List Char)) (dir : List Char) :
    List (List Char) :=
  if isDir dir ∧ ¬ dirs.any (fun existing => samePath existing dir) then dirs ++ [dir] else dirs

/-- The directories `fleet_tool_path_from` tries, in its order (`spawn.rs:1346-1375`): `apps` are
those of `push_home_manager_app_bins`. -/
def toolDirs (apps : List (List Char)) (home user : Option (List Char)) : List (List Char) :=
  (match home with
    | some home => apps ++ [joinName home ".local/bin".toList, joinName home "bin".toList,
        joinName home ".cargo/bin".toList]
    | none => []) ++
  (match user with
    | some user =>
      if user = [] then [] else ["/etc/profiles/per-user/".toList ++ user ++ "/bin".toList]
    | none => []) ++
  ["/opt/homebrew/bin".toList, "/usr/local/bin".toList, "/usr/bin".toList, "/bin".toList,
    "/usr/sbin".toList, "/sbin".toList, "/run/current-system/sw/bin".toList,
    "/nix/var/nix/profiles/default/bin".toList,
    "/Applications/Visual Studio Code.app/Contents/Resources/app/bin".toList,
    "/Applications/Visual Studio Code - Insiders.app/Contents/Resources/app/bin".toList]

/-- `fleet_tool_path_from` (`spawn.rs:1336-1379`). -/
def fleetToolPathFrom (isDir : List Char → Bool) (apps : List (List Char))
    (current home user : Option (List Char)) : List Char :=
  let dirs := (current.map splitPaths).getD []
  (joinPaths ((toolDirs apps home user).foldl (pushExistingDir isDir) dirs)).getD (current.getD [])

/-- `prepend_path` (`spawn.rs:1404-1408`). -/
def prependPath (dir path : List Char) : List Char :=
  (joinPaths (dir :: splitPaths path)).getD path

/-- `find_real_claude` (`spawn.rs:1744-1762`): `bin` is `FLEET_CLAUDE_BIN`. -/
def findRealClaude (isFile : List Char → Bool) (bin : Option (List Char))
    (shimDir path : List Char) : Option (List Char) :=
  match bin.filter isFile with
  | some bin => some bin
  | none =>
    (((splitPaths path).filter (fun dir => dir ≠ [] ∧ ¬ samePath dir shimDir)).map
      (fun dir => joinName dir claude)).find? isFile

/-- How a shell finds `claude` on a path: the first file of the name that may be executed; an empty
entry is the current directory. -/
def lookupClaude (isExecutable : List Char → Bool) (path : List Char) : Option (List Char) :=
  ((splitPaths path).map (fun dir => joinName dir claude)).find? isExecutable

/-! ## The shim -/

/-- What the shim reads of the environment: `PATH`, and whether `FLEET_CLAUDE_SHIM_ACTIVE` is 1. -/
structure ShimEnv where
  path : List Char
  active : Bool
  deriving DecidableEq, Repr

/-- A program that a shell has been replaced by. -/
structure ShimExec where
  program : List Char
  args : List (List Char)
  env : ShimEnv
  deriving DecidableEq, Repr

/-- The characters that make a field a pattern. -/
def patternChars : List Char := "*?[\\".toList

/-- A field that is no pattern. -/
def plainField (field : List Char) : Bool := field.all (fun c => c ∉ patternChars)

/-- One turn of the loop of the script (`spawn.rs:1715-1723`). -/
def cleanTurn (shimDir clean dir : List Char) : List Char :=
  if dir = [] then clean
  else if dir = shimDir then clean
  else if clean = [] then dir
  else clean ++ ':' :: dir

section

variable (expand : List Char → List (List Char))

/-- The loop of the script over the fields of `$PATH`, which is not quoted: a field is split off and
then expanded, by `expand`, to the names that match it. -/
def cleanPath (shimDir path : List Char) : List Char :=
  ((path.splitOn ':').flatMap expand).foldl (cleanTurn shimDir) []

/-- `claude_shim_script` (`spawn.rs:1704-1738`), run. -/
def runShim (real hooksFile shimDir : List Char) (env : ShimEnv) (args : List (List Char)) :
    ShimExec :=
  let path := cleanPath expand shimDir env.path
  if env.active then ⟨real, args, ⟨path, true⟩⟩
  else ⟨real, "--settings".toList :: hooksFile :: args, ⟨path, true⟩⟩

/-- The shim run again and again, each time below what it started before: in between the path and
the arguments may become others, and the variable is inherited. -/
def runShims (real hooksFile shimDir : List Char) :
    Bool → List (List Char × List (List Char)) → List ShimExec
  | _, [] => []
  | active, (path, args) :: calls =>
    let exec := runShim expand real hooksFile shimDir ⟨path, active⟩ args
    exec :: runShims real hooksFile shimDir exec.env.active calls

end

end VsFleet
