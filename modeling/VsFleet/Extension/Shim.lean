import VsFleet.Cli.HookConfig
import VsFleet.Misc.JsPath

/-!
# The shims of the extension

The directory of the shims of a window and the socket of its reporter (`extension/src/shim.ts`,
`extension/src/paths.ts`), on a system with POSIX paths, and the hooks that the shim passes to
Claude.
-/

namespace VsFleet

section

open JsText JsPath

/-- What the paths are resolved from: `os.tmpdir()` and `XDG_RUNTIME_DIR`. -/
structure PathEnv where
  tmpdir : JsString
  xdgRuntimeDir : Option JsString
  deriving DecidableEq, Repr

namespace Extension

/-- The code units that stay: `[A-Za-z0-9._-]`. -/
def isSafe (c : UInt16) : Bool :=
  (0x41 ≤ c && c ≤ 0x5a) || (0x61 ≤ c && c ≤ 0x7a) || isDigit c || c ∈ [0x2e, 0x5f, 0x2d]

/-- `safeSegment` (`paths.ts:30-33`), which `shim.ts:325` spells out once more. -/
def safeSegment (sessionId : JsString) : JsString :=
  ((if sessionId = [] then ofString "default" else sessionId).map
    (fun c => if isSafe c then c else 0x5f)).take 128

/-- `runtimeDir` (`paths.ts:35-44`). -/
def runtimeDir (env : PathEnv) : JsString :=
  match env.xdgRuntimeDir with
  | some xdg =>
    if xdg ≠ [] then join [xdg, ofString "fleet"] else join [env.tmpdir, ofString "fleet"]
  | none => join [env.tmpdir, ofString "fleet"]

/-- `reporterSocketPath` (`paths.ts:46-54`). -/
def reporterSocketPath (env : PathEnv) (sessionId : JsString) : JsString :=
  join [runtimeDir env, ofString "reporter-" ++ safeSegment sessionId ++ ofString ".sock"]

/-- `defaultShimDir` (`shim.ts:318-327`). -/
def defaultShimDir (env : PathEnv) (sessionId : JsString) : JsString :=
  join [env.tmpdir, ofString "fleet-shim", safeSegment sessionId]

end Extension

end

namespace Extension

/-! ## The hooks -/

/-- `shQuote` (`shim.ts:139-141`). -/
def shQuote (s : String) : String := VsFleet.shQuote s

/-- `hookRelayCommand` (`shim.ts:131-136`). -/
def hookRelayCommand (reporterSocket : String) : String :=
  "printf 'claude %s\\n' \"$(cat | tr -d '\\r\\n')\" | nc -U " ++ shQuote reporterSocket ++
    " 2>/dev/null || true"

/-- `claudeHooksSettings` (`shim.ts:152-166`). -/
def claudeHooksSettings (reporterSocket : String) : Json :=
  let hooks : Json := .array [.object
    [("type", .string "command"), ("command", .string (hookRelayCommand reporterSocket))]]
  let group : Json := .object [("hooks", hooks)]
  let matchedGroup : Json := .object [("matcher", .string "*"), ("hooks", hooks)]
  .object [("hooks", .object [
    ("SessionStart", .array [group]),
    ("UserPromptSubmit", .array [group]),
    ("PreToolUse", .array [matchedGroup]),
    ("Stop", .array [group]),
    ("SessionEnd", .array [group])])]

end Extension

end VsFleet
