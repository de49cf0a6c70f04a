import VsFleet.Misc.Json
import VsFleet.Misc.Toml
import Mathlib.Data.List.Infix

/-!
# The hook configuration of the tools

What `fleet init` puts into the config files of the tools (`fleet-cli/src/init.rs`): its hooks,
beside those that are there, in the settings of Claude, and its hooks and two switches in the config
of Codex.
-/

namespace VsFleet

/-! ## Claude -/

/-- `FLEET_MARKER` (`init.rs:166`). -/
def fleetMarker : String := "fleet-managed"

/-- `sh_quote` (`init.rs:170-172`). -/
def shQuote (s : String) : String :=
  "'" ++ String.join (s.toList.map (fun c => if c = '\'' then "'\\''" else c.toString)) ++ "'"

/-- The hook of an event, as a value (`init.rs:196-217`). -/
def claudeHook (reporterSocket hookType : String) : Json :=
  .object [
    ("command", .string ("printf 'claude %s\\n' \"$(cat | tr -d '\\r\\n')\" | nc -U " ++
      shQuote reporterSocket ++ " 2>/dev/null || true")),
    ("description", .string ("fleet: relay " ++ hookType ++ " to reporter")),
    ("tags", .array [.string fleetMarker]),
    ("type", .string "command")]

/-- The events of the hooks, in key order. -/
def claudeHookEvents : List String :=
  ["PreToolUse", "SessionEnd", "SessionStart", "Stop", "UserPromptSubmit"]

/-- `build_claude_hooks` (`init.rs:183-226`). -/
def buildClaudeHooks (reporterSocket : String) : List (String × Json) :=
  claudeHookEvents.map (fun hookType =>
    (hookType, .object [("hooks", .array [claudeHook reporterSocket hookType])]))

/-- The entry of a hooks array is tagged as Fleet's. -/
def taggedFleet (entry : Json) : Bool :=
  match entry.get? "tags" with
  | some (.array tags) => tags.any (fun t => t.asString = some fleetMarker)
  | _ => false

/-- `claude_settings_has_fleet_hooks` (`init.rs:229-246`). -/
def claudeSettingsHasFleetHooks (value : Json) : Bool :=
  match value.get? "hooks" with
  | some (.object hooksObj) => hooksObj.any (fun hookVal =>
    match hookVal.2.get? "hooks" with
    | some (.array hooksArr) => hooksArr.any taggedFleet
    | _ => false)
  | _ => false

/-- One round of the loop of `inject_claude_hooks` (`init.rs:265-286`); `none` is a panic. -/
def mergeClaudeHook (hooksObj : List (String × Json)) (fleet : String × Json) :
    Option (List (String × Json)) :=
  let fleetInner := match fleet.2.get? "hooks" with
    | some (.array items) => items
    | _ => []
  match (SortedMap.get? hooksObj fleet.1).getD (.object []) with
  | .object existing =>
    let existingHooks := match (SortedMap.get? existing "hooks").getD (.array []) with
      | .array arr => .array (arr ++ fleetInner)
      | other => other
    let entry := Json.object (SortedMap.insert "hooks" existingHooks existing)
    some (SortedMap.insert fleet.1 entry hooksObj)
  | _ => none

/-- `inject_claude_hooks` (`init.rs:251-288`), with whether anything was modified; `none` is a
panic. -/
def injectClaudeHooks (reporterSocket : String) (value : Json) : Option (Bool × Json) :=
  if claudeSettingsHasFleetHooks value then some (false, value)
  else
    match value with
    | .object fields =>
      match (SortedMap.get? fields "hooks").getD (.object []) with
      | .object hooksObj =>
        ((buildClaudeHooks reporterSocket).foldlM mergeClaudeHook hooksObj).map (fun hooksObj =>
          (true, .object (SortedMap.insert "hooks" (.object hooksObj) fields)))
      | _ => none
    | _ => none

/-! ## Codex -/

/-- `FLEET_CODEX_MARKER` (`init.rs:342`). -/
def fleetCodexMarker : String := "fleet-managed-codex-hook"

/-- `CODEX_HOOK_EVENTS` (`init.rs:347-355`). -/
def codexHookEvents : List String :=
  ["SessionStart", "UserPromptSubmit", "PreToolUse", "PostToolUse", "Stop", "SessionEnd",
    "PermissionRequest"]

/-- `codex_hook_relay_command` (`init.rs:361-365`). -/
def codexHookRelayCommand : String :=
  "printf 'codex %s\\n' \"$(cat | tr -d '\\r\\n')\" | nc -U \"$FLEET_REPORTER_SOCKET\" " ++
    "2>/dev/null || true # " ++ fleetCodexMarker

/-- `fleet_codex_hook_group` (`init.rs:368-381`). -/
def fleetCodexHookGroup : Toml :=
  .table [("hooks", .array [.table [("command", .string codexHookRelayCommand),
    ("type", .string "command")]])]

/-- `str::contains`. -/
def containsText (text pattern : String) : Bool := pattern.toList <:+: text.toList

/-- `event_array_has_fleet_hook` (`init.rs:384-399`). -/
def eventArrayHasFleetHook (arr : List Toml) : Bool :=
  arr.any (fun group =>
    match (group.get? "hooks").bind Toml.asArray with
    | some hooks => hooks.any (fun h =>
      match (h.get? "command").bind Toml.asString with
      | some command => containsText command fleetCodexMarker
      | none => false)
    | none => false)

/-- A switch of a section is turned on, unless the section is no table (`init.rs:434-444`,
`init.rs:447-457`). -/
def switchOn (sectionKey key : String) (table : TomlTable) : Bool × TomlTable :=
  match (SortedMap.get? table sectionKey).getD (.table []) with
  | .table entries =>
    if (SortedMap.get? entries key).bind Toml.asBool ≠ some true then
      let switched := Toml.table (SortedMap.insert key (.boolean true) entries)
      (true, SortedMap.insert sectionKey switched table)
    else (false, SortedMap.insert sectionKey (.table entries) table)
  | other => (false, SortedMap.insert sectionKey other table)

/-- The hook of Fleet is put behind those of an event, unless the event has no array
(`init.rs:467-477`). -/
def addCodexHook (hooks : TomlTable) (ev : String) : Bool × TomlTable :=
  match (SortedMap.get? hooks ev).getD (.array []) with
  | .array arr =>
    if eventArrayHasFleetHook arr then (false, SortedMap.insert ev (.array arr) hooks)
    else (true, SortedMap.insert ev (.array (arr ++ [fleetCodexHookGroup])) hooks)
  | other => (false, SortedMap.insert ev other hooks)

/-- The rounds of the loop over the events. -/
def addCodexHooks (hooks : TomlTable) (events : List String) : Bool × TomlTable :=
  events.foldl (fun acc ev =>
    let added := addCodexHook acc.2 ev
    (acc.1 || added.1, added.2)) (false, hooks)

/-- The hooks section (`init.rs:462-479`). -/
def hookEvents (table : TomlTable) : Bool × TomlTable :=
  match (SortedMap.get? table "hooks").getD (.table []) with
  | .table hooks =>
    let added := addCodexHooks hooks codexHookEvents
    (added.1, SortedMap.insert "hooks" (.table added.2) table)
  | other => (false, SortedMap.insert "hooks" other table)

/-- `inject_codex_config` (`init.rs:430-482`), with whether anything was modified. -/
def injectCodexConfig (table : TomlTable) : Bool × TomlTable :=
  let features := switchOn "features" "hooks" table
  let tui := switchOn "tui" "notifications" features.2
  let hooks := hookEvents tui.2
  (features.1 || tui.1 || hooks.1, hooks.2)

end VsFleet
