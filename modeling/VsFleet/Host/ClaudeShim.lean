import VsFleet.Cli.HookConfig

/-!
# The `claude` shim

The script a spawned server's terminal runs as `claude`, and the hooks it passes on
(`fleet-host/src/spawn.rs`).
-/

namespace VsFleet

/-- `shq` (`spawn.rs:1898-1900`). -/
def shq (s : String) : String := shQuote s

/-- The shim script up to the shim dir. -/
def shimScriptHead : String :=
  "#!/bin/sh\n" ++
  "# fleet-host-claude-shim\n" ++
  "# Fleet adds lifecycle hooks for this server, then execs the selected claude.\n" ++
  "# Remove only Fleet's shim dir from PATH first so downstream wrappers that call\n" ++
  "# `claude` do not resolve back to this shim and stack --settings recursively.\n" ++
  "fleet_shim_dir="

/-- From the line behind it to the first `exec`. -/
def shimScriptBody : String :=
  "clean_path=\"\"\n" ++
  "saved_ifs=$IFS\n" ++
  "IFS=:\n" ++
  "for dir in $PATH; do\n" ++
  "  [ -n \"$dir\" ] || continue\n" ++
  "  [ \"$dir\" = \"$fleet_shim_dir\" ] && continue\n" ++
  "  if [ -z \"$clean_path\" ]; then\n" ++
  "    clean_path=\"$dir\"\n" ++
  "  else\n" ++
  "    clean_path=\"$clean_path:$dir\"\n" ++
  "  fi\n" ++
  "done\n" ++
  "IFS=$saved_ifs\n" ++
  "PATH=\"$clean_path\"\n" ++
  "export PATH\n" ++
  "\n" ++
  "if [ \"$\x7bFLEET_CLAUDE_SHIM_ACTIVE:-\x7d\" = \"1\" ]; then\n" ++
  "  exec "

/-- From the arguments of the first `exec` to the second. -/
def shimScriptTail : String :=
  "\"$@\"\n" ++
  "fi\n" ++
  "export FLEET_CLAUDE_SHIM_ACTIVE=1\n" ++
  "exec "

/-- `claude_shim_script` (`spawn.rs:1704-1738`). -/
def claudeShimScript (real hooksFile shimDir : String) : String :=
  shimScriptHead ++ shq shimDir ++ "\n" ++ shimScriptBody ++ shq real ++ " " ++ shimScriptTail ++
    shq real ++ " " ++ "--settings " ++ shq hooksFile ++ " " ++ "\"$@\"\n"

/-- `claude_hooks_settings` (`spawn.rs:1767-1785`), in key order. -/
def claudeHooksSettings (reporterSocket : String) : Json :=
  let relay := "printf 'claude %s\\n' \"$(cat | tr -d '\\r\\n')\" | nc -U '" ++ reporterSocket ++
    "' 2>/dev/null || true"
  let hooks : Json := .array [.object [("command", .string relay), ("type", .string "command")]]
  let plain : Json := .array [.object [("hooks", hooks)]]
  let matched : Json := .array [.object [("hooks", hooks), ("matcher", .string "*")]]
  .object [("hooks", .object [
    ("PostToolUse", matched),
    ("PreToolUse", matched),
    ("SessionEnd", plain),
    ("SessionStart", plain),
    ("Stop", plain),
    ("UserPromptSubmit", plain)])]

end VsFleet
