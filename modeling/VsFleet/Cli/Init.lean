import VsFleet.Cli.HookConfig
import Mathlib.Logic.Function.Basic

/-!
# `fleet init` and `fleet uninit`

The config writers (`fleet-cli/src/init.rs`) over the files they touch: the two config files, a
backup of each, and the manifest that says what was touched. What the text of a file reads as is
left to the parsers and printers of the serde crates; any operation on a file may fail, and then
changes nothing.
-/

namespace VsFleet

/-- A path, by its components. -/
abbrev PathBuf := List String

/-- The files, by path; `β` is what a file can hold. -/
abbrev Disk (β : Type) := PathBuf → Option β

/-- `ManifestEntry` (`init.rs:75-81`). -/
structure ManifestEntry where
  target : PathBuf
  backup : Option PathBuf
  deriving DecidableEq, Repr

/-- `InitManifest` (`init.rs:85-87`). -/
structure InitManifest where
  entries : List ManifestEntry
  deriving DecidableEq, Repr

/-- The contexts of the errors, each of the operation that it is the error of. -/
inductive FileError where
  | readManifest
  | parseManifest
  | createManifestDir
  | serialiseManifest
  | writeManifest
  | removeManifest
  | createDir (path : PathBuf)
  | read (path : PathBuf)
  | parse (path : PathBuf)
  | readForBackup (path : PathBuf)
  | createBackupDir (path : PathBuf)
  | writeBackup (path : PathBuf)
  | serialise (path : PathBuf)
  | write (path : PathBuf)
  | readBackup (path : PathBuf)
  | restore (path : PathBuf)
  | removeBackup (path : PathBuf)
  | remove (path : PathBuf)
  -- an `unwrap` of something else than an object
  | panic
  deriving DecidableEq, Repr

/-- The operations of a call that fail. -/
abbrev Faults := FileError → Bool

/-- A computation on the files. -/
abbrev FileM (β : Type) := ReaderT Faults (ExceptT FileError (StateM (Disk β)))

/-- The parsers and printers of the serde crates, each `none` on an error: of a JSON text as the
tree of its entries, the numbers as they are read, and as `toml::Table` and the manifest. -/
structure Formats (β : Type) where
  parseJson : β → Option Json
  printJson : Json → Option β
  parseToml : β → Option TomlTable
  printToml : TomlTable → Option β
  parseManifest : β → Option InitManifest
  printManifest : InitManifest → Option β
  -- `b"{}"` and the empty string, which stand for a missing file
  emptyObject : β
  emptyText : β

/-- `InitConfig` (`init.rs:112-120`), with the reporter socket in effect. -/
structure InitConfig where
  homeDir : PathBuf
  reporterSocket : String

namespace InitConfig

variable (cfg : InitConfig)

/-- `claude_settings_path` (`init.rs:131-133`). -/
def claudeSettingsPath : PathBuf := cfg.homeDir ++ [".claude", "settings.json"]

/-- `codex_config_path` (`init.rs:136-138`). -/
def codexConfigPath : PathBuf := cfg.homeDir ++ [".codex", "config.toml"]

/-- `manifest_path` (`init.rs:141-146`). -/
def manifestPath : PathBuf := cfg.homeDir ++ [".config", "fleet", "init-manifest.json"]

end InitConfig

section Operations

variable {β : Type}

/-- An operation is tried; it fails with its error. -/
def attempt (error : FileError) : FileM β Unit := do
  if (← read) error then throw error

/-- `Path::exists`. -/
def pathExists (path : PathBuf) : FileM β Bool := do return ((← get) path).isSome

/-- What is there, or the error. -/
def orThrow {α : Type} (error : FileError) : Option α → FileM β α
  | some a => return a
  | none => throw error

/-- The contents of a file; the read may fail. -/
def readFile (error : FileError) (path : PathBuf) : FileM β β := do
  attempt error
  orThrow error ((← get) path)

/-- A file is written whole; the write may fail. -/
def writeFile (error : FileError) (path : PathBuf) (contents : β) : FileM β Unit := do
  attempt error
  modify (fun disk => Function.update disk path (some contents))

/-- A file is removed; that may fail. -/
def removeFile (error : FileError) (path : PathBuf) : FileM β Unit := do
  attempt error
  modify (fun disk => Function.update disk path none)

/-- `InitManifest::load` (`init.rs:90-96`). -/
def InitManifest.load (formats : Formats β) (path : PathBuf) : FileM β InitManifest := do
  if ← pathExists path then
    let bytes ← readFile .readManifest path
    orThrow .parseManifest (formats.parseManifest bytes)
  else return ⟨[]⟩

/-- `InitManifest::save` (`init.rs:98-102`). -/
def InitManifest.save (manifest : InitManifest) (formats : Formats β) (path : PathBuf) :
    FileM β Unit := do
  attempt .createManifestDir
  let bytes ← orThrow .serialiseManifest (formats.printManifest manifest)
  writeFile .writeManifest path bytes

/-- `backup_path` (`init.rs:487-493`). -/
def backupPath (target : PathBuf) : PathBuf :=
  target.dropLast ++ [target.getLastD "" ++ ".fleet-backup"]

/-- `maybe_backup` (`init.rs:498-511`). -/
def maybeBackup (target backup : PathBuf) : FileM β (Option PathBuf) := do
  if ← pathExists target then
    unless ← pathExists backup do
      let bytes ← readFile (.readForBackup target) target
      attempt (.createBackupDir backup)
      writeFile (.writeBackup backup) backup bytes
    return some backup
  else return none

/-- A file is recorded only if it is not there already (`init.rs:572-577`, `init.rs:606-611`). -/
def InitManifest.record (manifest : InitManifest) (target : PathBuf) (backup : Option PathBuf) :
    InitManifest :=
  if manifest.entries.any (fun e => e.target = target) then manifest
  else ⟨manifest.entries ++ [⟨target, backup⟩]⟩

/-- The contents of a config file, or what stands for a missing one (`init.rs:555-559`,
`init.rs:590-594`). -/
def readExisting (path : PathBuf) (whenMissing : β) : FileM β β := do
  if ← pathExists path then readFile (.read path) path
  else return whenMissing

/-- One of the two blocks of `do_init`: a config file is read, edited, backed up, written and
recorded, with whether it was modified. -/
def installInto {V : Type} (path : PathBuf) (whenMissing : β) (parse : β → Option V)
    (inject : V → Option (Bool × V)) (print : V → Option β) (manifest : InitManifest) :
    FileM β (InitManifest × Bool) := do
  let backup := backupPath path
  attempt (.createDir path)
  let existing ← readExisting path whenMissing
  let value ← orThrow (.parse path) (parse existing)
  let injected ← orThrow .panic (inject value)
  if injected.1 then
    let backupOpt ← maybeBackup path backup
    let newBytes ← orThrow (.serialise path) (print injected.2)
    writeFile (.write path) path newBytes
    return (manifest.record path backupOpt, true)
  else return (manifest, false)

/-- `InitResult` (`init.rs:517-524`). -/
structure InitResult where
  claudeModified : Bool
  codexModified : Bool
  manifestWritten : Bool
  deriving DecidableEq, Repr

/-- `UninitResult` (`init.rs:528-533`). -/
structure UninitResult where
  restored : List PathBuf
  removed : List PathBuf
  deriving DecidableEq, Repr

variable (formats : Formats β) (cfg : InitConfig)

/-- The block of Claude (`init.rs:547-580`). -/
def installClaude (manifest : InitManifest) : FileM β (InitManifest × Bool) :=
  installInto cfg.claudeSettingsPath formats.emptyObject
    (fun bytes => (formats.parseJson bytes).map Json.keyed)
    (injectClaudeHooks cfg.reporterSocket) formats.printJson manifest

/-- The block of Codex (`init.rs:583-614`). -/
def installCodex (manifest : InitManifest) : FileM β (InitManifest × Bool) :=
  installInto cfg.codexConfigPath formats.emptyText formats.parseToml
    (fun table => some (injectCodexConfig table)) formats.printToml manifest

/-- `do_init` (`init.rs:540-627`). -/
def doInit : FileM β InitResult := do
  let manifest ← InitManifest.load formats cfg.manifestPath
  let (manifest, claudeModified) ← installClaude formats cfg manifest
  let (manifest, codexModified) ← installCodex formats cfg manifest
  let manifestWritten := claudeModified || codexModified
  if manifestWritten then manifest.save formats cfg.manifestPath
  return ⟨claudeModified, codexModified, manifestWritten⟩

/-- One round of the loop of `do_uninit` (`init.rs:638-668`). -/
def restoreEntry (done : UninitResult) (entry : ManifestEntry) : FileM β UninitResult := do
  match entry.backup with
  | some backup =>
    if ← pathExists backup then
      let bytes ← readFile (.readBackup backup) backup
      writeFile (.restore entry.target) entry.target bytes
      removeFile (.removeBackup backup) backup
      return { done with restored := done.restored ++ [entry.target] }
    else if ← pathExists entry.target then
      removeFile (.remove entry.target) entry.target
      return { done with removed := done.removed ++ [entry.target] }
    else return done
  | none =>
    if ← pathExists entry.target then
      removeFile (.remove entry.target) entry.target
      return { done with removed := done.removed ++ [entry.target] }
    else return done

/-- `do_uninit` (`init.rs:631-677`). -/
def doUninit : FileM β UninitResult := do
  let manifest ← InitManifest.load formats cfg.manifestPath
  let done ← manifest.entries.foldlM restoreEntry ⟨[], []⟩
  if ← pathExists cfg.manifestPath then removeFile .removeManifest cfg.manifestPath
  return done

end Operations

/-- A call on the disk: what it returns and the disk it leaves. -/
def FileM.call {β α : Type} (f : FileM β α) (faults : Faults) (disk : Disk β) :
    Except FileError α × Disk β := f faults disk

end VsFleet
