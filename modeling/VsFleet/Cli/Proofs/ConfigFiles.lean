import VsFleet.Cli.Proofs.HookIdempotence
import VsFleet.Cli.Proofs.Tracking

/-!
# The two config files

The config files of Claude and of Codex are two files apart, each with its backup, and an edit of
either leaves contents that the next has nothing to change in.
-/

namespace VsFleet

open ConfigFile

/-! ## Paths -/

theorem backupPath_append (home : PathBuf) (dir name : String) :
    backupPath (home ++ [dir, name]) = home ++ [dir, name ++ ".fleet-backup"] := by
  have last : home ++ [dir, name] = (home ++ [dir]) ++ [name] := by simp
  rw [backupPath, last, List.dropLast_concat, List.getLastD_concat]
  simp

/-- The manifest, the two config files and their backups are five files. -/
structure FiveFiles {β : Type} (claude codex : ConfigFile β) (manifest : PathBuf) : Prop where
  claude_ne : claude.path ≠ claude.backup
  codex_ne : codex.path ≠ codex.backup
  apart : ∀ path, claude.Owns path → ¬ codex.Owns path
  manifest_claude : ¬ claude.Owns manifest
  manifest_codex : ¬ codex.Owns manifest

theorem FiveFiles.claude_ne_manifest {β : Type} {claude codex : ConfigFile β} {manifest : PathBuf}
    (five : FiveFiles claude codex manifest) {path : PathBuf} (own : claude.Owns path) :
    path ≠ manifest := fun same => five.manifest_claude (same ▸ own)

theorem FiveFiles.codex_ne_manifest {β : Type} {claude codex : ConfigFile β} {manifest : PathBuf}
    (five : FiveFiles claude codex manifest) {path : PathBuf} (own : codex.Owns path) :
    path ≠ manifest := fun same => five.manifest_codex (same ▸ own)

theorem fiveFiles {β : Type} (formats : Formats β) (cfg : InitConfig) :
    FiveFiles (claudeFile formats cfg) (codexFile formats cfg) cfg.manifestPath := by
  have claude : (claudeFile formats cfg).path = cfg.homeDir ++ [".claude", "settings.json"] := rfl
  have codex : (codexFile formats cfg).path = cfg.homeDir ++ [".codex", "config.toml"] := rfl
  have claude' : (claudeFile formats cfg).backup =
      cfg.homeDir ++ [".claude", "settings.json" ++ ".fleet-backup"] := backupPath_append _ _ _
  have codex' : (codexFile formats cfg).backup =
      cfg.homeDir ++ [".codex", "config.toml" ++ ".fleet-backup"] := backupPath_append _ _ _
  have manifest : cfg.manifestPath =
      cfg.homeDir ++ [".config", "fleet", "init-manifest.json"] := rfl
  refine ⟨?_, ?_, ?_, ?_, ?_⟩
  · rw [claude, claude', ne_eq, List.append_cancel_left_eq]
    decide
  · rw [codex, codex', ne_eq, List.append_cancel_left_eq]
    decide
  · unfold Owns
    rw [claude, claude', codex, codex']
    rintro path (rfl | rfl) (same | same) <;> rw [List.append_cancel_left_eq] at same <;>
      exact absurd same (by decide)
  · unfold Owns
    rw [claude, claude', manifest, List.append_cancel_left_eq, List.append_cancel_left_eq]
    decide
  · unfold Owns
    rw [codex, codex', manifest, List.append_cancel_left_eq, List.append_cancel_left_eq]
    decide

/-! ## The formats -/

/-- What the serde crates promise of the texts they read and print. -/
structure Formats.Lawful {β : Type} (formats : Formats β) : Prop where
  json : ∀ v bytes, v.IsKeyed → formats.printJson v = some bytes → formats.parseJson bytes = some v
  emptyObject : formats.parseJson formats.emptyObject = some (.object [])
  ordered : ∀ bytes table, formats.parseToml bytes = some table → (Toml.table table).Ordered
  toml : ∀ table bytes, (Toml.table table).Ordered → formats.printToml table = some bytes →
    formats.parseToml bytes = some table
  manifest : ∀ manifest, ∃ bytes, formats.printManifest manifest = some bytes ∧
    formats.parseManifest bytes = some manifest

/-- There is nothing in the way in what stands for missing settings. -/
theorem Formats.Lawful.mergeable_emptyObject {β : Type} {formats : Formats β}
    (lawful : formats.Lawful) : ∀ v, formats.parseJson formats.emptyObject = some v →
      RelayedEntriesMergeable v.keyed := by
  intro v parsed
  cases lawful.emptyObject.symm.trans parsed
  intro fields hooksObj same there
  cases Json.object.inj same
  cases there

/-- Texts by what they read as. -/
inductive ReadText where
  | json (v : Json)
  | toml (table : TomlTable)
  | manifest (manifest : InitManifest)
  | malformed

/-- Formats in which a text is what it reads as. -/
def readFormats : Formats ReadText where
  parseJson
    | .json v => some v
    | _ => none
  printJson v := some (.json v)
  parseToml
    | .toml table => if (Toml.table table).Ordered then some table else none
    | _ => none
  printToml table := some (.toml table)
  parseManifest
    | .manifest manifest => some manifest
    | _ => none
  printManifest manifest := some (.manifest manifest)
  emptyObject := .json (.object [])
  emptyText := .toml []

theorem readFormats_lawful : readFormats.Lawful where
  json v bytes _ printed := by
    cases printed
    rfl
  emptyObject := rfl
  ordered bytes table parsed := by
    cases bytes with
    | toml table' =>
      obtain ⟨ordered, same⟩ := Option.ite_none_right_eq_some.mp parsed
      exact Option.some.inj same ▸ ordered
    | json | manifest | malformed => cases parsed
  toml table bytes ordered printed := by
    cases printed
    exact if_pos ordered
  manifest manifest := ⟨.manifest manifest, rfl, rfl⟩

section Settled

variable {β : Type} {formats : Formats β} {cfg : InitConfig} {bytes new : β}

/-- Settings into which the hooks have been put need no change. -/
theorem claudeFile_settled (lawful : formats.Lawful)
    (mergeable : ∀ v, formats.parseJson bytes = some v → RelayedEntriesMergeable v.keyed)
    (changed : (claudeFile formats cfg).edit bytes = .changed (some new)) :
    (claudeFile formats cfg).edit new = .unchanged := by
  unfold claudeFile ofBlock at changed ⊢
  dsimp only at changed ⊢
  cases parsed : formats.parseJson bytes with
  | none =>
    rw [parsed] at changed
    cases changed
  | some v =>
    rw [parsed, Option.map_some] at changed
    dsimp only at changed
    rcases injected : injectClaudeHooks cfg.reporterSocket v.keyed with _ | ⟨_ | _, v'⟩
    · rw [injected] at changed
      cases changed
    · rw [injected] at changed
      cases changed
    · rw [injected] at changed
      obtain ⟨value, hooked⟩ :=
        injectClaudeHooks_hooked injected v.keyed_keyed (mergeable v parsed)
      rw [lawful.json v' new value (FileEdit.changed.inj changed), Option.map_some, value]
      dsimp only
      unfold injectClaudeHooks
      rw [if_pos hooked]

/-- A config into which the hooks have been put needs no change. -/
theorem codexFile_settled (lawful : formats.Lawful)
    (changed : (codexFile formats cfg).edit bytes = .changed (some new)) :
    (codexFile formats cfg).edit new = .unchanged := by
  unfold codexFile ofBlock at changed ⊢
  dsimp only at changed ⊢
  cases parsed : formats.parseToml bytes with
  | none =>
    rw [parsed] at changed
    cases changed
  | some table =>
    rw [parsed] at changed
    dsimp only at changed
    have ordered := injectCodexConfig_ordered (lawful.ordered bytes table parsed)
    have again := injectCodexConfig_again table
    rcases injected : injectCodexConfig table with ⟨_ | _, table'⟩
    · rw [injected] at changed
      cases changed
    · rw [injected] at changed ordered again
      rw [lawful.toml table' new ordered (FileEdit.changed.inj changed)]
      dsimp only at again ⊢
      rcases injected' : injectCodexConfig table' with ⟨_ | _, table''⟩
      · rfl
      · rw [injected'] at again
        cases again

end Settled

end VsFleet
