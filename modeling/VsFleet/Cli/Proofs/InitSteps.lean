import VsFleet.Cli.Proofs.Backups

/-!
# A call of `fleet init`, a call of `fleet uninit`

What a call returns and the disk it leaves, put together from its blocks and from what the manifest
on the disk says.
-/

namespace VsFleet

section Steps

variable {β : Type} {formats : Formats β} {cfg : InitConfig} {faults : Faults} {disk : Disk β}
  {manifest : InitManifest}

/-! ## The manifest -/

/-- What the manifest on the disk says. -/
def ManifestOn (formats : Formats β) (disk : Disk β) (path : PathBuf) (manifest : InitManifest) :
    Prop :=
  (disk path = none ∧ manifest = ⟨[]⟩) ∨
    ∃ bytes, disk path = some bytes ∧ formats.parseManifest bytes = some manifest

/-- The manifest, if it is there, can be read. -/
def CanLoad (faults : Faults) (disk : Disk β) (path : PathBuf) : Prop :=
  (disk path).isSome = true → faults .readManifest = false

/-- The manifest can be written. -/
def CanSave (formats : Formats β) (faults : Faults) (manifest : InitManifest) : Prop :=
  faults .createManifestDir = false ∧ (formats.printManifest manifest).isSome = true ∧
    faults .writeManifest = false

theorem call_load {path : PathBuf} (on : ManifestOn formats disk path manifest)
    (can : CanLoad faults disk path) :
    (InitManifest.load formats path).call faults disk = (.ok manifest, disk) := by
  rw [InitManifest.load, call_bind, call_pathExists, FileM.andThen]
  rcases on with ⟨missing, rfl⟩ | ⟨bytes, there, parsed⟩
  · rw [missing]
    rfl
  · have read := can (by rw [there]; rfl)
    simp [there, call_bind, call_readFile _ there, read, FileM.andThen, call_orThrow, parsed]

theorem call_load_error (formats : Formats β) {path : PathBuf}
    (cannot : ¬ CanLoad faults disk path) :
    (InitManifest.load formats path).call faults disk = (.error .readManifest, disk) ∧
      faults .readManifest = true := by
  obtain ⟨exists_, read⟩ := Classical.not_imp.mp cannot
  have read := eq_true_of_ne_false read
  obtain ⟨bytes, there⟩ := Option.isSome_iff_exists.mp exists_
  refine ⟨?_, read⟩
  rw [InitManifest.load, call_bind, call_pathExists, FileM.andThen]
  simp [there, call_bind, call_readFile _ there, read, FileM.andThen]

theorem call_save {path : PathBuf} {bytes : β} (can : CanSave formats faults manifest)
    (printed : formats.printManifest manifest = some bytes) :
    (manifest.save formats path).call faults disk =
      (.ok (), Function.update disk path (some bytes)) := by
  rw [InitManifest.save, call_bind, call_attempt, can.1, if_neg Bool.false_ne_true, FileM.andThen,
    call_bind, call_orThrow, printed, FileM.andThen, call_writeFile, can.2.2,
    if_neg Bool.false_ne_true]

theorem call_save_error {path : PathBuf} (cannot : ¬ CanSave formats faults manifest) :
    ∃ error, (manifest.save formats path).call faults disk = (.error error, disk) := by
  rw [InitManifest.save, call_bind, call_attempt]
  cases dir : faults .createManifestDir with
  | true => exact ⟨_, rfl⟩
  | false =>
    rw [if_neg Bool.false_ne_true, FileM.andThen, call_bind, call_orThrow]
    cases printed : formats.printManifest manifest with
    | none => exact ⟨_, rfl⟩
    | some bytes =>
      have write : faults .writeManifest = true := by
        refine eq_true_of_ne_false (fun write => cannot ⟨dir, ?_, write⟩)
        rw [printed]
        rfl
      rw [FileM.andThen, call_writeFile, write]
      exact ⟨_, rfl⟩

/-! ## A call of `fleet init` -/

/-- The config file of Claude. -/
def claudeFile (formats : Formats β) (cfg : InitConfig) : ConfigFile β :=
  .ofBlock cfg.claudeSettingsPath formats.emptyObject
    (fun bytes => (formats.parseJson bytes).map Json.keyed)
    (injectClaudeHooks cfg.reporterSocket) formats.printJson

/-- The config file of Codex. -/
def codexFile (formats : Formats β) (cfg : InitConfig) : ConfigFile β :=
  .ofBlock cfg.codexConfigPath formats.emptyText formats.parseToml
    (fun table => some (injectCodexConfig table)) formats.printToml

theorem installClaude_installed (formats : Formats β) (cfg : InitConfig) (faults : Faults)
    (disk : Disk β) (manifest : InitManifest) :
    (claudeFile formats cfg).Installed faults disk manifest
      ((installClaude formats cfg manifest).call faults disk) := installInto_installed manifest

theorem installCodex_installed (formats : Formats β) (cfg : InitConfig) (faults : Faults)
    (disk : Disk β) (manifest : InitManifest) :
    (codexFile formats cfg).Installed faults disk manifest
      ((installCodex formats cfg manifest).call faults disk) := installInto_installed manifest

/-- What a call returns and the disk it leaves. -/
inductive Inited (formats : Formats β) (cfg : InitConfig) (faults : Faults) (disk : Disk β)
    (manifest : InitManifest) : Except FileError InitResult × Disk β → Prop where
  | unread (error : FileError) (cannot : ¬ CanLoad faults disk cfg.manifestPath) :
      Inited formats cfg faults disk manifest (.error error, disk)
  | claudeFailed {error : FileError} {disk₁ : Disk β}
      (can : CanLoad faults disk cfg.manifestPath)
      (claude : (claudeFile formats cfg).Installed faults disk manifest (.error error, disk₁)) :
      Inited formats cfg faults disk manifest (.error error, disk₁)
  | codexFailed {error : FileError} {disk₁ disk₂ : Disk β} {done : InitManifest × Bool}
      (can : CanLoad faults disk cfg.manifestPath)
      (claude : (claudeFile formats cfg).Installed faults disk manifest (.ok done, disk₁))
      (codex : (codexFile formats cfg).Installed faults disk₁ done.1 (.error error, disk₂)) :
      Inited formats cfg faults disk manifest (.error error, disk₂)
  | nothing {disk₁ disk₂ : Disk β} {manifest₁ manifest₂ : InitManifest}
      (can : CanLoad faults disk cfg.manifestPath)
      (claude : (claudeFile formats cfg).Installed faults disk manifest
        (.ok (manifest₁, false), disk₁))
      (codex : (codexFile formats cfg).Installed faults disk₁ manifest₁
        (.ok (manifest₂, false), disk₂)) :
      Inited formats cfg faults disk manifest (.ok ⟨false, false, false⟩, disk₂)
  | unsaved (error : FileError) {disk₁ disk₂ : Disk β} {done₁ done₂ : InitManifest × Bool}
      (can : CanLoad faults disk cfg.manifestPath)
      (claude : (claudeFile formats cfg).Installed faults disk manifest (.ok done₁, disk₁))
      (codex : (codexFile formats cfg).Installed faults disk₁ done₁.1 (.ok done₂, disk₂))
      (cannot : ¬ CanSave formats faults done₂.1) :
      Inited formats cfg faults disk manifest (.error error, disk₂)
  | saved {disk₁ disk₂ : Disk β} {done₁ done₂ : InitManifest × Bool} {bytes : β}
      (can : CanLoad faults disk cfg.manifestPath)
      (claude : (claudeFile formats cfg).Installed faults disk manifest (.ok done₁, disk₁))
      (codex : (codexFile formats cfg).Installed faults disk₁ done₁.1 (.ok done₂, disk₂))
      (modified : (done₁.2 || done₂.2) = true) (save : CanSave formats faults done₂.1)
      (printed : formats.printManifest done₂.1 = some bytes) :
      Inited formats cfg faults disk manifest (.ok ⟨done₁.2, done₂.2, true⟩,
        Function.update disk₂ cfg.manifestPath (some bytes))

theorem doInit_inited (faults : Faults)
    (on : ManifestOn formats disk cfg.manifestPath manifest) :
    Inited formats cfg faults disk manifest ((doInit formats cfg).call faults disk) := by
  rw [doInit, call_bind]
  by_cases can : CanLoad faults disk cfg.manifestPath
  case neg =>
    rw [(call_load_error formats can).1]
    exact .unread _ can
  rw [call_load on can, FileM.andThen, call_bind]
  have claude := installClaude_installed formats cfg faults disk manifest
  rcases called : (installClaude formats cfg manifest).call faults disk with ⟨_ | done₁, disk₁⟩
  all_goals rw [called] at claude
  · exact .claudeFailed can claude
  rw [FileM.andThen, call_bind]
  have codex := installCodex_installed formats cfg faults disk₁ done₁.1
  rcases called : (installCodex formats cfg done₁.1).call faults disk₁ with ⟨_ | done₂, disk₂⟩
  all_goals rw [called] at codex
  · exact .codexFailed can claude codex
  obtain ⟨manifest₁, claudeModified⟩ := done₁
  obtain ⟨manifest₂, codexModified⟩ := done₂
  rw [FileM.andThen]
  dsimp only
  by_cases modified : (claudeModified || codexModified) = true
  · rw [if_pos modified, call_bind]
    by_cases save : CanSave formats faults manifest₂
    · obtain ⟨bytes, printed⟩ := Option.isSome_iff_exists.mp save.2.1
      rw [call_save save printed, FileM.andThen, call_pure, modified]
      exact .saved can claude codex modified save printed
    · obtain ⟨error, failed⟩ := call_save_error save
      rw [failed, FileM.andThen]
      exact .unsaved error can claude codex save
  · rw [if_neg modified, call_pure]
    obtain ⟨rfl, rfl⟩ := Bool.or_eq_false_iff.mp (Bool.eq_false_of_not_eq_true modified)
    exact .nothing can claude codex

/-! ## A call of `fleet uninit` -/

/-- An entry of the manifest is undone. -/
def undoEntry (disk : Disk β) (entry : ManifestEntry) : Disk β :=
  match entry.backup with
  | some backup =>
    match disk backup with
    | some bytes => Function.update (Function.update disk entry.target (some bytes)) backup none
    | none => Function.update disk entry.target none
  | none => Function.update disk entry.target none

/-- A file is removed if it is there. -/
theorem call_removeIfThere {α : Type} (faults : Faults) (disk : Disk β) (error : FileError)
    (path : PathBuf) (yes no : α) :
    (∃ a, (do
      if ← pathExists path then
        removeFile error path
        return yes
      else return no : FileM β α).call faults disk = (.ok a, Function.update disk path none)) ∨
      ((do
        if ← pathExists path then
          removeFile error path
          return yes
        else return no : FileM β α).call faults disk = (.error error, disk) ∧
          faults error = true) := by
  rw [call_bind, call_pathExists, FileM.andThen]
  cases there : disk path with
  | none =>
    refine Or.inl ⟨no, ?_⟩
    rw [← there, Function.update_eq_self]
    simp [there, call_pure]
  | some bytes =>
    cases failing : faults error with
    | true =>
      exact Or.inr ⟨by simp [call_map, call_removeFile, failing, FileM.andThen], rfl⟩
    | false =>
      exact Or.inl ⟨yes, by simp [call_map, call_removeFile, failing, FileM.andThen, call_pure]⟩

/-- A round of the loop undoes its entry, unless one of its operations fails. -/
theorem call_restoreEntry (faults : Faults) (disk : Disk β) (done : UninitResult)
    (entry : ManifestEntry) :
    (∃ done', (restoreEntry done entry).call faults disk = (.ok done', undoEntry disk entry)) ∨
      ∃ error disk', (restoreEntry done entry).call faults disk = (.error error, disk') ∧
        faults error = true := by
  unfold restoreEntry undoEntry
  -- the target is removed where there is no backup to put back
  have removed := call_removeIfThere faults disk (.remove entry.target) entry.target
    { done with removed := done.removed ++ [entry.target] } done
  cases entry.backup with
  | none => exact removed.imp id (fun failed => ⟨_, _, failed⟩)
  | some backup =>
    dsimp only
    rw [call_bind, call_pathExists, FileM.andThen]
    cases kept : disk backup with
    | none => exact removed.imp id (fun failed => ⟨_, _, failed⟩)
    | some bytes =>
      rw [Option.isSome_some, if_pos rfl, call_bind, call_readFile _ kept]
      cases read : faults (.readBackup backup) with
      | true => exact Or.inr ⟨_, _, rfl, read⟩
      | false =>
        rw [if_neg Bool.false_ne_true, FileM.andThen, call_bind, call_writeFile]
        cases write : faults (.restore entry.target) with
        | true => exact Or.inr ⟨_, _, rfl, write⟩
        | false =>
          rw [if_neg Bool.false_ne_true, FileM.andThen, call_bind, call_removeFile]
          cases remove : faults (.removeBackup backup) with
          | true => exact Or.inr ⟨_, _, rfl, remove⟩
          | false => exact Or.inl ⟨_, rfl⟩

theorem call_restoreEntries (faults : Faults) (entries : List ManifestEntry) :
    ∀ (done : UninitResult) (disk : Disk β),
      (∃ done', (entries.foldlM restoreEntry done).call faults disk =
        (.ok done', entries.foldl undoEntry disk)) ∨
      ∃ error disk', (entries.foldlM restoreEntry done).call faults disk = (.error error, disk') ∧
        faults error = true := by
  induction entries with
  | nil => exact fun done disk => Or.inl ⟨done, rfl⟩
  | cons entry entries ih =>
    intro done disk
    rw [List.foldlM_cons, call_bind, List.foldl_cons]
    rcases call_restoreEntry faults disk done entry with ⟨done', ok⟩ | ⟨error, disk', failed, fault⟩
    · rw [ok]
      exact ih done' (undoEntry disk entry)
    · rw [failed]
      exact Or.inr ⟨error, disk', rfl, fault⟩

/-- A call undoes every entry of the manifest and removes it, unless one of its operations fails. -/
theorem call_doUninit (faults : Faults)
    (on : ManifestOn formats disk cfg.manifestPath manifest) :
    (∃ done, (doUninit formats cfg).call faults disk = (.ok done,
        Function.update (manifest.entries.foldl undoEntry disk) cfg.manifestPath none)) ∨
      ∃ error disk', (doUninit formats cfg).call faults disk = (.error error, disk') ∧
        faults error = true := by
  rw [doUninit, call_bind]
  by_cases can : CanLoad faults disk cfg.manifestPath
  case neg =>
    obtain ⟨failed, fault⟩ := call_load_error formats can
    rw [failed]
    exact Or.inr ⟨_, _, rfl, fault⟩
  rw [call_load on can, FileM.andThen, call_bind]
  rcases call_restoreEntries faults manifest.entries ⟨[], []⟩ disk with
    ⟨done, ok⟩ | ⟨error, disk', failed, fault⟩
  · rw [ok, FileM.andThen]
    rcases call_removeIfThere faults (manifest.entries.foldl undoEntry disk) .removeManifest
      cfg.manifestPath done done with ⟨done', ok⟩ | failed
    · exact Or.inl ⟨done', ok⟩
    · exact Or.inr ⟨_, _, failed⟩
  · rw [failed]
    exact Or.inr ⟨error, disk', rfl, fault⟩

end Steps

end VsFleet
