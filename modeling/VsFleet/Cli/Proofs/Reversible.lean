import VsFleet.Cli.Proofs.ConfigFiles
import VsFleet.Misc.Runs

/-!
# Undoing `fleet init`

The manifest is saved at the end of a call, so nothing tells of what a call has done before it
fails: the two config files can be put back exactly where no call fails after it has begun to change
a file that is not recorded.
-/

namespace VsFleet

open ConfigFile

section Reversible

variable {β : Type} {formats : Formats β} {cfg : InitConfig} {faults : Faults}
  {disk disk' disk₁ disk₂ : Disk β} {manifest manifest' : InitManifest} {orig₁ orig₂ : Option β}

/-- The manifest file can be written. -/
def CanWriteManifest (faults : Faults) : Prop :=
  faults .createManifestDir = false ∧ faults .writeManifest = false

/-- A call that begins to change a file that is not recorded comes to its end. -/
def EndsWhatItBegins (formats : Formats β) (cfg : InitConfig) (disk : Disk β) (faults : Faults) :
    Prop :=
  CanLoad faults disk cfg.manifestPath → ∀ manifest,
    ManifestOn formats disk cfg.manifestPath manifest →
    ((claudeFile formats cfg).Starts faults disk manifest.entries →
      (claudeFile formats cfg).Passes faults disk ∧ (codexFile formats cfg).Passes faults disk ∧
        CanWriteManifest faults) ∧
    ((claudeFile formats cfg).Passes faults disk →
      (codexFile formats cfg).Starts faults disk manifest.entries →
      (codexFile formats cfg).Passes faults disk ∧ CanWriteManifest faults)

/-- The disk after a call. -/
def initDisk (formats : Formats β) (cfg : InitConfig) (disk : Disk β) (faults : Faults) : Disk β :=
  ((doInit formats cfg).call faults disk).2

/-- Both files are in step with a manifest. -/
structure FilesInStep (formats : Formats β) (cfg : InitConfig) (orig₁ orig₂ : Option β)
    (disk : Disk β) (manifest : InitManifest) : Prop where
  wrote : ∀ e ∈ manifest.entries,
    (claudeFile formats cfg).Wrote e ∨ (codexFile formats cfg).Wrote e
  claude : (claudeFile formats cfg).Tracked orig₁ disk manifest.entries
  codex : (codexFile formats cfg).Tracked orig₂ disk manifest.entries

/-- One of them has been changed without the manifest telling. -/
structure FilesOutOfStep (formats : Formats β) (cfg : InitConfig) (orig₁ orig₂ : Option β)
    (disk : Disk β) (manifest : InitManifest) : Prop where
  wrote : ∀ e ∈ manifest.entries,
    (claudeFile formats cfg).Wrote e ∨ (codexFile formats cfg).Wrote e
  stray : (claudeFile formats cfg).Stray orig₁ disk manifest.entries ∨
    (codexFile formats cfg).Stray orig₂ disk manifest.entries

/-- Both files are as they were, without backups. -/
structure PutBack (formats : Formats β) (cfg : InitConfig) (orig₁ orig₂ : Option β)
    (disk : Disk β) : Prop where
  claude : disk cfg.claudeSettingsPath = orig₁
  codex : disk cfg.codexConfigPath = orig₂
  claudeBackup : disk (backupPath cfg.claudeSettingsPath) = none
  codexBackup : disk (backupPath cfg.codexConfigPath) = none

/-- However `fleet uninit` comes to its end, it puts both files back. -/
def Undone (formats : Formats β) (cfg : InitConfig) (orig₁ orig₂ : Option β) (disk : Disk β) :
    Prop :=
  ∀ faults done disk', (doUninit formats cfg).call faults disk = (.ok done, disk') →
    PutBack formats cfg orig₁ orig₂ disk'

theorem ManifestOn.congr {path : PathBuf} (on : ManifestOn formats disk path manifest)
    (same : disk' path = disk path) : ManifestOn formats disk' path manifest := by
  unfold ManifestOn at on ⊢
  rwa [same]

theorem ManifestOn.unique {path : PathBuf} (on : ManifestOn formats disk path manifest)
    (on' : ManifestOn formats disk path manifest') : manifest = manifest' := by
  rcases on with ⟨missing, rfl⟩ | ⟨bytes, there, parsed⟩
  · rcases on' with ⟨-, rfl⟩ | ⟨bytes', there', -⟩
    · rfl
    · cases missing.symm.trans there'
  · rcases on' with ⟨missing, -⟩ | ⟨bytes', there', parsed'⟩
    · cases missing.symm.trans there
    · obtain rfl := Option.some.inj (there.symm.trans there')
      exact Option.some.inj (parsed.symm.trans parsed')

/-! ## One call -/

/-- Where the files are in step, the condition is about the manifest that is on the disk. -/
theorem endsWhatItBegins_of (on : ManifestOn formats disk cfg.manifestPath manifest)
    (claude : (claudeFile formats cfg).Starts faults disk manifest.entries →
      (claudeFile formats cfg).Passes faults disk ∧ (codexFile formats cfg).Passes faults disk ∧
        CanWriteManifest faults)
    (codex : (claudeFile formats cfg).Passes faults disk →
      (codexFile formats cfg).Starts faults disk manifest.entries →
      (codexFile formats cfg).Passes faults disk ∧ CanWriteManifest faults) :
    EndsWhatItBegins formats cfg disk faults := by
  intro _ manifest' on'
  rw [on'.unique on]
  exact ⟨claude, codex⟩

/-- The files stay in step with what a block that comes to its end returns. -/
theorem FilesInStep.installClaude (lawful : formats.Lawful)
    (h : FilesInStep formats cfg orig₁ orig₂ disk manifest) {modified : Bool}
    (done : (claudeFile formats cfg).Installed faults disk manifest
      (.ok (manifest', modified), disk')) :
    FilesInStep formats cfg orig₁ orig₂ disk' manifest' ∧
      (claudeFile formats cfg).Progress orig₁ faults disk disk' manifest manifest' modified := by
  have five := fiveFiles formats cfg
  have progress := h.claude.progress five.claude_ne
    (fun new => claudeFile_settled lawful lawful.mergeable_emptyObject) done
  refine ⟨⟨progress.wrote h.wrote, progress.tracked, ?_⟩, progress⟩
  exact h.codex.congr (fun path own => done.frame (fun mine => five.apart path mine own))
    (progress.entriesOf_other (fun same => five.apart _ (Or.inl same) (Or.inl rfl)))

theorem FilesInStep.installCodex (lawful : formats.Lawful)
    (h : FilesInStep formats cfg orig₁ orig₂ disk manifest) {modified : Bool}
    (done : (codexFile formats cfg).Installed faults disk manifest
      (.ok (manifest', modified), disk')) :
    FilesInStep formats cfg orig₁ orig₂ disk' manifest' ∧
      (codexFile formats cfg).Progress orig₂ faults disk disk' manifest manifest' modified := by
  have five := fiveFiles formats cfg
  have progress := h.codex.progress five.codex_ne
    (fun new => codexFile_settled lawful) done
  have wrote := progress.wrote (fun e mem => (h.wrote e mem).symm)
  refine ⟨⟨fun e mem => (wrote e mem).symm, ?_, progress.tracked⟩, progress⟩
  exact h.claude.congr (fun path own => done.frame (fun mine => five.apart path own mine))
    (progress.entriesOf_other (fun same => five.apart _ (Or.inl rfl) (Or.inl same)))

/-- What the block of Codex finds is what was there before the block of Claude. -/
theorem codex_undisturbed {modified : Bool}
    (done : (claudeFile formats cfg).Installed faults disk manifest
      (.ok (manifest', modified), disk'))
    (progress : (claudeFile formats cfg).Progress orig₁ faults disk disk' manifest manifest'
      modified) :
    ((codexFile formats cfg).Starts faults disk' manifest'.entries ↔
      (codexFile formats cfg).Starts faults disk manifest.entries) ∧
    ((codexFile formats cfg).Passes faults disk' ↔ (codexFile formats cfg).Passes faults disk) := by
  have five := fiveFiles formats cfg
  have same : ∀ path, (codexFile formats cfg).Owns path → disk' path = disk path :=
    fun path own => done.frame (fun mine => five.apart path mine own)
  exact ⟨starts_congr same (progress.entriesOf_other
    (fun same => five.apart _ (Or.inl same) (Or.inl rfl))), passes_congr same⟩

/-- Both blocks come to their ends: nothing that was not recorded has been changed, or what they
return tells of it and the manifest on the disk does not. -/
theorem FilesInStep.installBoth (lawful : formats.Lawful)
    (h : FilesInStep formats cfg orig₁ orig₂ disk manifest)
    {done₁ done₂ : InitManifest × Bool}
    (claude : (claudeFile formats cfg).Installed faults disk manifest (.ok done₁, disk₁))
    (codex : (codexFile formats cfg).Installed faults disk₁ done₁.1 (.ok done₂, disk₂)) :
    ((claudeFile formats cfg).Passes faults disk ∧ (codexFile formats cfg).Passes faults disk) ∧
      FilesInStep formats cfg orig₁ orig₂ disk₂ done₂.1 ∧
      ((¬ (claudeFile formats cfg).Starts faults disk manifest.entries ∧
        ¬ (codexFile formats cfg).Starts faults disk manifest.entries ∧ done₂.1 = manifest) ∨
      (((claudeFile formats cfg).Starts faults disk manifest.entries ∨
        (codexFile formats cfg).Starts faults disk manifest.entries) ∧
        FilesOutOfStep formats cfg orig₁ orig₂ disk₂ manifest ∧ (done₁.2 || done₂.2) = true)) := by
  have five := fiveFiles formats cfg
  obtain ⟨manifest₁, claudeModified⟩ := done₁
  obtain ⟨manifest₂, codexModified⟩ := done₂
  obtain ⟨h₁, progress₁⟩ := h.installClaude lawful claude
  obtain ⟨h₂, progress₂⟩ := h₁.installCodex lawful codex
  obtain ⟨starts, passes⟩ := codex_undisturbed claude progress₁
  refine ⟨⟨progress₁.passes, passes.mp progress₂.passes⟩, h₂, ?_⟩
  by_cases starts₁ : (claudeFile formats cfg).Starts faults disk manifest.entries
  · obtain ⟨stray, modified⟩ := progress₁.starts starts₁
    refine Or.inr ⟨Or.inl starts₁, ⟨h.wrote, Or.inl ?_⟩, by simp [modified]⟩
    exact stray.congr (fun path own => codex.frame (fun mine => five.apart path own mine))
  · obtain rfl := progress₁.still starts₁
    by_cases starts₂ : (codexFile formats cfg).Starts faults disk₁ manifest₁.entries
    · obtain ⟨stray, modified⟩ := progress₂.starts starts₂
      exact Or.inr ⟨Or.inr (starts.mp starts₂), ⟨h.wrote, Or.inr stray⟩, by simp [modified]⟩
    · exact Or.inl ⟨starts₁, fun s => starts₂ (starts.mpr s), progress₂.still starts₂⟩

/-- A call that returns leaves the files in step with the manifest on the disk. -/
theorem FilesInStep.init_ok (lawful : formats.Lawful)
    (on : ManifestOn formats disk cfg.manifestPath manifest)
    (h : FilesInStep formats cfg orig₁ orig₂ disk manifest) {result : InitResult}
    (called : (doInit formats cfg).call faults disk = (.ok result, disk')) :
    EndsWhatItBegins formats cfg disk faults ∧
      ∃ manifest', ManifestOn formats disk' cfg.manifestPath manifest' ∧
        FilesInStep formats cfg orig₁ orig₂ disk' manifest' := by
  have five := fiveFiles formats cfg
  have inited := doInit_inited faults on
  rw [called] at inited
  cases inited with
  | @nothing disk₁ _ manifest₁ manifest₂ can claude codex =>
    obtain ⟨-, h₂, ⟨starts₁, starts₂, same⟩ | ⟨-, -, modified⟩⟩ := h.installBoth lawful claude codex
    · have on₁ := on.congr (claude.frame five.manifest_claude)
      exact ⟨endsWhatItBegins_of on (fun s => absurd s starts₁) (fun _ s => absurd s starts₂),
        manifest, on₁.congr (codex.frame five.manifest_codex), same ▸ h₂⟩
    · cases modified
  | @saved disk₁ disk₂ done₁ done₂ bytes can claude codex modified save printed =>
    obtain ⟨passes, h₂, -⟩ := h.installBoth lawful claude codex
    have write : CanWriteManifest faults := ⟨save.1, save.2.2⟩
    obtain ⟨bytes', printed', parsed⟩ := lawful.manifest done₂.1
    obtain rfl := Option.some.inj (printed.symm.trans printed')
    refine ⟨endsWhatItBegins_of on (fun _ => ⟨passes.1, passes.2, write⟩)
        (fun _ _ => ⟨passes.2, write⟩),
      done₂.1, Or.inr ⟨bytes, Function.update_self _ _ _, parsed⟩, h₂.wrote,
      h₂.claude.congr (fun path own => ?_) rfl, h₂.codex.congr (fun path own => ?_) rfl⟩
    · exact Function.update_of_ne (five.claude_ne_manifest own) _ _
    · exact Function.update_of_ne (five.codex_ne_manifest own) _ _

/-- A call that ends what it begins leaves the files in step with the manifest on the disk, and any
other leaves one out of step. -/
theorem FilesInStep.init (lawful : formats.Lawful)
    (on : ManifestOn formats disk cfg.manifestPath manifest)
    (h : FilesInStep formats cfg orig₁ orig₂ disk manifest) (faults : Faults) :
    ∃ manifest', ManifestOn formats (initDisk formats cfg disk faults) cfg.manifestPath manifest' ∧
      ((EndsWhatItBegins formats cfg disk faults ∧
        FilesInStep formats cfg orig₁ orig₂ (initDisk formats cfg disk faults) manifest') ∨
      (¬ EndsWhatItBegins formats cfg disk faults ∧
        FilesOutOfStep formats cfg orig₁ orig₂ (initDisk formats cfg disk faults) manifest')) := by
  have five := fiveFiles formats cfg
  have inited := doInit_inited faults on
  unfold initDisk
  rcases called : (doInit formats cfg).call faults disk with ⟨error | result, disk'⟩
  case ok =>
    obtain ⟨ends, manifest', on', h'⟩ := h.init_ok lawful on called
    exact ⟨manifest', on', Or.inl ⟨ends, h'⟩⟩
  rw [called] at inited
  cases inited with
  | unread _ cannot =>
    exact ⟨manifest, on, Or.inl ⟨fun can => absurd can cannot, h⟩⟩
  | claudeFailed can claude =>
    obtain ⟨not, stray, still⟩ := h.claude.stop claude
    refine ⟨manifest, on.congr (claude.frame five.manifest_claude), ?_⟩
    by_cases starts : (claudeFile formats cfg).Starts faults disk manifest.entries
    · refine Or.inr ⟨fun ends => not ((ends can manifest on).1 starts).1, h.wrote, ?_⟩
      exact Or.inl (stray starts)
    · refine Or.inl ⟨endsWhatItBegins_of on (fun s => absurd s starts)
        (fun passes => absurd passes not), ?_⟩
      exact still starts ▸ h
  | @codexFailed _ disk₁ _ done can claude codex =>
    obtain ⟨manifest₁, modified⟩ := done
    obtain ⟨h₁, progress⟩ := h.installClaude lawful claude
    obtain ⟨starts, passes⟩ := codex_undisturbed claude progress
    obtain ⟨not, stray, still⟩ := h₁.codex.stop codex
    have on₁ := on.congr (claude.frame five.manifest_claude)
    refine ⟨manifest, on₁.congr (codex.frame five.manifest_codex), ?_⟩
    by_cases starts₁ : (claudeFile formats cfg).Starts faults disk manifest.entries
    · refine Or.inr ⟨fun ends => not (passes.mpr ((ends can manifest on).1 starts₁).2.1),
        h.wrote, Or.inl ?_⟩
      exact (progress.starts starts₁).1.congr
        (fun path own => codex.frame (fun mine => five.apart path own mine))
    · obtain rfl := progress.still starts₁
      by_cases starts₂ : (codexFile formats cfg).Starts faults disk₁ manifest₁.entries
      · refine Or.inr ⟨fun ends => not (passes.mpr ?_), h.wrote, Or.inr (stray starts₂)⟩
        exact ((ends can manifest₁ on).2 progress.passes (starts.mp starts₂)).1
      · refine Or.inl ⟨endsWhatItBegins_of on (fun s => absurd s starts₁)
          (fun _ s => absurd (starts.mpr s) starts₂), ?_⟩
        exact still starts₂ ▸ h₁
  | @unsaved _ disk₁ _ done₁ done₂ can claude codex cannot =>
    have on₁ := on.congr (claude.frame five.manifest_claude)
    refine ⟨manifest, on₁.congr (codex.frame five.manifest_codex), ?_⟩
    obtain ⟨passes, h₂, ⟨starts₁, starts₂, same⟩ | ⟨starts, out, -⟩⟩ :=
      h.installBoth lawful claude codex
    · exact Or.inl ⟨endsWhatItBegins_of on (fun s => absurd s starts₁)
        (fun _ s => absurd s starts₂), same ▸ h₂⟩
    · refine Or.inr ⟨fun ends => cannot ?_, out⟩
      obtain ⟨bytes, printed, -⟩ := lawful.manifest done₂.1
      have write : CanWriteManifest faults := by
        obtain ⟨ends₁, ends₂⟩ := ends can manifest on
        rcases starts with starts₁ | starts₂
        · exact (ends₁ starts₁).2.2
        · exact (ends₂ passes.1 starts₂).2
      exact ⟨write.1, by rw [printed]; rfl, write.2⟩

/-! ## Undoing -/

theorem FilesInStep.undone (on : ManifestOn formats disk cfg.manifestPath manifest)
    (h : FilesInStep formats cfg orig₁ orig₂ disk manifest) :
    Undone formats cfg orig₁ orig₂ disk := by
  intro faults done disk' called
  have five := fiveFiles formats cfg
  rcases call_doUninit faults on with ⟨done', ok⟩ | ⟨error, disk'', failed, -⟩
  · obtain rfl := (Prod.mk.inj (called.symm.trans ok)).2
    obtain ⟨claude, claudeBackup⟩ := h.claude.undo five.apart five.claude_ne _ h.wrote
    obtain ⟨codex, codexBackup⟩ := h.codex.undo (fun path own mine => five.apart path mine own)
      five.codex_ne _ (fun e mem => (h.wrote e mem).symm)
    exact ⟨(Function.update_of_ne (five.claude_ne_manifest (Or.inl rfl)) _ _).trans claude,
      (Function.update_of_ne (five.codex_ne_manifest (Or.inl rfl)) _ _).trans codex,
      (Function.update_of_ne (five.claude_ne_manifest (Or.inr rfl)) _ _).trans claudeBackup,
      (Function.update_of_ne (five.codex_ne_manifest (Or.inr rfl)) _ _).trans codexBackup⟩
  · cases called.symm.trans failed

/-- A file that has been changed without a word of it in the manifest is not put back. -/
theorem FilesOutOfStep.not_undone (on : ManifestOn formats disk cfg.manifestPath manifest)
    (h : FilesOutOfStep formats cfg orig₁ orig₂ disk manifest) :
    ¬ Undone formats cfg orig₁ orig₂ disk := by
  intro undone
  have five := fiveFiles formats cfg
  rcases call_doUninit (fun _ => false) on with ⟨done, ok⟩ | ⟨_, _, -, fault⟩
  case inr => cases fault
  have back := undone _ _ _ ok
  rcases h.stray with stray | stray
  · refine stray.not_put_back five.apart h.wrote ⟨?_, ?_⟩
    · exact (Function.update_of_ne (five.claude_ne_manifest (Or.inl rfl)) _ _).symm.trans
        back.claude
    · exact (Function.update_of_ne (five.claude_ne_manifest (Or.inr rfl)) _ _).symm.trans
        back.claudeBackup
  · refine stray.not_put_back (fun path own mine => five.apart path mine own)
      (fun e mem => (h.wrote e mem).symm) ⟨?_, ?_⟩
    · exact (Function.update_of_ne (five.codex_ne_manifest (Or.inl rfl)) _ _).symm.trans back.codex
    · exact (Function.update_of_ne (five.codex_ne_manifest (Or.inr rfl)) _ _).symm.trans
        back.codexBackup

/-- From files in step, every beginning of a run can be undone just where every call of it ends what
it begins. -/
theorem FilesInStep.undone_iff (lawful : formats.Lawful) (calls : List Faults) :
    ∀ {disk : Disk β} {manifest : InitManifest},
      ManifestOn formats disk cfg.manifestPath manifest →
      FilesInStep formats cfg orig₁ orig₂ disk manifest →
      ((∀ before, before <+: calls →
        Undone formats cfg orig₁ orig₂ (before.foldl (initDisk formats cfg) disk)) ↔
      Along (initDisk formats cfg) (EndsWhatItBegins formats cfg) disk calls) := by
  induction calls with
  | nil =>
    intro disk manifest on h
    refine iff_of_true (fun before part => ?_) trivial
    rw [List.prefix_nil.mp part]
    exact h.undone on
  | cons faults calls ih =>
    intro disk manifest on h
    obtain ⟨manifest', on', ⟨ends, h'⟩ | ⟨breaks, out⟩⟩ := h.init lawful on faults
    · rw [Along, ← ih on' h']
      constructor
      · exact fun undone => ⟨ends, fun before part =>
          undone (faults :: before) (List.cons_prefix_cons.mpr ⟨rfl, part⟩)⟩
      · rintro ⟨-, undone⟩ before part
        rcases List.prefix_cons_iff.mp part with rfl | ⟨before, rfl, part⟩
        · exact h.undone on
        · exact undone before (List.cons_prefix_cons.mp part).2
    · refine iff_of_false (fun undone => ?_) (fun along => breaks along.1)
      exact out.not_undone on' (undone [faults] (List.cons_prefix_cons.mpr ⟨rfl, List.nil_prefix⟩))

/-- With no manifest and no backups to start with, however many calls there are and wherever they
fail: both files can be put back after each just where no call fails after it has begun to change a
file that is not recorded. -/
theorem init_undone_iff (formats : Formats β) (lawful : formats.Lawful) (cfg : InitConfig)
    (disk : Disk β) (noManifest : disk cfg.manifestPath = none)
    (noClaudeBackup : disk (backupPath cfg.claudeSettingsPath) = none)
    (noCodexBackup : disk (backupPath cfg.codexConfigPath) = none) (calls : List Faults) :
    (∀ before, before <+: calls →
      Undone formats cfg (disk cfg.claudeSettingsPath) (disk cfg.codexConfigPath)
        (before.foldl (initDisk formats cfg) disk)) ↔
    Along (initDisk formats cfg) (EndsWhatItBegins formats cfg) disk calls :=
  FilesInStep.undone_iff lawful calls (Or.inl ⟨noManifest, rfl⟩)
    ⟨fun _ mem => absurd mem List.not_mem_nil, .kept rfl rfl noClaudeBackup,
      .kept rfl rfl noCodexBackup⟩

end Reversible

/-! ## A failure halfway -/

/-- The config of a user whose home is `/home`. -/
def homeConfig : InitConfig := ⟨["home"], "/tmp/fleet/reporter.sock"⟩

/-- There are no settings of Claude, and the config of Codex is malformed. -/
def malformedDisk : Disk ReadText := fun path =>
  if path = homeConfig.codexConfigPath then some .malformed else none

theorem init_undone_iff_malformed :
    (∀ before, before <+: [fun _ => false] →
      Undone readFormats homeConfig (malformedDisk homeConfig.claudeSettingsPath)
        (malformedDisk homeConfig.codexConfigPath)
        (before.foldl (initDisk readFormats homeConfig) malformedDisk)) ↔
    Along (initDisk readFormats homeConfig) (EndsWhatItBegins readFormats homeConfig)
      malformedDisk [fun _ => false] :=
  init_undone_iff readFormats readFormats_lawful homeConfig malformedDisk (by decide) (by decide)
    (by decide) [fun _ => false]

/-- The call has written the settings of Claude when it comes to the malformed config of Codex, and
`fleet uninit` does not know. -/
theorem malformed_not_undone : ¬ ∀ (β : Type) (formats : Formats β), formats.Lawful →
    ∀ (cfg : InitConfig) (disk : Disk β), disk cfg.manifestPath = none →
      disk (backupPath cfg.claudeSettingsPath) = none →
      disk (backupPath cfg.codexConfigPath) = none → ∀ calls : List Faults,
        Undone formats cfg (disk cfg.claudeSettingsPath) (disk cfg.codexConfigPath)
          (calls.foldl (initDisk formats cfg) disk) := by
  intro all
  have undone := all ReadText readFormats readFormats_lawful homeConfig malformedDisk (by decide)
    (by decide) (by decide) [fun _ => false]
  have on : ManifestOn readFormats (initDisk readFormats homeConfig malformedDisk (fun _ => false))
      homeConfig.manifestPath ⟨[]⟩ := Or.inl ⟨rfl, rfl⟩
  rcases call_doUninit (fun _ => false) on with ⟨done, ok⟩ | ⟨_, _, -, fault⟩
  · have gone := (undone _ _ _ ok).claude
    rw [Function.update_of_ne (by decide)] at gone
    have written : (initDisk readFormats homeConfig malformedDisk (fun _ => false)
        homeConfig.claudeSettingsPath).isSome = true := rfl
    exact absurd written (Option.not_isSome_iff_eq_none.mpr gone)
  · cases fault

end VsFleet
