import VsFleet.Cli.Proofs.Reversible

/-!
# Cycles of `fleet init` and `fleet uninit`

A cycle is a `fleet init`, repeated at will, and a `fleet uninit`; before it the user does to the
config files what they like. A cycle whose calls all return leaves the disk as the next one needs
it.
-/

namespace VsFleet

open ConfigFile

/-- A cycle: the config files as the user has them when it begins, and its calls. -/
structure InitCycle (β : Type) where
  claude : Option β
  codex : Option β
  inits : List Faults
  uninit : Faults

namespace InitCycle

variable {β : Type} (formats : Formats β) (cfg : InitConfig) (disk : Disk β) (cycle : InitCycle β)

/-- The disk when a cycle begins. -/
def start : Disk β :=
  Function.update (Function.update disk cfg.claudeSettingsPath cycle.claude) cfg.codexConfigPath
    cycle.codex

/-- The disk after the first calls of `fleet init`. -/
def afterInits (k : Nat) : Disk β :=
  (cycle.inits.take k).foldl (initDisk formats cfg) (cycle.start cfg disk)

/-- The call of `fleet uninit`. -/
def uninitCall : Except FileError UninitResult × Disk β :=
  (doUninit formats cfg).call cycle.uninit (cycle.afterInits formats cfg disk cycle.inits.length)

/-- The disk after a cycle. -/
def finish : Disk β := (cycle.uninitCall formats cfg disk).2

/-- There is a call of `fleet init`, every call returns, and the hooks can be put into the
settings. -/
structure Succeeds : Prop where
  nonempty : cycle.inits ≠ []
  inits : ∀ k (hk : k < cycle.inits.length), ∃ result,
    ((doInit formats cfg).call cycle.inits[k] (cycle.afterInits formats cfg disk k)).1 = .ok result
  uninit : ∃ done, (cycle.uninitCall formats cfg disk).1 = .ok done
  mergeable : ∀ bytes v, cycle.claude = some bytes → formats.parseJson bytes = some v →
    RelayedEntriesMergeable v.keyed

/-- The cycle leaves the config files as they were, and every `fleet init` after the first changes
no file and says so. -/
structure Restores : Prop where
  claude : cycle.finish formats cfg disk cfg.claudeSettingsPath = cycle.claude
  codex : cycle.finish formats cfg disk cfg.codexConfigPath = cycle.codex
  again : ∀ k (hk : k < cycle.inits.length), 0 < k →
    (doInit formats cfg).call cycle.inits[k] (cycle.afterInits formats cfg disk k) =
      (.ok ⟨false, false, false⟩, cycle.afterInits formats cfg disk k)

end InitCycle

section Cycles

variable {β : Type} {formats : Formats β} {cfg : InitConfig} {faults : Faults}
  {disk disk' : Disk β} {manifest : InitManifest} {orig₁ orig₂ : Option β}
  {cycle : InitCycle β}

/-- There is nothing to change in either config file. -/
structure FilesSettled (formats : Formats β) (cfg : InitConfig) (disk : Disk β) : Prop where
  claude : (claudeFile formats cfg).edit ((claudeFile formats cfg).contents disk) = .unchanged
  codex : (codexFile formats cfg).edit ((codexFile formats cfg).contents disk) = .unchanged

/-- A call that returns leaves nothing to change. -/
theorem init_settles (lawful : formats.Lawful)
    (on : ManifestOn formats disk cfg.manifestPath manifest)
    (mergeable : ∀ v, formats.parseJson ((claudeFile formats cfg).contents disk) = some v →
      RelayedEntriesMergeable v.keyed) {result : InitResult}
    (called : (doInit formats cfg).call faults disk = (.ok result, disk')) :
    FilesSettled formats cfg disk' := by
  have five := fiveFiles formats cfg
  have both : ∀ {disk₁ disk₂ : Disk β} {done₁ done₂ : InitManifest × Bool},
      (claudeFile formats cfg).Installed faults disk manifest (.ok done₁, disk₁) →
      (codexFile formats cfg).Installed faults disk₁ done₁.1 (.ok done₂, disk₂) →
      FilesSettled formats cfg disk₂ := by
    intro disk₁ disk₂ done₁ done₂ claude codex
    refine ⟨?_, codex.settled (fun new => codexFile_settled lawful)⟩
    rw [contents_congr (fun path own => codex.frame (fun mine => five.apart path own mine))]
    exact claude.settled (fun new => claudeFile_settled lawful mergeable)
  have inited := doInit_inited faults on
  rw [called] at inited
  cases inited with
  | nothing can claude codex => exact both claude codex
  | saved can claude codex modified save printed =>
    obtain ⟨settled₁, settled₂⟩ := both claude codex
    refine ⟨?_, ?_⟩
    · rw [contents_congr (fun path own =>
        Function.update_of_ne (five.claude_ne_manifest own) _ _)]
      exact settled₁
    · rw [contents_congr (fun path own =>
        Function.update_of_ne (five.codex_ne_manifest own) _ _)]
      exact settled₂

/-- With nothing to change, a call that returns changes nothing and says so. -/
theorem FilesSettled.init (h : FilesSettled formats cfg disk)
    (on : ManifestOn formats disk cfg.manifestPath manifest) {result : InitResult}
    (called : (doInit formats cfg).call faults disk = (.ok result, disk')) :
    result = ⟨false, false, false⟩ ∧ disk' = disk := by
  have inited := doInit_inited faults on
  rw [called] at inited
  cases inited with
  | nothing can claude codex =>
    obtain ⟨same, rfl⟩ := claude.still h.claude
    exact ⟨rfl, (codex.still h.codex).2⟩
  | saved can claude codex modified save printed =>
    obtain ⟨rfl, rfl⟩ := claude.still h.claude
    obtain ⟨rfl, rfl⟩ := codex.still h.codex
    cases modified

/-- No manifest and no backups. -/
structure Unmanaged (cfg : InitConfig) (disk : Disk β) : Prop where
  manifest : disk cfg.manifestPath = none
  claudeBackup : disk (backupPath cfg.claudeSettingsPath) = none
  codexBackup : disk (backupPath cfg.codexConfigPath) = none

theorem InitCycle.start_claude :
    cycle.start cfg disk cfg.claudeSettingsPath = cycle.claude := by
  have apart : cfg.claudeSettingsPath ≠ cfg.codexConfigPath := by
    intro same
    have suffix : [".claude", "settings.json"] = [".codex", "config.toml"] :=
      List.append_cancel_left same
    exact absurd suffix (by decide)
  exact (Function.update_of_ne apart _ _).trans (Function.update_self _ _ _)

theorem InitCycle.start_codex : cycle.start cfg disk cfg.codexConfigPath = cycle.codex :=
  Function.update_self _ _ _

/-- What the user does to the config files makes nothing managed. -/
theorem InitCycle.start_inStep (unmanaged : Unmanaged cfg disk) :
    ManifestOn formats (cycle.start cfg disk) cfg.manifestPath ⟨[]⟩ ∧
      FilesInStep formats cfg cycle.claude cycle.codex (cycle.start cfg disk) ⟨[]⟩ := by
  have five := fiveFiles formats cfg
  have other : ∀ path, path ≠ cfg.claudeSettingsPath → path ≠ cfg.codexConfigPath →
      cycle.start cfg disk path = disk path := fun path claude codex =>
    (Function.update_of_ne codex _ _).trans (Function.update_of_ne claude _ _)
  refine ⟨Or.inl ⟨?_, rfl⟩, fun _ mem => absurd mem List.not_mem_nil,
    .kept rfl start_claude ?_, .kept rfl start_codex ?_⟩
  · exact (other _ (five.claude_ne_manifest (Or.inl rfl)).symm
      (five.codex_ne_manifest (Or.inl rfl)).symm).trans unmanaged.manifest
  · exact (other _ five.claude_ne.symm
      (fun same => five.apart _ (Or.inr rfl) (Or.inl same))).trans unmanaged.claudeBackup
  · exact (other _ (fun same => five.apart _ (Or.inl same) (Or.inr rfl))
      five.codex_ne.symm).trans unmanaged.codexBackup

namespace InitCycle

theorem afterInits_succ {k : Nat} (hk : k < cycle.inits.length) :
    cycle.afterInits formats cfg disk (k + 1) =
      initDisk formats cfg (cycle.afterInits formats cfg disk k) cycle.inits[k] := by
  rw [afterInits, List.take_succ_eq_append_getElem hk, List.foldl_append]
  rfl

/-- Throughout its calls of `fleet init` a cycle has its files in step with the manifest, and from
the first on there is nothing to change. -/
theorem Succeeds.inStep (succeeds : cycle.Succeeds formats cfg disk) (lawful : formats.Lawful)
    (unmanaged : Unmanaged cfg disk) : ∀ k, k ≤ cycle.inits.length →
      (∃ manifest,
        ManifestOn formats (cycle.afterInits formats cfg disk k) cfg.manifestPath manifest ∧
        FilesInStep formats cfg cycle.claude cycle.codex (cycle.afterInits formats cfg disk k)
          manifest) ∧
      (0 < k → FilesSettled formats cfg (cycle.afterInits formats cfg disk k)) := by
  intro k
  induction k with
  | zero =>
    intro _
    exact ⟨⟨⟨[]⟩, start_inStep unmanaged⟩, fun none => absurd none (Nat.lt_irrefl 0)⟩
  | succ k ih =>
    intro hk
    obtain ⟨⟨manifest, on, inStep⟩, settled⟩ := ih (Nat.le_of_succ_le hk)
    obtain ⟨result, ok⟩ := succeeds.inits k hk
    have called : (doInit formats cfg).call cycle.inits[k] (cycle.afterInits formats cfg disk k) =
        (.ok result, cycle.afterInits formats cfg disk (k + 1)) := by
      rw [afterInits_succ hk]
      exact Prod.ext ok rfl
    refine ⟨(inStep.init_ok lawful on called).2, fun _ => ?_⟩
    cases k with
    | zero =>
      refine init_settles lawful on (fun v parsed => ?_) called
      have there : (claudeFile formats cfg).contents (cycle.afterInits formats cfg disk 0) =
          cycle.claude.getD formats.emptyObject := congrArg (Option.getD · _) start_claude
      rw [there] at parsed
      cases own : cycle.claude with
      | none =>
        rw [own] at parsed
        exact lawful.mergeable_emptyObject v parsed
      | some bytes =>
        rw [own] at parsed
        exact succeeds.mergeable bytes v own parsed
    | succ k =>
      rw [((settled (Nat.succ_pos k)).init on called).2]
      exact settled (Nat.succ_pos k)

/-- A cycle restores, and leaves nothing managed. -/
theorem Succeeds.restores (succeeds : cycle.Succeeds formats cfg disk) (lawful : formats.Lawful)
    (unmanaged : Unmanaged cfg disk) :
    cycle.Restores formats cfg disk ∧ Unmanaged cfg (cycle.finish formats cfg disk) := by
  obtain ⟨⟨manifest, on, inStep⟩, -⟩ :=
    succeeds.inStep lawful unmanaged cycle.inits.length (Nat.le_refl _)
  obtain ⟨done, ok⟩ := succeeds.uninit
  have called : cycle.uninitCall formats cfg disk = (.ok done, cycle.finish formats cfg disk) :=
    Prod.ext ok rfl
  have back := inStep.undone on _ _ _ called
  refine ⟨⟨back.claude, back.codex, fun k hk after => ?_⟩,
    ?_, back.claudeBackup, back.codexBackup⟩
  · obtain ⟨⟨manifest, on, -⟩, settled⟩ :=
      succeeds.inStep lawful unmanaged k (Nat.le_of_lt hk)
    obtain ⟨result, ok⟩ := succeeds.inits k hk
    obtain ⟨rfl, same⟩ := (settled after).init on (Prod.ext ok rfl)
    exact Prod.ext ok same
  · rcases call_doUninit cycle.uninit on with ⟨done', ok'⟩ | ⟨_, _, failed, -⟩
    · rw [(Prod.mk.inj (called.symm.trans ok')).2, Function.update_self]
    · cases called.symm.trans failed

end InitCycle

/-- However many cycles there are, each in which every call returns leaves the config files as the
user had them. -/
theorem cycles_restore (formats : Formats β) (lawful : formats.Lawful) (cfg : InitConfig)
    (disk : Disk β) (noManifest : disk cfg.manifestPath = none)
    (noClaudeBackup : disk (backupPath cfg.claudeSettingsPath) = none)
    (noCodexBackup : disk (backupPath cfg.codexConfigPath) = none)
    (cycles : List (InitCycle β))
    (succeed : Along (fun disk cycle => cycle.finish formats cfg disk)
      (fun disk cycle => cycle.Succeeds formats cfg disk) disk cycles) :
    Along (fun disk cycle => cycle.finish formats cfg disk)
      (fun disk cycle => cycle.Restores formats cfg disk) disk cycles := by
  refine Along.of_invariant (P := Unmanaged cfg) (q := fun _ => True) ?_ ?_ cycles
    (fun _ _ => trivial) ⟨noManifest, noClaudeBackup, noCodexBackup⟩ succeed
  · exact fun disk cycle unmanaged succeeds => (succeeds.restores lawful unmanaged).1
  · exact fun disk cycle _ unmanaged succeeds => (succeeds.restores lawful unmanaged).2

end Cycles

/-- There are no settings of Claude, the hooks of Codex are no table, and `fleet init` is called
twice. -/
def firstCycle : InitCycle ReadText :=
  ⟨none, some (.toml [("hooks", .boolean false)]), [fun _ => false, fun _ => false],
    fun _ => false⟩

/-- The user has written empty settings and deleted the config of Codex. -/
def secondCycle : InitCycle ReadText :=
  ⟨some (.json (.object [])), none, [fun _ => false], fun _ => false⟩

theorem firstCycle_succeeds : firstCycle.Succeeds readFormats homeConfig (fun _ => none) where
  nonempty := List.cons_ne_nil _ _
  inits k hk := by
    match k, hk with
    | 0, _ => exact ⟨⟨true, true, true⟩, rfl⟩
    | 1, _ => exact ⟨⟨false, false, false⟩, rfl⟩
  uninit := ⟨_, rfl⟩
  mergeable bytes v own := by cases own

theorem secondCycle_succeeds : secondCycle.Succeeds readFormats homeConfig
    (firstCycle.finish readFormats homeConfig (fun _ => none)) where
  nonempty := List.cons_ne_nil _ _
  inits k hk := by
    match k, hk with
    | 0, _ => exact ⟨⟨true, true, true⟩, rfl⟩
  uninit := ⟨_, rfl⟩
  mergeable bytes v own parsed := by
    cases own
    exact readFormats_lawful.mergeable_emptyObject v parsed

theorem cycles_restore_two :
    Along (fun disk cycle => cycle.finish readFormats homeConfig disk)
      (fun disk cycle => cycle.Restores readFormats homeConfig disk) (fun _ => none)
      [firstCycle, secondCycle] :=
  cycles_restore readFormats readFormats_lawful homeConfig (fun _ => none) rfl rfl rfl
    [firstCycle, secondCycle] ⟨firstCycle_succeeds, secondCycle_succeeds, trivial⟩

end VsFleet
