import VsFleet.Cli.Init

/-!
# Edits under a backup

What one block of `fleet init` makes of its file, its backup and the manifest, under whatever
faults: how far it gets is how many of its operations succeed.
-/

namespace VsFleet

/-! ## Calls -/

section Calls

variable {β α γ : Type} {faults : Faults} {disk : Disk β}

/-- What comes after a call. -/
def FileM.andThen (g : α → FileM β γ) (faults : Faults) :
    Except FileError α × Disk β → Except FileError γ × Disk β
  | (.ok a, disk) => (g a).call faults disk
  | (.error error, disk) => (.error error, disk)

theorem call_bind (f : FileM β α) (g : α → FileM β γ) :
    (f >>= g).call faults disk = FileM.andThen g faults (f.call faults disk) := by
  unfold FileM.call FileM.andThen
  simp only [bind, ReaderT.bind, ExceptT.bind, ExceptT.mk, StateT.bind, ExceptT.bindCont]
  rcases f faults disk with ⟨_ | a, disk'⟩ <;> rfl

theorem call_map (f : FileM β α) (g : α → γ) :
    (g <$> f).call faults disk =
      FileM.andThen (fun a => pure (g a)) faults (f.call faults disk) := by
  rw [← bind_pure_comp, call_bind]

theorem call_pure (a : α) : (pure a : FileM β α).call faults disk = (.ok a, disk) := rfl

theorem call_attempt (error : FileError) : (attempt error : FileM β Unit).call faults disk =
    if faults error then (.error error, disk) else (.ok (), disk) := by
  have tried : (attempt error : FileM β Unit).call faults disk =
    (if faults error then throw error else pure () : FileM β Unit).call faults disk := rfl
  rw [tried]
  split <;> rfl

theorem call_pathExists (path : PathBuf) :
    (pathExists path : FileM β Bool).call faults disk = (.ok (disk path).isSome, disk) := rfl

theorem call_orThrow (error : FileError) (a : Option α) :
    (orThrow error a : FileM β α).call faults disk =
      match a with
      | some a => (.ok a, disk)
      | none => (.error error, disk) := by
  cases a <;> rfl

theorem call_readFile (error : FileError) {path : PathBuf} {contents : β}
    (there : disk path = some contents) : (readFile error path).call faults disk =
      if faults error then (.error error, disk) else (.ok contents, disk) := by
  rw [readFile, call_bind, call_attempt]
  split
  · rfl
  · change (orThrow error (disk path) : FileM β β).call faults disk = _
    rw [there]
    rfl

theorem call_writeFile (error : FileError) (path : PathBuf) (contents : β) :
    (writeFile error path contents).call faults disk =
      if faults error then (.error error, disk)
      else (.ok (), Function.update disk path (some contents)) := by
  rw [writeFile, call_bind, call_attempt]
  split <;> rfl

theorem call_removeFile (error : FileError) (path : PathBuf) :
    (removeFile error path : FileM β Unit).call faults disk =
      if faults error then (.error error, disk)
      else (.ok (), Function.update disk path none) := by
  rw [removeFile, call_bind, call_attempt]
  split <;> rfl

end Calls

/-! ## Config files -/

/-- What a tool's edit makes of the contents of its config file. -/
inductive FileEdit (β : Type) where
  | refused (error : FileError)
  | unchanged
  | changed (printed : Option β)

/-- A config file that is edited. -/
structure ConfigFile (β : Type) where
  path : PathBuf
  whenMissing : β
  edit : β → FileEdit β

namespace ConfigFile

variable {β V : Type} (file : ConfigFile β) (faults : Faults) (disk : Disk β)

/-- The config file of a block. -/
def ofBlock (path : PathBuf) (whenMissing : β) (parse : β → Option V)
    (inject : V → Option (Bool × V)) (print : V → Option β) : ConfigFile β where
  path := path
  whenMissing := whenMissing
  edit bytes :=
    match parse bytes with
    | none => .refused (.parse path)
    | some value =>
      match inject value with
      | none => .refused .panic
      | some (true, value) => .changed (print value)
      | some (false, _) => .unchanged

/-- The path the original of the file is kept at. -/
def backup : PathBuf := backupPath file.path

/-- What `init` takes for the contents of the file. -/
def contents : β := (disk file.path).getD file.whenMissing

/-- The disk with the file backed up, unless a backup is there. -/
def backedUp : Disk β :=
  Function.update disk file.backup ((disk file.backup).or (disk file.path))

/-- The contents of the file can be had. -/
def Opens : Prop :=
  faults (.createDir file.path) = false ∧
    ((disk file.path).isSome = true → faults (.read file.path) = false)

/-- The backup, if one is to be made, can be made. -/
def CanBackUp : Prop :=
  (disk file.path).isSome = true → disk file.backup = none →
    faults (.readForBackup file.path) = false ∧ faults (.createBackupDir file.backup) = false ∧
      faults (.writeBackup file.backup) = false

/-- The edited contents can be written. -/
def CanWrite (printed : Option β) : Prop :=
  printed.isSome = true ∧ faults (.write file.path) = false

/-- The block makes its first change: to the backup, or to the file where none is made. -/
def Begins : Prop :=
  file.Opens faults disk ∧ ∃ printed, file.edit (file.contents disk) = .changed printed ∧
    file.CanBackUp faults disk ∧
      (((disk file.path).isSome = true ∧ disk file.backup = none) ∨ file.CanWrite faults printed)

/-- The block comes to its end. -/
def Passes : Prop :=
  file.Opens faults disk ∧ (file.edit (file.contents disk) = .unchanged ∨
    ∃ printed, file.edit (file.contents disk) = .changed printed ∧
      file.CanBackUp faults disk ∧ file.CanWrite faults printed)

/-- What a block returns and the disk it leaves: it stops before a change, or after the backup, or
comes to its end. -/
inductive Installed (manifest : InitManifest) :
    Except FileError (InitManifest × Bool) × Disk β → Prop where
  | stopped (error : FileError) (before : ¬ file.Begins faults disk)
      (not : ¬ file.Passes faults disk) : Installed manifest (.error error, disk)
  | backedUp (error : FileError) (there : (disk file.path).isSome = true)
      (fresh : disk file.backup = none) (begun : file.Begins faults disk)
      (not : ¬ file.Passes faults disk) : Installed manifest (.error error, file.backedUp disk)
  | unchanged (same : file.edit (file.contents disk) = .unchanged)
      (passes : file.Passes faults disk) : Installed manifest (.ok (manifest, false), disk)
  | changed {new : β} (edited : file.edit (file.contents disk) = .changed (some new))
      (begun : file.Begins faults disk) (passes : file.Passes faults disk) :
      Installed manifest (.ok (manifest.record file.path
        ((disk file.path).map (fun _ => file.backup)), true),
        Function.update (file.backedUp disk) file.path (some new))

end ConfigFile

section Block

variable {β V : Type} {faults : Faults} {disk : Disk β} {file : ConfigFile β}

theorem call_maybeBackup (can : file.CanBackUp faults disk) :
    (maybeBackup file.path file.backup).call faults disk =
      (.ok ((disk file.path).map (fun _ => file.backup)), file.backedUp disk) := by
  rw [maybeBackup, call_bind, call_pathExists, FileM.andThen]
  unfold ConfigFile.backedUp
  cases there : disk file.path with
  | none =>
    rw [Option.or_none, Function.update_eq_self]
    rfl
  | some contents =>
    cases kept : disk file.backup with
    | some saved =>
      rw [Option.some_or, ← kept, Function.update_eq_self]
      simp [call_bind, call_pathExists, FileM.andThen, kept, call_pure]
    | none =>
      obtain ⟨read, dir, write⟩ := can (by rw [there]; rfl) kept
      simp [call_bind, call_pathExists, FileM.andThen, kept, call_readFile _ there, call_attempt,
        call_map, call_writeFile, read, dir, write, call_pure]

theorem call_maybeBackup_error (cannot : ¬ file.CanBackUp faults disk) :
    ∃ error, (maybeBackup file.path file.backup).call faults disk = (.error error, disk) := by
  unfold ConfigFile.CanBackUp at cannot
  rw [Classical.not_imp, Classical.not_imp] at cannot
  obtain ⟨exists_, fresh, failing⟩ := cannot
  obtain ⟨contents, there⟩ := Option.isSome_iff_exists.mp exists_
  rw [maybeBackup, call_bind, call_pathExists, FileM.andThen]
  cases read : faults (.readForBackup file.path) with
  | true =>
    exact ⟨.readForBackup file.path, by simp [call_bind, call_pathExists, FileM.andThen, fresh,
      there, call_readFile _ there, read]⟩
  | false =>
    cases dir : faults (.createBackupDir file.backup) with
    | true =>
      exact ⟨.createBackupDir file.backup, by simp [call_bind, call_pathExists, FileM.andThen,
        fresh, there, call_readFile _ there, call_attempt, read, dir]⟩
    | false =>
      have write : faults (.writeBackup file.backup) = true :=
        eq_true_of_ne_false (fun write => failing ⟨read, dir, write⟩)
      exact ⟨.writeBackup file.backup, by simp [call_bind, call_pathExists, FileM.andThen, fresh,
        there, call_readFile _ there, call_attempt, call_map, call_writeFile, read, dir, write]⟩

theorem call_readExisting (opens : file.Opens faults disk) :
    (readExisting file.path file.whenMissing).call faults disk =
      (.ok (file.contents disk), disk) := by
  rw [readExisting, call_bind, call_pathExists, FileM.andThen, ConfigFile.contents]
  cases there : disk file.path with
  | none => rfl
  | some contents =>
    have read := opens.2 (by rw [there]; rfl)
    simp [call_readFile _ there, read]

/-- A block that cannot read its file stops. -/
theorem call_readExisting_error (closed : ¬ file.Opens faults disk)
    (dir : faults (.createDir file.path) = false) :
    ∃ error, (readExisting file.path file.whenMissing).call faults disk = (.error error, disk) := by
  unfold ConfigFile.Opens at closed
  rw [not_and] at closed
  obtain ⟨exists_, read⟩ := Classical.not_imp.mp (closed dir)
  obtain ⟨contents, there⟩ := Option.isSome_iff_exists.mp exists_
  refine ⟨.read file.path, ?_⟩
  rw [readExisting, call_bind, call_pathExists, FileM.andThen]
  simp [there, call_readFile _ there, eq_true_of_ne_false read]

/-- Where no backup is to be made the disk stays as it is. -/
theorem ConfigFile.backedUp_eq
    (needless : ¬ ((disk file.path).isSome = true ∧ disk file.backup = none)) :
    file.backedUp disk = disk := by
  unfold backedUp
  cases kept : disk file.backup with
  | some saved => rw [Option.some_or, ← kept, Function.update_eq_self]
  | none =>
    have missing : disk file.path = none :=
      Option.not_isSome_iff_eq_none.mp (fun there => needless ⟨there, kept⟩)
    rw [missing, Option.or_none, ← kept, Function.update_eq_self]

namespace ConfigFile.Installed

variable {manifest : InitManifest} {printed : Option β}

theorem refused {error : FileError} (made : file.edit (file.contents disk) = .refused error)
    (error' : FileError) : file.Installed faults disk manifest (.error error', disk) := by
  refine .stopped _ (fun begun => ?_) (fun passes => ?_)
  · obtain ⟨-, printed, changed, -⟩ := begun
    cases made.symm.trans changed
  · obtain ⟨-, unchanged | ⟨printed, changed, -⟩⟩ := passes
    · cases made.symm.trans unchanged
    · cases made.symm.trans changed

/-- The backup cannot be made. -/
theorem not_backedUp (made : file.edit (file.contents disk) = .changed printed)
    (cannot : ¬ file.CanBackUp faults disk) (error : FileError) :
    file.Installed faults disk manifest (.error error, disk) := by
  refine .stopped _ (fun begun => ?_) (fun passes => ?_)
  · obtain ⟨-, printed, -, can, -⟩ := begun
    exact cannot can
  · obtain ⟨-, unchanged | ⟨printed, -, can, -⟩⟩ := passes
    · cases made.symm.trans unchanged
    · exact cannot can

/-- The file cannot be written. -/
theorem not_written (opens : file.Opens faults disk)
    (made : file.edit (file.contents disk) = .changed printed)
    (can : file.CanBackUp faults disk) (cannot : ¬ file.CanWrite faults printed)
    (error : FileError) :
    file.Installed faults disk manifest (.error error, file.backedUp disk) := by
  have only : ∀ printed', file.edit (file.contents disk) = .changed printed' →
      ¬ file.CanWrite faults printed' := by
    intro printed' changed
    rw [made] at changed
    exact FileEdit.changed.inj changed ▸ cannot
  have not : ¬ file.Passes faults disk := by
    rintro ⟨-, unchanged | ⟨printed', changed, -, write⟩⟩
    · cases made.symm.trans unchanged
    · exact only printed' changed write
  by_cases fresh : (disk file.path).isSome = true ∧ disk file.backup = none
  · exact .backedUp _ fresh.1 fresh.2 ⟨opens, printed, made, can, Or.inl fresh⟩ not
  · rw [backedUp_eq fresh]
    refine .stopped _ ?_ not
    rintro ⟨-, printed', changed, -, there | write⟩
    · exact fresh there
    · exact only printed' changed write

/-- What follows on a changed value. -/
theorem write (opens : file.Opens faults disk)
    (made : file.edit (file.contents disk) = .changed printed) :
    file.Installed faults disk manifest ((do
      let backupOpt ← maybeBackup file.path file.backup
      let newBytes ← orThrow (.serialise file.path) printed
      writeFile (.write file.path) file.path newBytes
      return (manifest.record file.path backupOpt, true) :
        FileM β (InitManifest × Bool)).call faults disk) := by
  rw [call_bind]
  by_cases can : file.CanBackUp faults disk
  · rw [call_maybeBackup can, FileM.andThen, call_bind, call_orThrow]
    cases printed with
    | none =>
      exact not_written opens made can (fun write => Bool.false_ne_true write.1) _
    | some new =>
      rw [FileM.andThen, call_bind, call_writeFile]
      cases failing : faults (.write file.path) with
      | true =>
        rw [if_pos rfl, FileM.andThen]
        exact not_written opens made can
          (fun write => Bool.false_ne_true (write.2.symm.trans failing)) _
      | false =>
        rw [if_neg Bool.false_ne_true, FileM.andThen, call_pure]
        have write : file.CanWrite faults (some new) := ⟨rfl, failing⟩
        exact .changed made ⟨opens, some new, made, can, Or.inr write⟩
          ⟨opens, Or.inr ⟨some new, made, can, write⟩⟩
  · obtain ⟨error, failed⟩ := call_maybeBackup_error can
    rw [failed, FileM.andThen]
    exact not_backedUp made can error

end ConfigFile.Installed

variable {path : PathBuf} {whenMissing : β} {parse : β → Option V}
  {inject : V → Option (Bool × V)} {print : V → Option β}

/-- A block does to its file, its backup and the manifest what its operations allow. -/
theorem installInto_installed (manifest : InitManifest) :
    (ConfigFile.ofBlock path whenMissing parse inject print).Installed faults disk manifest
      ((installInto path whenMissing parse inject print manifest).call faults disk) := by
  generalize block : ConfigFile.ofBlock path whenMissing parse inject print = file
  obtain rfl : path = file.path := by rw [← block]; rfl
  obtain rfl : whenMissing = file.whenMissing := by rw [← block]; rfl
  unfold installInto
  rw [call_bind, call_attempt]
  cases dir : faults (.createDir file.path) with
  | true =>
    rw [if_pos rfl, FileM.andThen]
    exact .stopped _ (fun begun => Bool.false_ne_true (begun.1.1.symm.trans dir))
      (fun passes => Bool.false_ne_true (passes.1.1.symm.trans dir))
  | false =>
    rw [if_neg Bool.false_ne_true, FileM.andThen, call_bind]
    by_cases opens : file.Opens faults disk
    case neg =>
      obtain ⟨error, failed⟩ := call_readExisting_error opens dir
      rw [failed, FileM.andThen]
      exact .stopped _ (fun begun => opens begun.1) (fun passes => opens passes.1)
    rw [call_readExisting opens, FileM.andThen, call_bind, call_orThrow]
    -- what the edit makes of the contents
    have made : file.edit (file.contents disk) = (ConfigFile.ofBlock file.path file.whenMissing
        parse inject print).edit (file.contents disk) := by
      rw [block]
    dsimp only [ConfigFile.ofBlock] at made
    cases parsed : parse (file.contents disk) with
    | none =>
      rw [parsed] at made
      exact .refused made _
    | some value =>
      rw [parsed] at made
      dsimp only at made
      rw [FileM.andThen, call_bind, call_orThrow]
      rcases injected : inject value with _ | ⟨_ | _, value'⟩
      · rw [injected] at made
        exact .refused made _
      · rw [injected] at made
        exact .unchanged made ⟨opens, Or.inl made⟩
      · rw [injected] at made
        exact .write opens made

end Block

end VsFleet
