import VsFleet.Cli.Proofs.ConfigFiles

/-!
# Where `fleet init` panics

An operation on a file fails with its own error, and so does a parser; an `unwrap` is left only
where the hooks are put into the settings of Claude, at a value that is no object.
-/

namespace VsFleet

/-! ## Operations that only fail -/

section Calls

variable {β α γ : Type}

/-- Whatever fails, there is no panic. -/
def NeverPanics (f : FileM β α) : Prop := ∀ faults disk, (f.call faults disk).1 ≠ .error .panic

theorem neverPanics_pure (a : α) : NeverPanics (pure a : FileM β α) :=
  fun _ _ panic => by cases panic

theorem neverPanics_bind {f : FileM β α} {g : α → FileM β γ} (first : NeverPanics f)
    (next : ∀ a, NeverPanics (g a)) : NeverPanics (f >>= g) := by
  intro faults disk
  rw [call_bind]
  have fine := first faults disk
  rcases called : f.call faults disk with ⟨error | a, disk'⟩
  · rw [called] at fine
    exact fun panic => fine (congrArg Except.error (Except.error.inj panic))
  · exact next a faults disk'

theorem neverPanics_attempt {error : FileError} (own : error ≠ .panic) :
    NeverPanics (attempt error : FileM β Unit) := by
  intro faults disk
  rw [call_attempt]
  split
  · exact fun panic => own (Except.error.inj panic)
  · exact fun panic => by cases panic

theorem neverPanics_pathExists (path : PathBuf) : NeverPanics (pathExists path : FileM β Bool) :=
  fun _ _ panic => by cases panic

theorem neverPanics_orThrow {error : FileError} (own : error ≠ .panic) (a : Option α) :
    NeverPanics (orThrow error a : FileM β α) := by
  intro faults disk
  rw [call_orThrow]
  cases a with
  | none => exact fun panic => own (Except.error.inj panic)
  | some a => exact fun panic => by cases panic

theorem neverPanics_readFile {error : FileError} (own : error ≠ .panic) (path : PathBuf) :
    NeverPanics (readFile error path : FileM β β) :=
  neverPanics_bind (neverPanics_attempt own) (fun _ =>
    neverPanics_bind (fun _ _ panic => by cases panic)
      (fun disk => neverPanics_orThrow own (disk path)))

theorem neverPanics_writeFile {error : FileError} (own : error ≠ .panic) (path : PathBuf)
    (contents : β) : NeverPanics (writeFile error path contents) := by
  intro faults disk
  rw [call_writeFile]
  split
  · exact fun panic => own (Except.error.inj panic)
  · exact fun panic => by cases panic

theorem neverPanics_save (formats : Formats β) (manifest : InitManifest) (path : PathBuf) :
    NeverPanics (manifest.save formats path) :=
  neverPanics_bind (neverPanics_attempt FileError.noConfusion) (fun _ =>
    neverPanics_bind (neverPanics_orThrow FileError.noConfusion _) (fun _ =>
      neverPanics_writeFile FileError.noConfusion path _))

theorem neverPanics_maybeBackup (target backup : PathBuf) :
    NeverPanics (maybeBackup target backup : FileM β (Option PathBuf)) := by
  refine neverPanics_bind (neverPanics_pathExists target) (fun there => ?_)
  split
  · refine neverPanics_bind (neverPanics_pathExists backup) (fun kept => ?_)
    split
    · exact neverPanics_pure _
    · exact neverPanics_bind (neverPanics_readFile FileError.noConfusion target) (fun _ =>
        neverPanics_bind (neverPanics_attempt FileError.noConfusion) (fun _ =>
          neverPanics_bind (neverPanics_writeFile FileError.noConfusion backup _) (fun _ =>
            neverPanics_pure _)))
  · exact neverPanics_pure _

theorem neverPanics_readExisting (path : PathBuf) (whenMissing : β) :
    NeverPanics (readExisting path whenMissing) := by
  refine neverPanics_bind (neverPanics_pathExists path) (fun there => ?_)
  split
  · exact neverPanics_readFile FileError.noConfusion path
  · exact neverPanics_pure _

end Calls

/-! ## A block -/

section Block

variable {β V : Type} {faults : Faults} {disk : Disk β} {path : PathBuf} {whenMissing : β}
  {parse : β → Option V} {inject : V → Option (Bool × V)} {print : V → Option β}

/-- A block panics just where it gets to the value of its file and the edit of it panics. -/
theorem installInto_panics_iff (manifest : InitManifest) :
    ((installInto path whenMissing parse inject print manifest).call faults disk).1 =
        .error .panic ↔
      (ConfigFile.ofBlock path whenMissing parse inject print).Opens faults disk ∧
        ∃ value, parse ((disk path).getD whenMissing) = some value ∧ inject value = none := by
  unfold installInto
  rw [call_bind, call_attempt]
  cases dir : faults (.createDir path) with
  | true =>
    refine iff_of_false (fun panic => by cases panic) (fun reaches => ?_)
    exact Bool.false_ne_true (reaches.1.1.symm.trans dir)
  | false =>
    rw [if_neg Bool.false_ne_true, FileM.andThen, call_bind]
    by_cases opens : (ConfigFile.ofBlock path whenMissing parse inject print).Opens faults disk
    case neg =>
      obtain ⟨error, failed⟩ := call_readExisting_error opens dir
      have fine := neverPanics_readExisting path whenMissing faults disk
      have failed' : (readExisting path whenMissing).call faults disk = (.error error, disk) :=
        failed
      rw [failed'] at fine ⊢
      exact iff_of_false (fun panic => fine (congrArg Except.error (Except.error.inj panic)))
        (fun reaches => opens reaches.1)
    have read : (readExisting path whenMissing).call faults disk =
        (.ok ((disk path).getD whenMissing), disk) := call_readExisting opens
    rw [read, FileM.andThen, call_bind, call_orThrow]
    cases parse ((disk path).getD whenMissing) with
    | none =>
      refine iff_of_false (fun panic => by cases panic) ?_
      rintro ⟨-, value, parsed, -⟩
      cases parsed
    | some value =>
      rw [FileM.andThen, call_bind, call_orThrow]
      cases injected : inject value with
      | none => exact iff_of_true rfl ⟨opens, value, rfl, injected⟩
      | some result =>
        refine iff_of_false ?_ ?_
        · have fine : NeverPanics (β := β) (do
              if result.1 then
                let backupOpt ← maybeBackup path (backupPath path)
                let newBytes ← orThrow (.serialise path) (print result.2)
                writeFile (.write path) path newBytes
                return (manifest.record path backupOpt, true)
              else return (manifest, false)) := by
            split
            · exact neverPanics_bind (neverPanics_maybeBackup _ _) (fun _ =>
                neverPanics_bind (neverPanics_orThrow FileError.noConfusion _) (fun _ =>
                  neverPanics_bind (neverPanics_writeFile FileError.noConfusion _ _) (fun _ =>
                    neverPanics_pure _)))
            · exact neverPanics_pure _
          exact fine faults disk
        · rintro ⟨-, value', same, panics⟩
          cases same
          cases injected.symm.trans panics

end Block

/-! ## The hooks of Claude -/

/-- There is nothing but an object under the key. -/
def ObjectOrAbsent (fields : List (String × Json)) (key : String) : Prop :=
  ∀ v, SortedMap.get? fields key = some v → ∃ inner, v = .object inner

/-- All that the hooks are put into is objects: the root, the hooks and the entry of every relayed
event. -/
def HooksFit (value : Json) : Prop :=
  ∃ fields, value = .object fields ∧ ObjectOrAbsent fields "hooks" ∧
    ∀ hooksObj, SortedMap.get? fields "hooks" = some (.object hooksObj) →
      ∀ event ∈ claudeHookEvents, ObjectOrAbsent hooksObj event

/-- Absent or not, an object can be had. -/
theorem ObjectOrAbsent.getD {fields : List (String × Json)} {key : String}
    (h : ObjectOrAbsent fields key) :
    ∃ inner, (SortedMap.get? fields key).getD (.object []) = .object inner := by
  cases found : SortedMap.get? fields key with
  | none => exact ⟨[], rfl⟩
  | some v => exact h v found

theorem ObjectOrAbsent.other {fields : List (String × Json)} {key : String}
    (h : ¬ ObjectOrAbsent fields key) :
    ∃ v, SortedMap.get? fields key = some v ∧ ∀ inner, v ≠ .object inner := by
  obtain ⟨v, refused⟩ := not_forall.mp h
  obtain ⟨found, other⟩ := Classical.not_imp.mp refused
  exact ⟨v, found, not_exists.mp other⟩

/-- A round of the loop panics at an entry that is no object, and leaves an object. -/
theorem mergeClaudeHook_cases (hooksObj : List (String × Json)) (fleet : String × Json) :
    (mergeClaudeHook hooksObj fleet = none ∧ ¬ ObjectOrAbsent hooksObj fleet.1) ∨
    (ObjectOrAbsent hooksObj fleet.1 ∧ ∃ entry,
      mergeClaudeHook hooksObj fleet =
        some (SortedMap.insert fleet.1 (.object entry) hooksObj)) := by
  unfold mergeClaudeHook
  by_cases room : ObjectOrAbsent hooksObj fleet.1
  · obtain ⟨existing, there⟩ := room.getD
    rw [there]
    exact Or.inr ⟨room, _, rfl⟩
  · refine Or.inl ⟨?_, room⟩
    obtain ⟨v, found, other⟩ := ObjectOrAbsent.other room
    rw [found, Option.getD_some]
    cases v with
    | object inner => exact absurd rfl (other inner)
    | _ => rfl

/-- The rounds panic just where an entry that they come to is no object. -/
theorem foldlM_mergeClaudeHook_eq_none (fleet : List (String × Json)) :
    ∀ {hooksObj : List (String × Json)}, fleet.foldlM mergeClaudeHook hooksObj = none ↔
      ¬ ∀ hook ∈ fleet, ObjectOrAbsent hooksObj hook.1 := by
  induction fleet with
  | nil =>
    intro hooksObj
    refine iff_of_false (fun none => by cases none) (fun panics => panics ?_)
    exact fun hook mem => absurd mem List.not_mem_nil
  | cons hook fleet ih =>
    intro hooksObj
    rw [List.foldlM_cons, Option.bind_eq_bind, List.forall_mem_cons]
    rcases mergeClaudeHook_cases hooksObj hook with ⟨panic, other⟩ | ⟨room, entry, merged⟩
    · rw [panic]
      exact iff_of_true rfl (fun objects => other objects.1)
    · -- the round has put an object where there was room for one
      have same : ∀ key, ObjectOrAbsent (SortedMap.insert hook.1 (.object entry) hooksObj) key ↔
          ObjectOrAbsent hooksObj key := by
        intro key
        unfold ObjectOrAbsent at room ⊢
        rw [SortedMap.get?_insert]
        by_cases own : hook.1 = key
        · rw [if_pos own]
          refine iff_of_true (fun v stored => ⟨entry, (Option.some.inj stored).symm⟩) ?_
          exact own ▸ room
        · rw [if_neg own]
      rw [merged, Option.bind_some, ih]
      simp only [same, room, true_and]

/-- Putting the hooks in panics just where they are not there and what they are put into is no
object. -/
theorem injectClaudeHooks_eq_none_iff (reporterSocket : String) (value : Json) :
    injectClaudeHooks reporterSocket value = none ↔
      claudeSettingsHasFleetHooks value = false ∧ ¬ HooksFit value := by
  unfold injectClaudeHooks
  cases claudeSettingsHasFleetHooks value with
  | true => exact iff_of_false (Option.some_ne_none _) (fun h => Bool.false_ne_true h.1.symm)
  | false =>
    rw [if_neg Bool.false_ne_true]
    simp only [true_and]
    cases value with
    | object fields =>
      dsimp only
      by_cases room : ObjectOrAbsent fields "hooks"
      case neg =>
        obtain ⟨v, found, other⟩ := ObjectOrAbsent.other room
        refine iff_of_true ?_ ?_
        · rw [found, Option.getD_some]
          cases v with
          | object inner => exact absurd rfl (other inner)
          | _ => rfl
        · rintro ⟨fields', same, room', -⟩
          cases same
          exact room room'
      obtain ⟨hooksObj, there⟩ := room.getD
      have fits : HooksFit (.object fields) ↔
          ∀ hook ∈ buildClaudeHooks reporterSocket, ObjectOrAbsent hooksObj hook.1 := by
        unfold buildClaudeHooks
        rw [List.forall_mem_map]
        constructor
        · rintro ⟨fields', same, -, entries⟩ event mem
          cases same
          cases found : SortedMap.get? fields "hooks" with
          | none =>
            rw [found, Option.getD_none, Json.object.injEq] at there
            exact there ▸ fun v none => by cases none
          | some hooks =>
            rw [found, Option.getD_some] at there
            exact entries hooksObj (found.trans (congrArg some there)) event mem
        · intro entries
          refine ⟨fields, rfl, room, fun hooksObj' found event mem => ?_⟩
          rw [found, Option.getD_some, Json.object.injEq] at there
          exact there ▸ entries event mem
      rw [there, fits]
      dsimp only
      rw [Option.map_eq_none_iff, foldlM_mergeClaudeHook_eq_none]
    | _ =>
      refine iff_of_true rfl ?_
      rintro ⟨fields, same, -⟩
      cases same

/-! ## A call -/

section Init

variable {β : Type} (formats : Formats β) (cfg : InitConfig) (faults : Faults) (disk : Disk β)

/-- The call comes to the contents of the settings: the manifest can be loaded, and the settings, if
they are there, can be read. -/
structure ReachesSettings : Prop where
  manifest : ∃ manifest, ManifestOn formats disk cfg.manifestPath manifest
  load : CanLoad faults disk cfg.manifestPath
  opens : (claudeFile formats cfg).Opens faults disk

/-- A manifest that cannot be parsed is an error. -/
theorem call_load_malformed (can : CanLoad faults disk cfg.manifestPath)
    (malformed : ¬ ∃ manifest, ManifestOn formats disk cfg.manifestPath manifest) :
    (InitManifest.load formats cfg.manifestPath).call faults disk =
      (.error .parseManifest, disk) := by
  rw [InitManifest.load, call_bind, call_pathExists, FileM.andThen]
  cases there : disk cfg.manifestPath with
  | none => exact absurd ⟨⟨[]⟩, Or.inl ⟨there, rfl⟩⟩ malformed
  | some bytes =>
    have read := can (by rw [there]; rfl)
    have bad : formats.parseManifest bytes = none := by
      cases parsed : formats.parseManifest bytes with
      | none => rfl
      | some manifest => exact absurd ⟨manifest, Or.inr ⟨bytes, there, parsed⟩⟩ malformed
    simp [call_bind, call_readFile _ there, read, FileM.andThen, call_orThrow, bad]

/-- What comes after the block of Claude does not panic. -/
theorem neverPanics_afterClaude (done : InitManifest × Bool) : NeverPanics (do
    let (manifest, codexModified) ← installCodex formats cfg done.1
    let manifestWritten := done.2 || codexModified
    if manifestWritten then manifest.save formats cfg.manifestPath
    return (⟨done.2, codexModified, manifestWritten⟩ : InitResult)) := by
  refine neverPanics_bind (fun faults disk panic => ?_) (fun done' => ?_)
  · obtain ⟨-, table, -, none⟩ := (installInto_panics_iff done.1).mp panic
    cases none
  · dsimp only
    split
    · exact neverPanics_bind (neverPanics_save formats _ _) (fun _ => neverPanics_pure _)
    · exact neverPanics_pure _

/-- A call panics just where it comes to settings that read as JSON, without hooks of Fleet, in
which something that the hooks are to be put into is no object. -/
theorem init_panics_iff :
    ((doInit formats cfg).call faults disk).1 = .error .panic ↔
      ReachesSettings formats cfg faults disk ∧
        ∃ v, formats.parseJson ((claudeFile formats cfg).contents disk) = some v ∧
          claudeSettingsHasFleetHooks v.keyed = false ∧ ¬ HooksFit v.keyed := by
  unfold doInit
  rw [call_bind]
  by_cases can : CanLoad faults disk cfg.manifestPath
  case neg =>
    rw [(call_load_error formats can).1]
    exact iff_of_false (fun panic => by cases panic) (fun reaches => can reaches.1.load)
  by_cases on : ∃ manifest, ManifestOn formats disk cfg.manifestPath manifest
  case neg =>
    rw [call_load_malformed formats cfg faults disk can on]
    exact iff_of_false (fun panic => by cases panic) (fun reaches => on reaches.1.manifest)
  obtain ⟨manifest, on⟩ := on
  rw [call_load on can, FileM.andThen, call_bind]
  have block : ((installClaude formats cfg manifest).call faults disk).1 = .error .panic ↔
      ReachesSettings formats cfg faults disk ∧
        ∃ v, formats.parseJson ((claudeFile formats cfg).contents disk) = some v ∧
          claudeSettingsHasFleetHooks v.keyed = false ∧ ¬ HooksFit v.keyed := by
    refine (installInto_panics_iff manifest).trans ⟨?_, ?_⟩
    · rintro ⟨opens, value, parsed, panics⟩
      obtain ⟨v, read, rfl⟩ := Option.map_eq_some_iff.mp parsed
      exact ⟨⟨⟨manifest, on⟩, can, opens⟩, v, read,
        (injectClaudeHooks_eq_none_iff cfg.reporterSocket _).mp panics⟩
    · rintro ⟨reaches, v, read, bad⟩
      refine ⟨reaches.opens, v.keyed, ?_,
        (injectClaudeHooks_eq_none_iff cfg.reporterSocket _).mpr bad⟩
      exact Option.map_eq_some_iff.mpr ⟨v, read, rfl⟩
  rw [← block]
  rcases called : (installClaude formats cfg manifest).call faults disk with ⟨error | done, disk'⟩
  · exact ⟨fun panic => congrArg Except.error (Except.error.inj panic),
      fun panic => congrArg Except.error (Except.error.inj panic)⟩
  · exact iff_of_false (neverPanics_afterClaude formats cfg done faults disk')
      (fun panic => by cases panic)

/-- A call returns just where settings that it comes to, if they read as JSON, have hooks of Fleet
already or take them. -/
theorem init_returns_iff :
    ((doInit formats cfg).call faults disk).1 ≠ .error .panic ↔
      (ReachesSettings formats cfg faults disk →
        ∀ v, formats.parseJson ((claudeFile formats cfg).contents disk) = some v →
          claudeSettingsHasFleetHooks v.keyed = true ∨ HooksFit v.keyed) := by
  rw [ne_eq, init_panics_iff]
  constructor
  · intro fine reaches v read
    by_contra bad
    obtain ⟨fresh, unfit⟩ := not_or.mp bad
    exact fine ⟨reaches, v, read, Bool.eq_false_of_not_eq_true fresh, unfit⟩
  · rintro fit ⟨reaches, v, read, fresh, unfit⟩
    rcases fit reaches v read with hooked | fits
    · exact Bool.false_ne_true (fresh.symm.trans hooked)
    · exact unfit fits

end Init

/-- The settings of a user with a hook of their own on Bash, in the shape that Claude has for it. -/
def matcherSettings : Json :=
  .object [("hooks", .object [("PreToolUse", .array [.object [("matcher", .string "Bash"),
    ("hooks", .array [.object [("type", .string "command"), ("command", .string "lint")]])]])])]

/-- A disk with these settings in the home `/home`, and no more. -/
def matcherDisk : Disk ReadText := fun path =>
  if path = ["home", ".claude", "settings.json"] then some (.json matcherSettings) else none

/-- The entry of `PreToolUse` is an array of matcher groups. -/
theorem matcher_panics : ¬ ∀ (β : Type) (formats : Formats β) (cfg : InitConfig) (faults : Faults)
    (disk : Disk β), ((doInit formats cfg).call faults disk).1 ≠ .error .panic :=
  fun fine => fine ReadText readFormats ⟨["home"], "/tmp/fleet/reporter.sock"⟩ (fun _ => false)
    matcherDisk rfl

end VsFleet
