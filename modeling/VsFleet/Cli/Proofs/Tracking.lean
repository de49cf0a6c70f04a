import VsFleet.Cli.Proofs.InitSteps

/-!
# Files and the manifest

A config file is in step with the manifest: it is as it was and not recorded, or it is recorded and
its backup is what it was. Undoing the manifest brings the first about from the second; a block that
comes to its end leaves the file in step, and one that stops halfway leaves what no manifest tells
of.
-/

namespace VsFleet

namespace ConfigFile

variable {β : Type} {file : ConfigFile β} {orig : Option β} {disk disk' : Disk β}
  {entries entries' : List ManifestEntry} {manifest : InitManifest} {faults : Faults}

/-- The paths the file is kept under. -/
def Owns (file : ConfigFile β) (path : PathBuf) : Prop := path = file.path ∨ path = file.backup

/-- The entry is one that a block writes for the file. -/
def Wrote (file : ConfigFile β) (entry : ManifestEntry) : Prop :=
  entry.target = file.path ∧ ∀ backup, entry.backup = some backup → backup = file.backup

/-- The entries of the file. -/
def entriesOf (file : ConfigFile β) (entries : List ManifestEntry) : List ManifestEntry :=
  entries.filter (fun e => e.target = file.path)

/-- The file, which was `orig`, is in step with the manifest. -/
inductive Tracked (file : ConfigFile β) (orig : Option β) (disk : Disk β)
    (entries : List ManifestEntry) : Prop where
  | kept (unrecorded : file.entriesOf entries = []) (same : disk file.path = orig)
      (fresh : disk file.backup = none)
  | recorded
      (entry : file.entriesOf entries = [⟨file.path, orig.map (fun _ => file.backup)⟩])
      (saved : disk file.backup = orig)
      (settled : orig = none → file.edit (file.contents disk) = .unchanged)

/-- The file, which was `orig`, has been changed, and the manifest does not tell. -/
structure Stray (file : ConfigFile β) (orig : Option β) (disk : Disk β)
    (entries : List ManifestEntry) : Prop where
  unrecorded : file.entriesOf entries = []
  changed : disk file.backup ≠ none ∨ (orig = none ∧ disk file.path ≠ none)

/-! ## What others do -/

theorem Tracked.congr (h : file.Tracked orig disk entries)
    (same : ∀ path, file.Owns path → disk' path = disk path)
    (entries_eq : file.entriesOf entries' = file.entriesOf entries) :
    file.Tracked orig disk' entries' := by
  have path := same file.path (Or.inl rfl)
  have backup := same file.backup (Or.inr rfl)
  cases h with
  | kept unrecorded kept fresh =>
    exact .kept (entries_eq.trans unrecorded) (path.trans kept) (backup.trans fresh)
  | recorded entry saved settled =>
    refine .recorded (entries_eq.trans entry) (backup.trans saved) (fun missing => ?_)
    rw [contents, path]
    exact settled missing

theorem Stray.congr (h : file.Stray orig disk entries)
    (same : ∀ path, file.Owns path → disk' path = disk path) : file.Stray orig disk' entries where
  unrecorded := h.unrecorded
  changed := by
    rw [same file.backup (Or.inr rfl), same file.path (Or.inl rfl)]
    exact h.changed

/-- A block touches only what its file owns. -/
theorem Installed.frame {r : Except FileError (InitManifest × Bool) × Disk β}
    (h : file.Installed faults disk manifest r) {path : PathBuf} (other : ¬ file.Owns path) :
    r.2 path = disk path := by
  have ne : path ≠ file.path := fun own => other (Or.inl own)
  have ne' : path ≠ file.backup := fun own => other (Or.inr own)
  cases h with
  | stopped => rfl
  | backedUp => exact Function.update_of_ne ne' _ _
  | unchanged => rfl
  | changed => exact (Function.update_of_ne ne _ _).trans (Function.update_of_ne ne' _ _)

theorem undoEntry_frame {entry : ManifestEntry} {path : PathBuf} (target : entry.target ≠ path)
    (backup : ∀ b, entry.backup = some b → b ≠ path) : undoEntry disk entry path = disk path := by
  unfold undoEntry
  cases is : entry.backup with
  | none => exact Function.update_of_ne target.symm _ _
  | some b =>
    have ne := backup b is
    dsimp only
    cases disk b with
    | none => exact Function.update_of_ne target.symm _ _
    | some bytes =>
      exact (Function.update_of_ne ne.symm _ _).trans (Function.update_of_ne target.symm _ _)

/-- Undoing the entries of other files leaves a file alone. -/
theorem foldl_undoEntry_frame {path : PathBuf} (entries : List ManifestEntry)
    (others : ∀ e ∈ entries, e.target ≠ path ∧ ∀ b, e.backup = some b → b ≠ path) :
    ∀ disk : Disk β, entries.foldl undoEntry disk path = disk path := by
  induction entries with
  | nil => exact fun _ => rfl
  | cons entry entries ih =>
    intro disk
    obtain ⟨target, backup⟩ := others entry List.mem_cons_self
    rw [List.foldl_cons, ih (fun e mem => others e (List.mem_cons_of_mem entry mem)),
      undoEntry_frame target backup]

/-! ## Undoing -/

/-- Entries of which none is the file's leave what it owns alone. -/
theorem foldl_undoEntry_unrecorded {other : ConfigFile β}
    (apart : ∀ path, file.Owns path → ¬ other.Owns path)
    (wrote : ∀ e ∈ entries, file.Wrote e ∨ other.Wrote e) (unrecorded : file.entriesOf entries = [])
    {path : PathBuf} (own : file.Owns path) : entries.foldl undoEntry disk path = disk path := by
  refine foldl_undoEntry_frame entries (fun e mem => ?_) disk
  have foreign : other.Wrote e := by
    refine (wrote e mem).resolve_left (fun mine => ?_)
    have recorded : e ∈ file.entriesOf entries := List.mem_filter.mpr ⟨mem, by simpa using mine.1⟩
    rw [unrecorded] at recorded
    exact List.not_mem_nil recorded
  refine ⟨fun target => ?_, fun b backup same => ?_⟩
  · exact apart path own (Or.inl (target.symm.trans foreign.1))
  · exact apart path own (Or.inr (same.symm.trans (foreign.2 b backup)))

/-- Undoing the entry of a file puts it back. -/
theorem undoEntry_own (ne : file.path ≠ file.backup) (saved : disk file.backup = orig) :
    undoEntry disk ⟨file.path, orig.map (fun _ => file.backup)⟩ file.path = orig ∧
      undoEntry disk ⟨file.path, orig.map (fun _ => file.backup)⟩ file.backup = none := by
  unfold undoEntry
  cases orig with
  | none =>
    exact ⟨Function.update_self _ _ _, (Function.update_of_ne ne.symm _ _).trans saved⟩
  | some bytes =>
    dsimp only [Option.map_some]
    rw [saved]
    exact ⟨(Function.update_of_ne ne _ _).trans (Function.update_self _ _ _),
      Function.update_self _ _ _⟩

/-- Undoing the manifest puts a file that is in step back. -/
theorem Tracked.undo {other : ConfigFile β} (apart : ∀ path, file.Owns path → ¬ other.Owns path)
    (ne : file.path ≠ file.backup) (entries : List ManifestEntry) : ∀ {disk : Disk β},
    file.Tracked orig disk entries → (∀ e ∈ entries, file.Wrote e ∨ other.Wrote e) →
      entries.foldl undoEntry disk file.path = orig ∧
        entries.foldl undoEntry disk file.backup = none := by
  induction entries with
  | nil =>
    intro disk h _
    cases h with
    | kept _ same fresh => exact ⟨same, fresh⟩
    | recorded entry => cases entry
  | cons e entries ih =>
    intro disk h wrote
    have later : ∀ e ∈ entries, file.Wrote e ∨ other.Wrote e :=
      fun e' mem => wrote e' (List.mem_cons_of_mem e mem)
    cases h with
    | kept unrecorded same fresh =>
      rw [foldl_undoEntry_unrecorded apart wrote unrecorded (Or.inl rfl),
        foldl_undoEntry_unrecorded apart wrote unrecorded (Or.inr rfl)]
      exact ⟨same, fresh⟩
    | recorded entry saved settled =>
      rw [List.foldl_cons]
      by_cases own : e.target = file.path
      · -- the one entry of the file, so that none is left
        rw [entriesOf, List.filter_cons_of_pos (by simpa using own), List.cons.injEq] at entry
        obtain ⟨rfl, unrecorded⟩ := entry
        obtain ⟨back, gone⟩ := undoEntry_own ne saved
        exact ih (.kept unrecorded back gone) later
      · rw [entriesOf, List.filter_cons_of_neg (by simpa using own)] at entry
        have foreign := (wrote e List.mem_cons_self).resolve_left (fun mine => own mine.1)
        refine ih (Tracked.congr (.recorded entry saved settled) (fun path mine => ?_) rfl) later
        refine undoEntry_frame (fun target => ?_) (fun b backup same => ?_)
        · exact apart path mine (Or.inl (target.symm.trans foreign.1))
        · exact apart path mine (Or.inr (same.symm.trans (foreign.2 b backup)))

/-- Undoing the manifest does not put a file back that it does not tell of. -/
theorem Stray.not_put_back {other : ConfigFile β} (h : file.Stray orig disk entries)
    (apart : ∀ path, file.Owns path → ¬ other.Owns path)
    (wrote : ∀ e ∈ entries, file.Wrote e ∨ other.Wrote e) :
    ¬ (entries.foldl undoEntry disk file.path = orig ∧
      entries.foldl undoEntry disk file.backup = none) := by
  rw [foldl_undoEntry_unrecorded apart wrote h.unrecorded (Or.inl rfl),
    foldl_undoEntry_unrecorded apart wrote h.unrecorded (Or.inr rfl)]
  rintro ⟨same, fresh⟩
  rcases h.changed with backup | ⟨missing, there⟩
  · exact backup fresh
  · exact there (same.trans missing)

/-! ## Recording -/

theorem any_target_iff : manifest.entries.any (fun e => e.target = file.path) = true ↔
    file.entriesOf manifest.entries ≠ [] := by
  rw [entriesOf, ne_eq, List.filter_eq_nil_iff, List.any_eq_true]
  simp

theorem record_of_recorded (recorded : file.entriesOf manifest.entries ≠ [])
    (backup : Option PathBuf) : manifest.record file.path backup = manifest :=
  if_pos (any_target_iff.mpr recorded)

theorem record_of_unrecorded (unrecorded : file.entriesOf manifest.entries = [])
    (backup : Option PathBuf) :
    manifest.record file.path backup = ⟨manifest.entries ++ [⟨file.path, backup⟩]⟩ :=
  if_neg (fun any => any_target_iff.mp any unrecorded)

/-- A record of a file leaves the entries of another as they are. -/
theorem entriesOf_record {other : ConfigFile β} (ne : other.path ≠ file.path)
    (backup : Option PathBuf) :
    other.entriesOf (manifest.record file.path backup).entries =
      other.entriesOf manifest.entries := by
  unfold InitManifest.record
  split
  · rfl
  · rw [entriesOf, List.filter_append, List.filter_cons_of_neg (by simpa using ne.symm),
      List.filter_nil, List.append_nil, entriesOf]

theorem wrote_record {other : ConfigFile β}
    (wrote : ∀ e ∈ manifest.entries, file.Wrote e ∨ other.Wrote e) :
    ∀ e ∈ (manifest.record file.path (orig.map (fun _ => file.backup))).entries,
      file.Wrote e ∨ other.Wrote e := by
  unfold InitManifest.record
  split
  · exact wrote
  · intro e mem
    rcases List.mem_append.mp mem with old | new
    · exact wrote e old
    · rw [List.mem_singleton.mp new]
      refine Or.inl ⟨rfl, fun backup is => ?_⟩
      obtain ⟨-, -, rfl⟩ := Option.map_eq_some_iff.mp is
      rfl

/-! ## A block -/

/-- The block changes the file and the manifest does not tell yet. -/
def Starts (file : ConfigFile β) (faults : Faults) (disk : Disk β) (entries : List ManifestEntry) :
    Prop :=
  file.Begins faults disk ∧ file.entriesOf entries = []

/-- A block that stops leaves the file as it is, unless it has begun to change it. -/
theorem Tracked.stop (h : file.Tracked orig disk manifest.entries) {error : FileError}
    (done : file.Installed faults disk manifest (.error error, disk')) :
    ¬ file.Passes faults disk ∧
      (file.Starts faults disk manifest.entries → file.Stray orig disk' manifest.entries) ∧
      (¬ file.Starts faults disk manifest.entries → disk' = disk) := by
  cases done with
  | stopped error before not => exact ⟨not, fun starts => absurd starts.1 before, fun _ => rfl⟩
  | backedUp error there fresh begun not =>
    have unrecorded : file.entriesOf manifest.entries = [] := by
      obtain ⟨-, printed, changed, -⟩ := begun
      cases h with
      | kept unrecorded => exact unrecorded
      -- an edit of a recorded file that was not there has nothing to change
      | recorded entry saved settled => cases (settled (saved.symm.trans fresh)).symm.trans changed
    refine ⟨not, fun _ => ⟨unrecorded, Or.inl ?_⟩, fun still => absurd ⟨begun, unrecorded⟩ still⟩
    rw [backedUp, Function.update_self, fresh, Option.none_or]
    exact Option.isSome_iff_ne_none.mp there

/-- What a block that comes to its end makes of a file that is in step: it is in step with what the
block returns, which alone tells of a change to a file that was not recorded. -/
structure Progress (file : ConfigFile β) (orig : Option β) (faults : Faults) (disk disk' : Disk β)
    (manifest manifest' : InitManifest) (modified : Bool) : Prop where
  passes : file.Passes faults disk
  tracked : file.Tracked orig disk' manifest'.entries
  starts : file.Starts faults disk manifest.entries →
    file.Stray orig disk' manifest.entries ∧ modified = true
  still : ¬ file.Starts faults disk manifest.entries → manifest' = manifest
  record : manifest' = manifest ∨
    manifest' = manifest.record file.path (orig.map (fun _ => file.backup))

theorem Tracked.progress (h : file.Tracked orig disk manifest.entries)
    (ne : file.path ≠ file.backup)
    (settles : ∀ new, file.edit file.whenMissing = .changed (some new) → file.edit new = .unchanged)
    {manifest' : InitManifest} {modified : Bool}
    (done : file.Installed faults disk manifest (.ok (manifest', modified), disk')) :
    file.Progress orig faults disk disk' manifest manifest' modified := by
  cases done with
  | unchanged same passes =>
    refine ⟨passes, h, fun starts => ?_, fun _ => rfl, Or.inl rfl⟩
    obtain ⟨⟨-, printed, changed, -⟩, -⟩ := starts
    cases same.symm.trans changed
  | @changed new edited begun passes =>
    have written : Function.update (file.backedUp disk) file.path (some new) file.path =
        some new := Function.update_self _ _ _
    have kept : Function.update (file.backedUp disk) file.path (some new) file.backup =
        (disk file.backup).or (disk file.path) :=
      (Function.update_of_ne ne.symm _ _).trans (Function.update_self _ _ _)
    cases h with
    | kept unrecorded same fresh =>
      rw [fresh, Option.none_or, same] at kept
      rw [same]
      have stray : file.Stray orig (Function.update (file.backedUp disk) file.path (some new))
          manifest.entries := by
        refine ⟨unrecorded, ?_⟩
        rw [kept, written]
        cases orig with
        | none => exact Or.inr ⟨rfl, Option.some_ne_none new⟩
        | some bytes => exact Or.inl (Option.some_ne_none bytes)
      refine ⟨passes, .recorded ?_ kept ?_, fun _ => ⟨stray, rfl⟩,
        fun still => absurd ⟨begun, unrecorded⟩ still, Or.inr rfl⟩
      · rw [record_of_unrecorded unrecorded, entriesOf, List.filter_append]
        unfold entriesOf at unrecorded
        rw [unrecorded, List.nil_append, List.filter_cons_of_pos (by simp), List.filter_nil]
      · intro missing
        rw [contents, same, missing, Option.getD_none] at edited
        rw [contents, written, Option.getD_some]
        exact settles new edited
    | recorded entry saved settled =>
      have recorded : file.entriesOf manifest.entries ≠ [] := by
        rw [entry]
        exact List.cons_ne_nil _ _
      cases orig with
      | none => cases (settled rfl).symm.trans edited
      | some bytes =>
        rw [record_of_recorded recorded]
        rw [saved, Option.some_or] at kept
        exact ⟨passes,
          .recorded entry kept (fun missing => absurd missing (Option.some_ne_none bytes)),
          fun starts => absurd starts.2 recorded, fun _ => rfl, Or.inl rfl⟩

/-- The block leaves the entries of another file as they are. -/
theorem Progress.entriesOf_other {other : ConfigFile β} {manifest' : InitManifest} {modified : Bool}
    (h : file.Progress orig faults disk disk' manifest manifest' modified)
    (ne : other.path ≠ file.path) :
    other.entriesOf manifest'.entries = other.entriesOf manifest.entries := by
  rcases h.record with same | record
  · rw [same]
  · rw [record]
    exact entriesOf_record ne _

theorem Progress.wrote {other : ConfigFile β} {manifest' : InitManifest} {modified : Bool}
    (h : file.Progress orig faults disk disk' manifest manifest' modified)
    (wrote : ∀ e ∈ manifest.entries, file.Wrote e ∨ other.Wrote e) :
    ∀ e ∈ manifest'.entries, file.Wrote e ∨ other.Wrote e := by
  rcases h.record with same | record
  · exact same ▸ wrote
  · exact record ▸ wrote_record wrote

/-- What a block can do rests on what its file owns. -/
theorem starts_congr (same : ∀ path, file.Owns path → disk' path = disk path)
    (entries_eq : file.entriesOf entries' = file.entriesOf entries) :
    file.Starts faults disk' entries' ↔ file.Starts faults disk entries := by
  unfold Starts Begins Opens CanBackUp contents
  rw [entries_eq, same file.path (Or.inl rfl), same file.backup (Or.inr rfl)]

theorem passes_congr (same : ∀ path, file.Owns path → disk' path = disk path) :
    file.Passes faults disk' ↔ file.Passes faults disk := by
  unfold Passes Opens CanBackUp contents
  rw [same file.path (Or.inl rfl), same file.backup (Or.inr rfl)]

theorem contents_congr (same : ∀ path, file.Owns path → disk' path = disk path) :
    file.contents disk' = file.contents disk := by
  rw [contents, same file.path (Or.inl rfl), contents]

/-- A block that comes to its end leaves contents with nothing to change. -/
theorem Installed.settled {done : InitManifest × Bool}
    (h : file.Installed faults disk manifest (.ok done, disk'))
    (settles : ∀ new, file.edit (file.contents disk) = .changed (some new) →
      file.edit new = .unchanged) : file.edit (file.contents disk') = .unchanged := by
  cases h with
  | unchanged same => exact same
  | @changed new edited =>
    rw [contents, Function.update_self, Option.getD_some]
    exact settles new edited

/-- With nothing to change a block that comes to its end changes nothing. -/
theorem Installed.still {done : InitManifest × Bool}
    (h : file.Installed faults disk manifest (.ok done, disk'))
    (settled : file.edit (file.contents disk) = .unchanged) :
    done = (manifest, false) ∧ disk' = disk := by
  cases h with
  | unchanged => exact ⟨rfl, rfl⟩
  | changed edited => cases settled.symm.trans edited

end ConfigFile

end VsFleet
