import VsFleet.Host.Supervisor
import VsFleet.Host.Surface
import VsFleet.Misc.Escape
import VsFleet.Misc.Runs

/-!
# The escapers of the host

`query_escape` and `editor_label_for` escape the bytes of a text by schemes of their own, so both
can be read back. A label then belongs to one server, and over any run of selections and closes a
webview shows only what its own server was selected with.
-/

namespace VsFleet

/-! ## The two schemes -/

/-- The characters that stand for themselves anywhere in a URL. -/
def Unreserved (c : Char) : Prop :=
  c.isAlphanum = true ∨ c = '-' ∨ c = '.' ∨ c = '_' ∨ c = '~'

instance : DecidablePred Unreserved := fun c =>
  inferInstanceAs (Decidable (c.isAlphanum = true ∨ _))

/-- A hex digit, in upper case. -/
def UpperHexDigit (c : Char) : Prop := c.isDigit = true ∨ 65 ≤ c.toNat ∧ c.toNat ≤ 70

instance : DecidablePred UpperHexDigit := fun c =>
  inferInstanceAs (Decidable (c.isDigit = true ∨ _))

/-- The scheme of `query_escape`. -/
def queryScheme : EscapeScheme where
  mark := '%'
  plain byte := queryPlain byte.toNat
  digit n := (Nat.digitChar n).toUpper
  ascii byte plain := by
    simp only [queryPlain, Bool.or_eq_true, Bool.and_eq_true, decide_eq_true_eq, beq_iff_eq] at plain
    omega
  mark_escaped := by decide
  hexValue_digit := by decide

/-- The scheme of `editor_label_for`. -/
def labelScheme : EscapeScheme where
  mark := '~'
  plain := labelPlain
  digit := Nat.digitChar
  ascii byte plain := by
    simp only [labelPlain, Bool.or_eq_true, Bool.and_eq_true, decide_eq_true_eq, beq_iff_eq,
      UInt8.le_iff_toNat_le, ← UInt8.toNat_inj] at plain
    simp at plain
    omega
  mark_escaped := by decide
  hexValue_digit := by decide

theorem utf8_eq_toUTF8 (s : String) :
    s.toList.flatMap String.utf8EncodeChar = s.toUTF8.data.toList := by
  rw [String.toUTF8_eq_toByteArray, ← String.utf8Encode_toList, List.utf8Encode,
    List.data_toByteArray]

theorem toList_queryEscape (value : String) :
    (queryEscape value).toList = queryScheme.escape value.toUTF8.data.toList := by
  rw [queryEscape, String.toList_ofList, utf8_eq_toUTF8]
  rfl

theorem editorLabelFor_eq (id : String) : editorLabelFor id =
    "editor:" ++ String.ofList (labelScheme.escape id.toUTF8.data.toList) := by
  rw [editorLabelFor, utf8_eq_toUTF8]
  rfl

theorem queryPlain_kept (byte : UInt8) (plain : queryScheme.plain byte = true) :
    Unreserved (Char.ofNat byte.toNat) ∨ Char.ofNat byte.toNat = '/' := by
  have each : ∀ n < 128, queryPlain n = true →
      Unreserved (Char.ofNat n) ∨ Char.ofNat n = '/' := by decide
  exact each byte.toNat (queryScheme.ascii byte plain) plain

theorem labelPlain_unreserved (byte : UInt8) (plain : labelScheme.plain byte = true) :
    Unreserved (Char.ofNat byte.toNat) := by
  have each : ∀ n < 128, labelPlain (UInt8.ofNat n) = true → Unreserved (Char.ofNat n) := by decide
  refine each byte.toNat (labelScheme.ascii byte plain) ?_
  rwa [UInt8.ofNat_toNat]

theorem toList_editorLabelFor (id : String) : (editorLabelFor id).toList =
    "editor:".toList ++ labelScheme.escape id.toUTF8.data.toList := by
  rw [editorLabelFor_eq, String.toList_append, String.toList_ofList, String.toList_ofList]

theorem editorLabelFor_injective : Function.Injective editorLabelFor := by
  intro a b same
  have texts := congrArg String.toList same
  rw [toList_editorLabelFor, toList_editorLabelFor] at texts
  have bytes := labelScheme.escape_injective (List.append_cancel_left texts)
  exact String.toByteArray_inj.mp (ByteArray.ext (Array.toList_inj.mp bytes))

/-! ## The surfaces -/

namespace EditorSurfaces

/-- Every surface is registered under the label of its server and with the URL it shows, and a
webview shows a URL that the server it is labelled for was to show. -/
structure Owned (s : EditorSurfaces) (asked : String → String → Prop) : Prop where
  labels : ∀ id entry, s.persistent.lookup id = some entry → entry.label = editorLabelFor id
  loaded : ∀ id entry url, s.persistent.lookup id = some entry → entry.loadedUrl = some url →
    s.webviews.lookup entry.label = some url
  shown : ∀ label url, s.webviews.lookup label = some url →
    url = "about:blank" ∨ ∃ id, label = editorLabelFor id ∧ asked id url

section Owned

variable {s : EditorSurfaces} {asked : String → String → Prop} {id : String}

theorem owned_new : new.Owned asked :=
  ⟨fun _ _ found => by simp [new] at found, fun _ _ _ found => by simp [new] at found,
    fun _ _ found => by simp [new] at found⟩

theorem Owned.label_eq (h : s.Owned asked) {label : String}
    (found : s.persistentLabel id = some label) : label = editorLabelFor id := by
  obtain ⟨entry, there, rfl⟩ := Option.map_eq_some_iff.mp found
  exact h.labels id entry there

/-- A new entry has no URL yet. -/
theorem Owned.registerPersistent (h : s.Owned asked) :
    (s.registerPersistent id (editorLabelFor id)).Owned asked := by
  unfold EditorSurfaces.registerPersistent
  split
  · exact h
  · refine ⟨fun other entry found => ?_, fun other entry url found loaded => ?_, h.shown⟩
    · by_cases same : other = id
      · subst same
        rw [AList.lookup_insert] at found
        cases found
        rfl
      · rw [AList.lookup_insert_ne same] at found
        exact h.labels other entry found
    · by_cases same : other = id
      · subst same
        rw [AList.lookup_insert] at found
        cases found
        cases loaded
      · rw [AList.lookup_insert_ne same] at found
        exact h.loaded other entry url found loaded

/-- A webview that is added where there was none is shown by no entry. -/
theorem Owned.addWebview (h : s.Owned asked) {label : String} (absent : label ∉ s.webviews) :
    { s with webviews := s.webviews.insert label "about:blank" }.Owned asked := by
  refine ⟨h.labels, fun other entry url found loaded => ?_, fun other url found => ?_⟩
  · have shown := h.loaded other entry url found loaded
    have apart : entry.label ≠ label := by
      rintro rfl
      exact absent (AList.lookup_isSome.mp (by rw [shown]; rfl))
    rwa [AList.lookup_insert_ne apart]
  · by_cases same : other = label
    · subst same
      rw [AList.lookup_insert] at found
      exact .inl (Option.some.inj found).symm
    · rw [AList.lookup_insert_ne same] at found
      exact h.shown other url found

theorem Owned.ensurePersistentEditor (h : s.Owned asked) (outcomes : SurfaceOutcomes) :
    (s.ensurePersistentEditor id outcomes).2.Owned asked ∧
      ∀ label, (s.ensurePersistentEditor id outcomes).1 = some label →
        label = editorLabelFor id := by
  unfold EditorSurfaces.ensurePersistentEditor
  split
  · exact ⟨h, fun label same => Option.some.inj same ▸ h.label_eq ‹_›⟩
  · dsimp only
    split_ifs with there added
    · exact ⟨h.registerPersistent, fun label same => (Option.some.inj same).symm⟩
    · exact ⟨(h.addWebview there).registerPersistent, fun label same => (Option.some.inj same).symm⟩
    · exact ⟨h, fun label none => nomatch none⟩

/-- The navigation of a server's own webview leaves those of the others as they are: no other server
has its label. -/
theorem Owned.navigatePersistentEditor (h : s.Owned asked) {target : String} (own : asked id target)
    (force : Bool) (outcomes : SurfaceOutcomes) :
    (s.navigatePersistentEditor id (editorLabelFor id) target force outcomes).Owned asked := by
  unfold EditorSurfaces.navigatePersistentEditor
  split
  · have shown : ∀ label url, (s.webviews.insert (editorLabelFor id) target).lookup label = some url →
        url = "about:blank" ∨ ∃ id, label = editorLabelFor id ∧ asked id url := by
      intro label url found
      by_cases same : label = editorLabelFor id
      · subst same
        rw [AList.lookup_insert] at found
        cases found
        exact .inr ⟨id, rfl, own⟩
      · rw [AList.lookup_insert_ne same] at found
        exact h.shown label url found
    have others : ∀ other entry url, other ≠ id → s.persistent.lookup other = some entry →
        entry.loadedUrl = some url →
        (s.webviews.insert (editorLabelFor id) target).lookup entry.label = some url := by
      intro other entry url apart found loaded
      rw [h.labels other entry found, AList.lookup_insert_ne (editorLabelFor_injective.ne apart),
        ← h.labels other entry found]
      exact h.loaded other entry url found loaded
    unfold recordPersistentNavigation
    cases there : s.persistent.lookup id with
    | none =>
      refine ⟨h.labels, fun other entry url found => others other entry url ?_ found, shown⟩
      rintro rfl
      rw [there] at found
      cases found
    | some entry =>
      refine ⟨fun other after found => ?_, fun other after url found loaded => ?_, shown⟩
      · by_cases same : other = id
        · subst same
          rw [AList.lookup_insert] at found
          cases found
          exact h.labels other entry there
        · rw [AList.lookup_insert_ne same] at found
          exact h.labels other after found
      · by_cases same : other = id
        · subst same
          rw [AList.lookup_insert] at found
          cases found
          cases loaded
          rw [h.labels other entry there, AList.lookup_insert]
        · rw [AList.lookup_insert_ne same] at found
          exact others other after url same found loaded
  · exact h

/-- The webview that is closed was that of no other server. -/
theorem Owned.closeEditor (h : s.Owned asked) (closed : Bool) :
    (s.closeEditor id closed).Owned asked := by
  unfold EditorSurfaces.closeEditor
  split
  · exact h
  · rename_i label found
    obtain rfl := h.label_eq found
    refine ⟨fun other entry found => ?_, fun other entry url found loaded => ?_,
      fun label url found => ?_⟩
    · by_cases same : other = id
      · subst same
        rw [AList.lookup_erase] at found
        cases found
      · rw [AList.lookup_erase_ne same] at found
        exact h.labels other entry found
    · by_cases same : other = id
      · subst same
        rw [AList.lookup_erase] at found
        cases found
      · rw [AList.lookup_erase_ne same] at found
        have there := h.loaded other entry url found loaded
        split_ifs
        · rwa [h.labels other entry found, AList.lookup_erase_ne (editorLabelFor_injective.ne same),
            ← h.labels other entry found]
        · exact there
    · split_ifs at found
      · by_cases same : label = editorLabelFor id
        · subst same
          rw [AList.lookup_erase] at found
          cases found
        · rw [AList.lookup_erase_ne same] at found
          exact h.shown label url found
      · exact h.shown label url found

theorem Owned.selectPersistent (h : s.Owned asked) {url : Option String}
    (own : ∀ target, url = some target → asked id target) (force : Bool)
    (outcomes : SurfaceOutcomes) : (s.selectPersistent id url force outcomes).Owned asked := by
  unfold EditorSurfaces.selectPersistent
  cases url with
  | none => exact h
  | some target =>
    obtain ⟨ensured, label_eq⟩ := h.ensurePersistentEditor outcomes
    dsimp only
    split
    · rename_i none_made
      rw [none_made] at ensured
      exact ensured
    · rename_i label s' made
      rw [made] at ensured label_eq
      obtain rfl := label_eq label rfl
      exact ensured.navigatePersistentEditor (own target rfl) force outcomes

end Owned

/-- The URLs that servers were selected with. -/
def Asked (steps : List SurfaceStep) (id url : String) : Prop :=
  ∃ force outcomes, .select id (some url) force outcomes ∈ steps

theorem foldl_owned (all steps : List SurfaceStep) (among : ∀ a ∈ steps, a ∈ all) :
    ∀ s : EditorSurfaces, s.Owned (Asked all) → (steps.foldl step s).Owned (Asked all) := by
  induction steps with
  | nil => exact fun _ h => h
  | cons a steps ih =>
    intro s h
    refine ih (fun b mem => among b (List.mem_cons_of_mem a mem)) _ ?_
    cases a with
    | select id url force outcomes =>
      refine h.selectPersistent (fun target same => ⟨force, outcomes, ?_⟩) force outcomes
      exact same ▸ among _ List.mem_cons_self
    | close id closed => exact h.closeEditor closed

/-- Whatever is selected and closed, a registered surface is its server's own, shows the URL it is
registered with, and a webview shows no URL but those of the one server it is labelled for. -/
theorem run_owned (steps : List SurfaceStep) : (steps.foldl step new).Owned (Asked steps) :=
  foldl_owned steps steps (fun _ mem => mem) new owned_new

theorem Owned.labels_ne {s : EditorSurfaces} {asked : String → String → Prop}
    (h : s.Owned asked) {a b labelA labelB : String} (apart : a ≠ b)
    (at_a : s.persistentLabel a = some labelA) (at_b : s.persistentLabel b = some labelB) :
    labelA ≠ labelB := by
  rw [h.label_eq at_a, h.label_eq at_b]
  exact editorLabelFor_injective.ne apart

/-- The surfaces of a layout are each there once: what is shown is not among what is hidden. -/
theorem Owned.layout_apart {s : EditorSurfaces} {asked : String → String → Prop}
    (h : s.Owned asked) (selected : Option String) :
    (∀ label ∈ (s.layout selected).inactiveLabels, (s.layout selected).activeLabel ≠ some label) ∧
      (s.layout selected).inactiveLabels.Nodup := by
  have own : ∀ entry ∈ s.persistent.entries, entry.2.label = editorLabelFor entry.1 :=
    fun entry mem => h.labels entry.1 entry.2 (AList.mem_lookup_iff.mpr mem)
  constructor
  · intro label hidden active
    obtain ⟨shown, last, rfl⟩ := Option.map_eq_some_iff.mp active
    obtain ⟨mem_shown, is_selected⟩ := List.mem_filter.mp (List.mem_of_getLast? last)
    obtain ⟨entry, mem, same⟩ := List.mem_map.mp (List.mem_mergeSort.mp hidden)
    obtain ⟨mem, not_selected⟩ := List.mem_filter.mp mem
    rw [own entry mem, own shown mem_shown] at same
    rw [editorLabelFor_injective same] at not_selected
    exact absurd (of_decide_eq_true is_selected) (of_decide_eq_true not_selected)
  · rw [layout, (List.mergeSort_perm _ _).nodup_iff]
    have keys : ((s.persistent.entries.filter (fun entry => selected ≠ some entry.1)).map
        Sigma.fst).Nodup :=
      (List.filter_sublist.map Sigma.fst).nodup s.persistent.nodupKeys
    have labels := keys.map editorLabelFor_injective
    rw [List.map_map] at labels
    rwa [List.map_congr_left (fun entry mem => own entry (List.mem_filter.mp mem).1)]

end EditorSurfaces

/-- What `query_escape` writes decodes to the bytes of the text and has nothing but unreserved
characters, slashes and escapes; what `editor_label_for` writes behind its prefix are unreserved
characters, and is another text for another server, so no two servers share a webview. -/
theorem escapers_reversible :
    (∀ s : String, unescape '%' (queryEscape s).toList = some s.toUTF8.data.toList ∧
      Escaped '%' (fun c => Unreserved c ∨ c = '/') UpperHexDigit (queryEscape s).toList) ∧
    Function.Injective editorLabelFor ∧
    (∀ id, ∃ label, (editorLabelFor id).toList = "editor:".toList ++ label ∧
      ∀ c ∈ label, Unreserved c) ∧
    ∀ (steps : List SurfaceStep) (a b labelA labelB : String), a ≠ b →
      (steps.foldl EditorSurfaces.step .new).persistentLabel a = some labelA →
      (steps.foldl EditorSurfaces.step .new).persistentLabel b = some labelB →
      labelA ≠ labelB := by
  refine ⟨fun s => ?_, editorLabelFor_injective, fun id => ?_,
    fun steps _ _ _ _ apart => (EditorSurfaces.run_owned steps).labels_ne apart⟩
  · rw [toList_queryEscape]
    exact ⟨queryScheme.unescape_escape _,
      queryScheme.escaped_escape _ queryPlain_kept (by decide)⟩
  · refine ⟨_, toList_editorLabelFor id, ?_⟩
    have escaped : Escaped '~' Unreserved Unreserved _ :=
      labelScheme.escaped_escape id.toUTF8.data.toList labelPlain_unreserved (by decide)
    exact escaped.forall_mem (by decide) (fun _ h => h) (fun _ h => h)

/-- Two servers are selected one after the other. The second id is how the first is escaped. -/
def nestedIds : List SurfaceStep :=
  [.select "host/ws" (some "http://h/") false ⟨true, true, true, true⟩,
    .select "host~2fws" (some "http://w/") false ⟨true, true, true, true⟩]

/-- Their webviews are apart, and the layout that shows the one does not hide it. -/
theorem escapers_reversible_nested :
    unescape '%' (queryEscape "/Users/é").toList = some [47, 85, 115, 101, 114, 115, 47, 195, 169] ∧
      "editor:host~2fws" ≠ "editor:host~7e2fws" ∧
      let shown := (nestedIds.foldl EditorSurfaces.step .new).layout (some "host~2fws")
      shown.activeLabel = some "editor:host~7e2fws" ∧ "editor:host~7e2fws" ∉ shown.inactiveLabels :=
  have decodes := (escapers_reversible.1 "/Users/é").1
  have apart := escapers_reversible.2.2.2 nestedIds
    "host/ws" "host~2fws" "editor:host~2fws" "editor:host~7e2fws"
  have shows : ((nestedIds.foldl EditorSurfaces.step .new).layout
      (some "host~2fws")).activeLabel = some "editor:host~7e2fws" := by decide +kernel
  have layout := ((EditorSurfaces.run_owned nestedIds).layout_apart (some "host~2fws")).1
  ⟨decodes.trans (by decide +kernel), apart (by decide) (by decide +kernel) (by decide +kernel),
    shows, fun hidden => layout _ hidden shows⟩

end VsFleet
