import VsFleet.Cli.Proofs.HookIdempotence

/-!
# Which hooks an injection leaves

Each relayed event has a hook of Fleet after an injection, and all that was there before is kept
behind and beside it. For Codex this holds of every config; for Claude only where the settings have
no hook of Fleet, or one for each event, since any one of them stops the injection.
-/

namespace VsFleet

/-! ## Claude -/

/-- The hooks of the entry of an event. -/
def entryHooks (entry : Option Json) : List Json :=
  match entry.bind (fun e => e.get? "hooks") with
  | some (.array arr) => arr
  | _ => []

/-- The entry of an event in the settings. -/
def Json.eventEntry (value : Json) (event : String) : Option Json :=
  (value.get? "hooks").bind (fun hooks => hooks.get? event)

/-- The hooks that the settings have for an event. -/
def Json.hooksOf (value : Json) (event : String) : List Json := entryHooks (value.eventEntry event)

/-- Every relayed event has a hook of Fleet, one where it had at most one, and the settings are the
same otherwise. -/
structure ClaudeHooked (value value' : Json) : Prop where
  complete : ∀ event ∈ claudeHookEvents, 1 ≤ (value'.hooksOf event).countP taggedFleet
  once : ∀ event ∈ claudeHookEvents, (value.hooksOf event).countP taggedFleet ≤ 1 →
    (value'.hooksOf event).countP taggedFleet = 1
  foreign : ∀ event, (value'.hooksOf event).filter (fun e => !taggedFleet e) =
    (value.hooksOf event).filter (fun e => !taggedFleet e)
  beside : ∀ event ∈ claudeHookEvents, ∀ key ≠ "hooks",
    (value'.eventEntry event).bind (fun e => e.get? key) =
      (value.eventEntry event).bind (fun e => e.get? key)
  others : ∀ event ∉ claudeHookEvents, value'.eventEntry event = value.eventEntry event
  outside : ∀ key ≠ "hooks", value'.get? key = value.get? key

/-- The injection returns and leaves the hooks as they should be, and a second one changes
nothing. -/
def ClaudeInjects (reporterSocket : String) (value : Json) : Prop :=
  ∃ modified value', injectClaudeHooks reporterSocket value = some (modified, value') ∧
    ClaudeHooked value value' ∧ injectClaudeHooks reporterSocket value' = some (false, value')

/-- The `hooks` field is absent or an object, and no event has a hook of Fleet or each relayed one
has. -/
def AllOrNone (value : Json) : Prop :=
  (∀ hooks, value.get? "hooks" = some hooks → ∃ hooksObj, hooks = .object hooksObj) ∧
    (claudeSettingsHasFleetHooks value = true →
      ∀ event ∈ claudeHookEvents, (value.hooksOf event).any taggedFleet = true)

/-- The hook is put behind those of the entry. -/
def HookAppended (hook : Json) (entry entry' : Option Json) : Prop :=
  ∃ existing arr, entry.getD (.object []) = .object existing ∧
    (SortedMap.get? existing "hooks").getD (.array []) = .array arr ∧
    entry' = some (.object (SortedMap.insert "hooks" (.array (arr ++ [hook])) existing))

section Entry

variable {entry entry' : Option Json} {hook : Json}

/-- The object of an entry, or the empty one in its place, has the hooks of the entry. -/
theorem entryHooks_eq {existing : List (String × Json)} {arr : List Json}
    (isKeyed : ∀ e ∈ entry, e.IsKeyed) (there : entry.getD (.object []) = .object existing)
    (hooks : (SortedMap.get? existing "hooks").getD (.array []) = .array arr) :
    entryHooks entry = arr := by
  unfold entryHooks
  cases entry with
  | none =>
    cases there
    cases hooks
    rfl
  | some e =>
    rw [Option.getD_some] at there
    subst there
    rw [Option.bind_some, Json.get?_value (isKeyed _ rfl)]
    cases found : SortedMap.get? existing "hooks" with
    | none =>
      rw [found] at hooks
      cases hooks
      rfl
    | some v =>
      rw [found, Option.getD_some] at hooks
      rw [hooks]

theorem HookAppended.hooks (h : HookAppended hook entry entry')
    (isKeyed : ∀ e ∈ entry, e.IsKeyed) (isKeyed' : ∀ e ∈ entry', e.IsKeyed) :
    entryHooks entry' = entryHooks entry ++ [hook] := by
  obtain ⟨existing, arr, there, hooks, rfl⟩ := h
  rw [entryHooks_eq isKeyed there hooks]
  refine entryHooks_eq isKeyed' rfl ?_
  rw [SortedMap.get?_insert, if_pos rfl]
  rfl

/-- The other fields of the entry are kept. -/
theorem HookAppended.get? (h : HookAppended hook entry entry')
    (isKeyed : ∀ e ∈ entry, e.IsKeyed) (isKeyed' : ∀ e ∈ entry', e.IsKeyed) {key : String}
    (ne : key ≠ "hooks") :
    entry'.bind (fun e => e.get? key) = entry.bind (fun e => e.get? key) := by
  obtain ⟨existing, arr, there, -, rfl⟩ := h
  rw [Option.bind_some, Json.get?_value (isKeyed' _ rfl), SortedMap.get?_insert,
    if_neg (Ne.symm ne)]
  cases entry with
  | none =>
    cases there
    rfl
  | some e =>
    rw [Option.getD_some] at there
    subst there
    rw [Option.bind_some, Json.get?_value (isKeyed _ rfl)]

end Entry

section Loop

variable {reporterSocket : String} {hooksObj : List (String × Json)} {event : String}

/-- A round puts its hook behind those of a mergeable event. -/
theorem mergeClaudeHook_appends (mergeable : Mergeable hooksObj event) (hook : Json) :
    ∃ hooksObj', mergeClaudeHook hooksObj (event, .object [("hooks", .array [hook])]) =
        some hooksObj' ∧
      HookAppended hook (SortedMap.get? hooksObj event) (SortedMap.get? hooksObj' event) ∧
      ∀ other ≠ event, SortedMap.get? hooksObj' other = SortedMap.get? hooksObj other := by
  obtain ⟨existing, arr, there, hooks⟩ : ∃ existing arr,
      (SortedMap.get? hooksObj event).getD (.object []) = .object existing ∧
        (SortedMap.get? existing "hooks").getD (.array []) = .array arr := by
    rcases mergeable with absent | ⟨fields, entry, absent | ⟨arr, hooks⟩⟩
    · exact ⟨[], [], by rw [absent]; rfl, rfl⟩
    · exact ⟨fields, [], by rw [entry]; rfl, by rw [absent]; rfl⟩
    · exact ⟨fields, arr, by rw [entry]; rfl, by rw [hooks]; rfl⟩
  refine ⟨SortedMap.insert event
    (.object (SortedMap.insert "hooks" (.array (arr ++ [hook])) existing)) hooksObj, ?_, ?_, ?_⟩
  · simp only [mergeClaudeHook, there, hooks]
    rfl
  · refine ⟨existing, arr, there, hooks, ?_⟩
    rw [SortedMap.get?_insert, if_pos rfl]
  · intro other ne
    rw [SortedMap.get?_insert, if_neg (Ne.symm ne)]

/-- The rounds of the loop put a hook behind those of each event, once. -/
theorem foldlM_mergeClaudeHook_appends (events : List String) (distinct : events.Nodup) :
    ∀ {hooksObj : List (String × Json)}, (∀ event ∈ events, Mergeable hooksObj event) →
      ∃ hooksObj', (events.map (fun hookType => (hookType, Json.object [("hooks",
          .array [claudeHook reporterSocket hookType])]))).foldlM mergeClaudeHook hooksObj =
            some hooksObj' ∧
        (∀ event ∈ events, HookAppended (claudeHook reporterSocket event)
          (SortedMap.get? hooksObj event) (SortedMap.get? hooksObj' event)) ∧
        ∀ event ∉ events, SortedMap.get? hooksObj' event = SortedMap.get? hooksObj event := by
  induction events with
  | nil =>
    intro hooksObj _
    exact ⟨hooksObj, rfl, nofun, fun _ _ => rfl⟩
  | cons first events ih =>
    intro hooksObj mergeable
    obtain ⟨fresh, distinct⟩ := List.nodup_cons.mp distinct
    obtain ⟨next, merged, appended, same⟩ := mergeClaudeHook_appends
      (mergeable first List.mem_cons_self) (claudeHook reporterSocket first)
    have mergeable' : ∀ event ∈ events, Mergeable next event := by
      intro event mem
      have kept := same event (fun own => fresh (own ▸ mem))
      unfold Mergeable
      rw [kept]
      exact mergeable event (List.mem_cons_of_mem first mem)
    obtain ⟨hooksObj', run, hooked, others⟩ := ih distinct mergeable'
    refine ⟨hooksObj', ?_, ?_, ?_⟩
    · rw [List.map_cons, List.foldlM_cons, merged]
      exact run
    · intro event mem
      rcases List.mem_cons.mp mem with rfl | mem
      · rw [others event fresh]
        exact appended
      · rw [← same event (fun own => fresh (own ▸ mem))]
        exact hooked event mem
    · intro event out
      rw [List.mem_cons, not_or] at out
      rw [others event out.2, same event out.1]

end Loop

section Settings

variable {reporterSocket : String} {value : Json} {fields hooksObj : List (String × Json)}

/-- The hooks object of the settings, or the empty one in its place, has the entries. -/
theorem eventEntry_eq (isKeyed : (Json.object fields).IsKeyed)
    (there : (SortedMap.get? fields "hooks").getD (.object []) = .object hooksObj)
    (event : String) : (Json.object fields).eventEntry event = SortedMap.get? hooksObj event := by
  unfold Json.eventEntry
  rw [Json.get?_value isKeyed]
  have stored : ((SortedMap.get? fields "hooks").getD (.object [])).IsKeyed :=
    isKeyed.getD (by rfl)
  cases found : SortedMap.get? fields "hooks" with
  | none =>
    rw [found] at there
    cases there
    rfl
  | some hooks =>
    rw [found, Option.getD_some] at there
    subst there
    rw [found, Option.getD_some] at stored
    exact Json.get?_value stored event

theorem isKeyed_of_get? (isKeyed : (Json.object hooksObj).IsKeyed) (event : String) :
    ∀ e ∈ SortedMap.get? hooksObj event, e.IsKeyed := by
  intro e found
  have stored : ((SortedMap.get? hooksObj event).getD .null).IsKeyed := isKeyed.getD (by rfl)
  rwa [Option.mem_def.mp found, Option.getD_some] at stored

/-- Settings without a hook of Fleet have none under any event. -/
theorem hooksOf_untagged (without : claudeSettingsHasFleetHooks value = false) (event : String) :
    (value.hooksOf event).any taggedFleet = false := by
  rw [← Bool.not_eq_true]
  intro tagged
  rw [← Bool.not_eq_true] at without
  apply without
  unfold Json.hooksOf entryHooks at tagged
  split at tagged
  case h_2 => cases tagged
  rename_i arr found
  obtain ⟨entry, here, hooks⟩ := Option.bind_eq_some_iff.mp found
  obtain ⟨hooksVal, there, entryFound⟩ := Option.bind_eq_some_iff.mp here
  cases hooksVal with
  | object hooksObj =>
    unfold claudeSettingsHasFleetHooks
    rw [there]
    obtain ⟨e, mem, rfl⟩ := Option.map_eq_some_iff.mp entryFound
    refine List.any_eq_true.mpr ⟨e, List.mem_reverse.mp (List.mem_of_find?_eq_some mem), ?_⟩
    rw [hooks]
    exact tagged
  | _ => cases entryFound

theorem countP_eq_zero_of_any {l : List Json} (none : l.any taggedFleet = false) :
    l.countP taggedFleet = 0 := by
  rw [List.countP_eq_zero]
  intro e mem tagged
  rw [List.any_eq_true.mpr ⟨e, mem, tagged⟩] at none
  cases none

theorem RelayedEntriesMergeable.mergeable (mergeable : RelayedEntriesMergeable (.object fields))
    (there : (SortedMap.get? fields "hooks").getD (.object []) = .object hooksObj) :
    ∀ event ∈ claudeHookEvents, Mergeable hooksObj event := by
  cases found : SortedMap.get? fields "hooks" with
  | none =>
    rw [found] at there
    cases there
    exact fun _ _ => Or.inl rfl
  | some hooks =>
    rw [found, Option.getD_some] at there
    subst there
    exact mergeable fields hooksObj rfl found

/-- Settings without a hook of Fleet get the hooks object that the loop makes of theirs. -/
theorem injectClaudeHooks_appends (mergeable : RelayedEntriesMergeable (.object fields))
    (there : (SortedMap.get? fields "hooks").getD (.object []) = .object hooksObj)
    (hooksValue : (Json.object hooksObj).IsKeyed)
    (without : claudeSettingsHasFleetHooks (.object fields) = false) :
    ∃ hooksObj', injectClaudeHooks reporterSocket (.object fields) =
        some (true, .object (SortedMap.insert "hooks" (.object hooksObj') fields)) ∧
      (Json.object hooksObj').IsKeyed ∧
      (∀ event ∈ claudeHookEvents, HookAppended (claudeHook reporterSocket event)
        (SortedMap.get? hooksObj event) (SortedMap.get? hooksObj' event)) ∧
      ∀ event ∉ claudeHookEvents,
        SortedMap.get? hooksObj' event = SortedMap.get? hooksObj event := by
  obtain ⟨hooksObj', run, appended, others⟩ := foldlM_mergeClaudeHook_appends
    claudeHookEvents (by decide) (mergeable.mergeable there)
  refine ⟨hooksObj', ?_, ?_, appended, others⟩
  · unfold injectClaudeHooks
    rw [without, if_neg Bool.false_ne_true]
    simp only [there, buildClaudeHooks, run]
    rfl
  · exact (@foldlM_mergeClaudeHook hooksObj' "" reporterSocket claudeHookEvents hooksObj run
      hooksValue).1

/-- The hooks are put to settings that have none of Fleet. -/
theorem claudeInjects_of_none (isKeyed : (Json.object fields).IsKeyed)
    (mergeable : RelayedEntriesMergeable (.object fields))
    (there : (SortedMap.get? fields "hooks").getD (.object []) = .object hooksObj)
    (without : claudeSettingsHasFleetHooks (.object fields) = false) :
    ClaudeInjects reporterSocket (.object fields) := by
  have entries := eventEntry_eq isKeyed there
  have hooksValue : (Json.object hooksObj).IsKeyed := there ▸ isKeyed.getD (by rfl)
  obtain ⟨hooksObj', injected, hooksValue', appended, others⟩ :=
    injectClaudeHooks_appends mergeable there hooksValue without
  obtain ⟨isKeyed', hooked⟩ := injectClaudeHooks_hooked injected isKeyed mergeable
  have there' : (SortedMap.get? (SortedMap.insert "hooks" (.object hooksObj') fields)
      "hooks").getD (.object []) = .object hooksObj' := by
    rw [SortedMap.get?_insert, if_pos rfl]
    rfl
  have entries' := eventEntry_eq isKeyed' there'
  have hooks : ∀ event ∈ claudeHookEvents,
      (Json.object (SortedMap.insert "hooks" (.object hooksObj') fields)).hooksOf event =
        (Json.object fields).hooksOf event ++ [claudeHook reporterSocket event] := by
    intro event mem
    unfold Json.hooksOf
    rw [entries, entries']
    exact (appended event mem).hooks (isKeyed_of_get? hooksValue event)
      (isKeyed_of_get? hooksValue' event)
  have untouched : ∀ event ∉ claudeHookEvents,
      (Json.object (SortedMap.insert "hooks" (.object hooksObj') fields)).eventEntry event =
        (Json.object fields).eventEntry event := by
    intro event out
    rw [entries, entries', others event out]
  have counts : ∀ event ∈ claudeHookEvents,
      ((Json.object (SortedMap.insert "hooks" (.object hooksObj') fields)).hooksOf event).countP
        taggedFleet = 1 := by
    intro event mem
    rw [hooks event mem, List.countP_append,
      countP_eq_zero_of_any (hooksOf_untagged without event)]
    rfl
  refine ⟨_, _, injected, ⟨fun event mem => (counts event mem).ge, fun event mem _ =>
    counts event mem, ?_, ?_, untouched, ?_⟩, ?_⟩
  · intro event
    by_cases mem : event ∈ claudeHookEvents
    · rw [hooks event mem, List.filter_append]
      exact List.append_nil _
    · unfold Json.hooksOf
      rw [untouched event mem]
  · intro event mem key ne
    rw [entries, entries']
    exact (appended event mem).get? (isKeyed_of_get? hooksValue event)
      (isKeyed_of_get? hooksValue' event) ne
  · intro key ne
    rw [Json.get?_value isKeyed, Json.get?_value isKeyed', SortedMap.get?_insert,
      if_neg (Ne.symm ne)]
  · rw [injectClaudeHooks, if_pos hooked]

/-- Where an injection does what it should, the hooks are an object, and with a hook of Fleet under
one event there is one under each relayed event. -/
theorem ClaudeInjects.allOrNone (isKeyed : (Json.object fields).IsKeyed)
    (h : ClaudeInjects reporterSocket (.object fields)) : AllOrNone (.object fields) := by
  obtain ⟨modified, value', injected, hooked, -⟩ := h
  constructor
  · intro hooks found
    rw [Json.get?_value isKeyed] at found
    unfold injectClaudeHooks at injected
    split at injected
    · rename_i tagged
      unfold claudeSettingsHasFleetHooks at tagged
      rw [Json.get?_value isKeyed, found] at tagged
      split at tagged
      · rename_i hooksObj same
        exact ⟨hooksObj, Option.some.inj same⟩
      · cases tagged
    · simp only [found, Option.getD_some] at injected
      split at injected
      · exact ⟨_, rfl⟩
      · cases injected
  · intro tagged event mem
    rw [injectClaudeHooks, if_pos tagged] at injected
    cases injected
    obtain ⟨e, there, own⟩ := List.countP_pos_iff.mp (hooked.complete event mem)
    exact List.any_eq_true.mpr ⟨e, there, own⟩

/-- Settings with a hook of Fleet under each relayed event stay as they are. -/
theorem claudeInjects_of_all
    (all : ∀ event ∈ claudeHookEvents, ((Json.object fields).hooksOf event).any taggedFleet)
    (tagged : claudeSettingsHasFleetHooks (.object fields) = true) :
    ClaudeInjects reporterSocket (.object fields) := by
  have injected : injectClaudeHooks reporterSocket (.object fields) =
      some (false, .object fields) := by
    rw [injectClaudeHooks, if_pos tagged]
  have some : ∀ event ∈ claudeHookEvents,
      1 ≤ ((Json.object fields).hooksOf event).countP taggedFleet := by
    intro event mem
    obtain ⟨e, there, own⟩ := List.any_eq_true.mp (all event mem)
    exact List.countP_pos_iff.mpr ⟨e, there, own⟩
  refine ⟨_, _, injected, ⟨some, fun event mem once => ?_, fun _ => rfl,
    fun _ _ _ _ => rfl, fun _ _ => rfl, fun _ _ => rfl⟩, injected⟩
  exact Nat.le_antisymm once (some event mem)

/-- An injection does what it should just where no event has a hook of Fleet or each relayed one
has. -/
theorem claudeInjects_iff (isKeyed : (Json.object fields).IsKeyed)
    (mergeable : RelayedEntriesMergeable (.object fields)) :
    ClaudeInjects reporterSocket (.object fields) ↔ AllOrNone (.object fields) := by
  refine ⟨ClaudeInjects.allOrNone isKeyed, ?_⟩
  rintro ⟨objects, all⟩
  cases tagged : claudeSettingsHasFleetHooks (.object fields) with
  | false =>
    obtain ⟨hooksObj, there⟩ : ∃ hooksObj,
        (SortedMap.get? fields "hooks").getD (.object []) = .object hooksObj := by
      cases found : SortedMap.get? fields "hooks" with
      | none => exact ⟨[], rfl⟩
      | some hooks =>
        rw [← Json.get?_value isKeyed] at found
        exact objects hooks found
    exact claudeInjects_of_none isKeyed mergeable there tagged
  | true => exact claudeInjects_of_all (all tagged) tagged

end Settings

/-! ## Codex -/

/-- The hooks of a group. -/
def groupHooks (group : Toml) : List Toml := ((group.get? "hooks").bind Toml.asArray).getD []

/-- The hook is marked as Fleet's. -/
def markedFleet (hook : Toml) : Bool :=
  ((hook.get? "command").bind Toml.asString).any (fun c => containsText c fleetCodexMarker)

/-- The groups of an event. -/
def eventGroups (entry : Option Toml) : List Toml := (entry.bind Toml.asArray).getD []

/-- A field of a section of the config. -/
def sectionField (table : TomlTable) (sectionKey key : String) : Option Toml :=
  (SortedMap.get? table sectionKey).bind (fun v => v.get? key)

/-- The groups that the Codex file has for an event. -/
def codexGroupsOf (table : TomlTable) (event : String) : List Toml :=
  eventGroups (sectionField table "hooks" event)

/-- The hooks of these groups. -/
def codexHooksOf (table : TomlTable) (event : String) : List Toml :=
  (codexGroupsOf table event).flatMap groupHooks

/-- Every relayed event has a hook of Fleet, one where it had at most one, behind the groups that
were there, and the config is the same but for the two switches. -/
structure CodexHooked (table table' : TomlTable) : Prop where
  complete : ∀ event ∈ codexHookEvents, 1 ≤ (codexHooksOf table' event).countP markedFleet
  once : ∀ event ∈ codexHookEvents, (codexHooksOf table event).countP markedFleet ≤ 1 →
    (codexHooksOf table' event).countP markedFleet = 1
  foreign : ∀ event, (codexHooksOf table' event).filter (fun h => !markedFleet h) =
    (codexHooksOf table event).filter (fun h => !markedFleet h)
  groups : ∀ event, codexGroupsOf table event <+: codexGroupsOf table' event
  others : ∀ event ∉ codexHookEvents,
    sectionField table' "hooks" event = sectionField table "hooks" event
  features : ∀ key ≠ "hooks",
    sectionField table' "features" key = sectionField table "features" key
  tui : ∀ key ≠ "notifications",
    sectionField table' "tui" key = sectionField table "tui" key
  outside : ∀ key, key ≠ "hooks" → key ≠ "features" → key ≠ "tui" →
    SortedMap.get? table' key = SortedMap.get? table key

/-- The injection leaves the hooks as they should be, and a second one changes nothing. -/
def CodexInjects (table : TomlTable) : Prop :=
  CodexHooked table (injectCodexConfig table).2 ∧
    injectCodexConfig (injectCodexConfig table).2 = (false, (injectCodexConfig table).2)

/-- The sections are absent or tables, and the event of the hooks absent or arrays. -/
structure CodexShape (table : TomlTable) : Prop where
  features : ∀ v ∈ SortedMap.get? table "features", ∃ entries, v = .table entries
  tui : ∀ v ∈ SortedMap.get? table "tui", ∃ entries, v = .table entries
  hooks : ∀ v ∈ SortedMap.get? table "hooks", ∃ hooks, v = .table hooks ∧
    ∀ event ∈ codexHookEvents, ∀ w ∈ SortedMap.get? hooks event, ∃ arr, w = .array arr

theorem eventArrayHasFleetHook_eq (arr : List Toml) :
    eventArrayHasFleetHook arr = (arr.flatMap groupHooks).any markedFleet := by
  rw [List.any_flatMap]
  unfold eventArrayHasFleetHook groupHooks markedFleet
  congr 1
  funext group
  cases (group.get? "hooks").bind Toml.asArray with
  | none => rfl
  | some hooks =>
    simp only [Option.getD_some]
    congr 1
    funext h
    cases (h.get? "command").bind Toml.asString <;> rfl

theorem markedFleet_fleetCodexHookGroup :
    ∃ hook, groupHooks fleetCodexHookGroup = [hook] ∧ markedFleet hook = true := by
  refine ⟨_, rfl, ?_⟩
  have marked : containsText codexHookRelayCommand fleetCodexMarker = true :=
    containsText_append _ fleetCodexMarker
  simp [markedFleet, Toml.get?, SortedMap.get?_cons, Toml.asString, marked]

section Hooks

variable {hooks : TomlTable} {ev : String} {arr : List Toml}

/-- The groups of an event after Fleet's is put behind them, unless one of them has its hook. -/
def withFleetGroup (arr : List Toml) : List Toml :=
  if eventArrayHasFleetHook arr then arr else arr ++ [fleetCodexHookGroup]

theorem addCodexHook_snd (there : (SortedMap.get? hooks ev).getD (.array []) = .array arr) :
    (addCodexHook hooks ev).2 = SortedMap.insert ev (.array (withFleetGroup arr)) hooks := by
  unfold addCodexHook withFleetGroup
  rw [there]
  dsimp only
  split <;> rfl

/-- The loop leaves Fleet's group behind those of each event. -/
theorem foldl_addCodexHook_groups (events : List String) (distinct : events.Nodup) :
    ∀ (modified : Bool) {hooks : TomlTable},
      (∀ ev ∈ events, ∀ w ∈ SortedMap.get? hooks ev, ∃ arr, w = .array arr) →
      let after := (events.foldl (fun acc ev =>
        let added := addCodexHook acc.2 ev
        (acc.1 || added.1, added.2)) (modified, hooks)).2
      (∀ ev ∈ events, SortedMap.get? after ev =
        some (.array (withFleetGroup (eventGroups (SortedMap.get? hooks ev))))) ∧
      ∀ ev ∉ events, SortedMap.get? after ev = SortedMap.get? hooks ev := by
  induction events with
  | nil => exact fun _ _ _ => ⟨nofun, fun _ _ => rfl⟩
  | cons first events ih =>
    intro modified hooks arrays
    obtain ⟨fresh, distinct⟩ := List.nodup_cons.mp distinct
    have there : (SortedMap.get? hooks first).getD (.array []) =
        .array (eventGroups (SortedMap.get? hooks first)) := by
      cases found : SortedMap.get? hooks first with
      | none => rfl
      | some w =>
        obtain ⟨arr, rfl⟩ := arrays first List.mem_cons_self w found
        rfl
    have next := addCodexHook_snd there
    have kept : ∀ ev ∈ events, SortedMap.get? (addCodexHook hooks first).2 ev =
        SortedMap.get? hooks ev := by
      intro ev mem
      rw [next, SortedMap.get?_insert, if_neg (fun own : first = ev => fresh (own ▸ mem))]
    obtain ⟨hooked, others⟩ := @ih distinct (modified || (addCodexHook hooks first).1)
      (addCodexHook hooks first).2 (fun ev mem => by
        rw [kept ev mem]
        exact arrays ev (List.mem_cons_of_mem first mem))
    refine ⟨fun ev mem => ?_, fun ev out => ?_⟩
    · rcases List.mem_cons.mp mem with rfl | mem
      · refine (others ev fresh).trans ?_
        rw [next, SortedMap.get?_insert, if_pos rfl]
      · refine (hooked ev mem).trans ?_
        rw [kept ev mem]
    · rw [List.mem_cons, not_or] at out
      refine (others ev out.2).trans ?_
      rw [next, SortedMap.get?_insert, if_neg (Ne.symm out.1)]

end Hooks

section Again

variable {table hooks : TomlTable} {sectionKey key ev : String}

theorem Toml.Ordered.sorted (h : (Toml.table table).Ordered) : SortedMap.Sorted table := by
  cases h with
  | table sorted _ => exact sorted

theorem Toml.Ordered.of_get? {v : Toml} (h : (Toml.table table).Ordered)
    (there : SortedMap.get? table key = some v) : v.Ordered := by
  have stored : ((SortedMap.get? table key).getD (.table [])).Ordered :=
    h.getD Toml.ordered_table_nil
  rwa [there, Option.getD_some] at stored

theorem switchOn_of_on (sorted : SortedMap.Sorted table) (on : SwitchedOn sectionKey key table) :
    switchOn sectionKey key table = (false, table) := by
  have modified := switchOn_fst on
  obtain ⟨v, there, on⟩ := on
  refine Prod.ext modified ?_
  unfold switchOn
  rw [there, Option.getD_some]
  split
  · rw [if_neg (not_not.mpr (on _ rfl))]
    exact sorted.insert_self there
  · exact sorted.insert_self there

theorem addCodexHook_of_hooked (sorted : SortedMap.Sorted hooks) (hooked : HookedCodex hooks ev) :
    addCodexHook hooks ev = (false, hooks) := by
  have modified := addCodexHook_fst hooked
  obtain ⟨v, there, hooked⟩ := hooked
  refine Prod.ext modified ?_
  unfold addCodexHook
  rw [there, Option.getD_some]
  split
  · rw [if_pos (hooked _ rfl)]
    exact sorted.insert_self there
  · exact sorted.insert_self there

theorem addCodexHooks_of_hooked (sorted : SortedMap.Sorted hooks) (events : List String)
    (all : ∀ ev ∈ events, HookedCodex hooks ev) : addCodexHooks hooks events = (false, hooks) := by
  unfold addCodexHooks
  induction events with
  | nil => rfl
  | cons first events ih =>
    simp only [List.foldl_cons, addCodexHook_of_hooked sorted (all first List.mem_cons_self),
      Bool.or_false]
    exact ih (fun ev mem => all ev (List.mem_cons_of_mem first mem))

theorem hookEvents_of_hooked (ordered : (Toml.table table).Ordered) (all : AllHooked table) :
    hookEvents table = (false, table) := by
  obtain ⟨v, there, all⟩ := all
  have stored := ordered.of_get? there
  unfold hookEvents
  rw [there, Option.getD_some]
  split
  · simp only [addCodexHooks_of_hooked stored.sorted _ (all _ rfl)]
    rw [ordered.sorted.insert_self there]
  · rw [ordered.sorted.insert_self there]

/-- A configured table is left as it is. -/
theorem Configured.inject (h : Configured table) (ordered : (Toml.table table).Ordered) :
    injectCodexConfig table = (false, table) := by
  unfold injectCodexConfig
  simp only [switchOn_of_on ordered.sorted h.features, switchOn_of_on ordered.sorted h.tui,
    hookEvents_of_hooked ordered h.hooks]
  rfl

end Again

section Inject

variable {table : TomlTable} {sectionKey key : String}

theorem sectionField_congr {table' : TomlTable}
    (same : SortedMap.get? table' sectionKey = SortedMap.get? table sectionKey) (key : String) :
    sectionField table' sectionKey key = sectionField table sectionKey key := by
  rw [sectionField, sectionField, same]

/-- A section that is absent has the fields of the empty table. -/
theorem sectionField_eq (table : TomlTable) (sectionKey key : String) :
    sectionField table sectionKey key =
      ((SortedMap.get? table sectionKey).getD (.table [])).get? key := by
  unfold sectionField
  cases SortedMap.get? table sectionKey <;> rfl

theorem sectionField_insert {v : Toml} :
    sectionField (SortedMap.insert sectionKey v table) sectionKey key = v.get? key := by
  rw [sectionField, SortedMap.get?_insert, if_pos rfl, Option.bind_some]

/-- A switch leaves the other fields of its section. -/
theorem switchOn_sectionField {other : String} (ne : other ≠ key) :
    sectionField (switchOn sectionKey key table).2 sectionKey other =
      sectionField table sectionKey other := by
  rw [sectionField_eq table]
  unfold switchOn
  split
  · rename_i entries there
    rw [there]
    split
    · rw [sectionField_insert, Toml.get?, SortedMap.get?_insert, if_neg (Ne.symm ne), Toml.get?]
    · exact sectionField_insert
  · exact sectionField_insert

/-- The hooks section after an injection: Fleet's group is behind those of each relayed event. -/
theorem hookEvents_sectionField
    (shape : ∀ v ∈ SortedMap.get? table "hooks", ∃ hooks, v = .table hooks ∧
      ∀ event ∈ codexHookEvents, ∀ w ∈ SortedMap.get? hooks event, ∃ arr, w = .array arr) :
    (∀ event ∈ codexHookEvents, sectionField (hookEvents table).2 "hooks" event =
      some (.array (withFleetGroup (codexGroupsOf table event)))) ∧
    ∀ event ∉ codexHookEvents,
      sectionField (hookEvents table).2 "hooks" event = sectionField table "hooks" event := by
  obtain ⟨hooks, there, arrays⟩ : ∃ hooks,
      (SortedMap.get? table "hooks").getD (.table []) = .table hooks ∧
        ∀ event ∈ codexHookEvents, ∀ w ∈ SortedMap.get? hooks event, ∃ arr, w = .array arr := by
    cases found : SortedMap.get? table "hooks" with
    | none => exact ⟨[], rfl, fun _ _ w none => by cases none⟩
    | some v =>
      obtain ⟨hooks, rfl, arrays⟩ := shape v found
      exact ⟨hooks, rfl, arrays⟩
  obtain ⟨hooked, others⟩ := foldl_addCodexHook_groups codexHookEvents (by decide) false arrays
  have field : ∀ event, sectionField (hookEvents table).2 "hooks" event =
      SortedMap.get? (addCodexHooks hooks codexHookEvents).2 event := by
    intro event
    unfold hookEvents
    rw [there]
    exact sectionField_insert
  refine ⟨fun event mem => ?_, fun event out => ?_⟩
  · rw [field, codexGroupsOf, sectionField_eq, there]
    exact hooked event mem
  · rw [field, sectionField_eq, there]
    exact others event out

/-- An injection puts Fleet's group behind those of each relayed event. -/
theorem injectCodexConfig_groups (shape : CodexShape table) :
    (∀ event ∈ codexHookEvents, codexGroupsOf (injectCodexConfig table).2 event =
      withFleetGroup (codexGroupsOf table event)) ∧
    ∀ event ∉ codexHookEvents, sectionField (injectCodexConfig table).2 "hooks" event =
      sectionField table "hooks" event := by
  let switched := (switchOn "tui" "notifications" (switchOn "features" "hooks" table).2).2
  have same : SortedMap.get? switched "hooks" = SortedMap.get? table "hooks" :=
    (switchOn_get?_ne (by decide)).trans (switchOn_get?_ne (by decide))
  obtain ⟨hooked, others⟩ := @hookEvents_sectionField switched
    (fun v found => shape.hooks v (same ▸ found))
  refine ⟨fun event mem => ?_, fun event out => ?_⟩
  · have groups := sectionField_congr same event
    change eventGroups (sectionField (hookEvents switched).2 "hooks" event) = _
    rw [hooked event mem, codexGroupsOf, groups]
    rfl
  · exact (others event out).trans (sectionField_congr same event)

theorem withFleetGroup_prefix (arr : List Toml) : arr <+: withFleetGroup arr := by
  unfold withFleetGroup
  split
  · exact List.prefix_rfl
  · exact List.prefix_append _ _

/-- Behind groups without a hook of Fleet comes one hook. -/
theorem withFleetGroup_hooks (arr : List Toml) :
    ((withFleetGroup arr).flatMap groupHooks).filter (fun h => !markedFleet h) =
        (arr.flatMap groupHooks).filter (fun h => !markedFleet h) ∧
      1 ≤ ((withFleetGroup arr).flatMap groupHooks).countP markedFleet ∧
      ((arr.flatMap groupHooks).countP markedFleet ≤ 1 →
        ((withFleetGroup arr).flatMap groupHooks).countP markedFleet = 1) := by
  unfold withFleetGroup
  split
  · rename_i hooked
    rw [eventArrayHasFleetHook_eq, List.any_eq_true] at hooked
    have pos : 1 ≤ (arr.flatMap groupHooks).countP markedFleet := List.countP_pos_iff.mpr hooked
    exact ⟨rfl, pos, fun le => Nat.le_antisymm le pos⟩
  · rename_i unhooked
    rw [eventArrayHasFleetHook_eq, List.any_eq_true] at unhooked
    have none : (arr.flatMap groupHooks).countP markedFleet = 0 :=
      List.countP_eq_zero.mpr (fun h mem marked => unhooked ⟨h, mem, marked⟩)
    obtain ⟨hook, own, marked⟩ := markedFleet_fleetCodexHookGroup
    have hooks : (arr ++ [fleetCodexHookGroup]).flatMap groupHooks =
        arr.flatMap groupHooks ++ [hook] := by
      rw [List.flatMap_append, List.flatMap_singleton, own]
    have one : ((arr ++ [fleetCodexHookGroup]).flatMap groupHooks).countP markedFleet = 1 := by
      rw [hooks, List.countP_append, none, List.countP_singleton, if_pos marked]
    refine ⟨?_, one.ge, fun _ => one⟩
    rw [hooks, List.filter_append, List.filter_singleton, marked]
    exact List.append_nil _

/-- Of a table in shape every injection does what it should. -/
theorem codexInjects (ordered : (Toml.table table).Ordered) (shape : CodexShape table) :
    CodexInjects table := by
  obtain ⟨hooked, others⟩ := injectCodexConfig_groups shape
  have hooks : ∀ event ∈ codexHookEvents, codexHooksOf (injectCodexConfig table).2 event =
      (withFleetGroup (codexGroupsOf table event)).flatMap groupHooks := by
    intro event mem
    rw [codexHooksOf, hooked event mem]
  have untouched : ∀ event ∉ codexHookEvents, codexGroupsOf (injectCodexConfig table).2 event =
      codexGroupsOf table event := by
    intro event out
    rw [codexGroupsOf, others event out, codexGroupsOf]
  refine ⟨⟨?_, ?_, ?_, ?_, others, ?_, ?_, ?_⟩,
    (injectCodexConfig_configured table).inject (injectCodexConfig_ordered ordered)⟩
  · intro event mem
    rw [hooks event mem]
    exact (withFleetGroup_hooks _).2.1
  · intro event mem
    rw [hooks event mem]
    exact (withFleetGroup_hooks _).2.2
  · intro event
    by_cases mem : event ∈ codexHookEvents
    · rw [hooks event mem]
      exact (withFleetGroup_hooks _).1
    · rw [codexHooksOf, untouched event mem, codexHooksOf]
  · intro event
    by_cases mem : event ∈ codexHookEvents
    · rw [hooked event mem]
      exact withFleetGroup_prefix _
    · rw [untouched event mem]
  · intro key ne
    have kept : SortedMap.get? (injectCodexConfig table).2 "features" =
        SortedMap.get? (switchOn "features" "hooks" table).2 "features" :=
      (hookEvents_get?_ne (by decide)).trans (switchOn_get?_ne (by decide))
    rw [sectionField_congr kept, switchOn_sectionField ne]
  · intro key ne
    have kept : SortedMap.get? (injectCodexConfig table).2 "tui" =
        SortedMap.get? (switchOn "tui" "notifications" (switchOn "features" "hooks" table).2).2
          "tui" := hookEvents_get?_ne (by decide)
    rw [sectionField_congr kept, switchOn_sectionField ne]
    exact sectionField_congr (switchOn_get?_ne (by decide)) key
  · intro key hooksNe featuresNe tuiNe
    exact (hookEvents_get?_ne (Ne.symm hooksNe)).trans
      ((switchOn_get?_ne (Ne.symm tuiNe)).trans (switchOn_get?_ne (Ne.symm featuresNe)))

end Inject

/-- An injection into each of the two configs does what it should just where the settings of Claude
have no hook of Fleet, or one for each relayed event. -/
theorem injections_complete_iff (reporterSocket : String) {value : Json} {table : TomlTable}
    (root : ∃ fields, value = .object fields) (isKeyed : value.IsKeyed)
    (mergeable : RelayedEntriesMergeable value) (ordered : (Toml.table table).Ordered)
    (shape : CodexShape table) :
    ClaudeInjects reporterSocket value ∧ CodexInjects table ↔ AllOrNone value := by
  obtain ⟨fields, rfl⟩ := root
  have claude := @claudeInjects_iff reporterSocket fields isKeyed mergeable
  exact ⟨fun h => claude.mp h.1, fun h => ⟨claude.mpr h, codexInjects ordered shape⟩⟩

/-- Settings without hooks, and a config with a hook of Fleet for one event. -/
theorem injections_complete_iff_theme :
    let value := Json.object [("theme", .string "dark")]
    let table := [("hooks", Toml.table [("Stop", .array [fleetCodexHookGroup])])]
    ClaudeInjects "/run/fleet.sock" value ∧ CodexInjects table ↔ AllOrNone value := by
  refine injections_complete_iff "/run/fleet.sock" ⟨_, rfl⟩ rfl ?_ (by decide) ⟨?_, ?_, ?_⟩
  · intro fields hooksObj same found
    cases same
    cases found
  · intro v found
    cases found
  · intro v found
    cases found
  · intro v found
    cases found
    refine ⟨_, rfl, fun event _ w there => ?_⟩
    rw [Option.mem_def, SortedMap.get?_cons] at there
    split at there
    · exact ⟨_, (Option.some.inj there).symm⟩
    · cases there

/-- Settings with a hook of Fleet for one event. -/
def partlyHooked : Json :=
  .object [("hooks", .object [("Stop", .object [("hooks", .array [.object [("command",
    .string "relay"), ("tags", .array [.string "fleet-managed"]), ("type", .string "command")]])])])]

/-- The other events get none. -/
theorem partlyHooked_incomplete : ¬ ∀ (reporterSocket : String) (value : Json),
    (∃ fields, value = .object fields) → value.IsKeyed → RelayedEntriesMergeable value →
      ClaudeInjects reporterSocket value := by
  intro injects
  have mergeable : RelayedEntriesMergeable partlyHooked := by
    intro fields hooksObj same found event _
    cases same
    cases found
    unfold Mergeable
    rw [SortedMap.get?_cons]
    split
    · exact Or.inr ⟨_, rfl, Or.inr ⟨_, rfl⟩⟩
    · exact Or.inl rfl
  obtain ⟨modified, value', injected, hooked, -⟩ :=
    injects "" partlyHooked ⟨_, rfl⟩ rfl mergeable
  cases injected
  exact absurd (hooked.complete "PreToolUse" (by decide)) (by decide)

end VsFleet
