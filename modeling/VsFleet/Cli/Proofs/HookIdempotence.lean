import VsFleet.Cli.HookConfig

/-!
# Putting hooks in twice

Once the hooks of Fleet are in a config, putting them in changes nothing. For Claude this rests on
the shape of the entries that are there: a hook can only be put into an array.
-/

namespace VsFleet

/-! ## Claude -/

theorem Json.get?_value {fields : List (String × Json)} (value : (Json.object fields).IsKeyed)
    (key : String) : (Json.object fields).get? key = SortedMap.get? fields key := by
  rw [get?_object, SortedMap.get?_reverse (isKeyed_object.mp value).1.keys_nodup]

theorem claudeHook_isKeyed (reporterSocket hookType : String) :
    (claudeHook reporterSocket hookType).IsKeyed := by
  refine Json.isKeyed_object.mpr ⟨?_, ?_⟩
  · exact List.Pairwise.of_map Prod.fst (fun _ _ below => below)
      (by decide : ["command", "description", "tags", "type"].Pairwise (· < ·))
  · simp only [List.forall_mem_cons]
    exact ⟨rfl, rfl, rfl, rfl, fun e mem => absurd mem List.not_mem_nil⟩

theorem taggedFleet_claudeHook (reporterSocket hookType : String) :
    taggedFleet (claudeHook reporterSocket hookType) = true := rfl

/-- The event has a hook of Fleet. -/
def HookedClaude (hooksObj : List (String × Json)) (event : String) : Prop :=
  ∃ fields arr, SortedMap.get? hooksObj event = some (.object fields) ∧
    SortedMap.get? fields "hooks" = some (.array arr) ∧ arr.any taggedFleet = true

/-- A hook can be put to the event. -/
def Mergeable (hooksObj : List (String × Json)) (event : String) : Prop :=
  SortedMap.get? hooksObj event = none ∨
    ∃ fields, SortedMap.get? hooksObj event = some (.object fields) ∧
      (SortedMap.get? fields "hooks" = none ∨
        ∃ arr, SortedMap.get? fields "hooks" = some (.array arr))

section Merge

variable {hooksObj hooksObj' : List (String × Json)} {event key : String} {inner : List Json}

theorem hookedClaude_insert {existing : List (String × Json)} {arr : List Json}
    (tagged : arr.any taggedFleet = true) :
    HookedClaude (SortedMap.insert event (.object (SortedMap.insert "hooks" (.array arr) existing))
      hooksObj) event := by
  refine ⟨SortedMap.insert "hooks" (.array arr) existing, arr, ?_, ?_, tagged⟩
  · rw [SortedMap.get?_insert, if_pos rfl]
  · rw [SortedMap.get?_insert, if_pos rfl]

/-- What a round of the loop leaves. -/
theorem mergeClaudeHook_eq (merged : mergeClaudeHook hooksObj
      (event, .object [("hooks", .array inner)]) = some hooksObj') :
    ∃ existing, (SortedMap.get? hooksObj event).getD (.object []) = .object existing ∧
      hooksObj' = SortedMap.insert event (.object (SortedMap.insert "hooks"
        (match (SortedMap.get? existing "hooks").getD (.array []) with
          | .array arr => .array (arr ++ inner)
          | other => other) existing)) hooksObj := by
  unfold mergeClaudeHook at merged
  dsimp only at merged
  split at merged
  · rename_i existing there
    exact ⟨existing, there, (Option.some.inj merged).symm⟩
  · cases merged

theorem mergeClaudeHook_isKeyed (merged : mergeClaudeHook hooksObj
      (event, .object [("hooks", .array inner)]) = some hooksObj')
    (values : ∀ hook ∈ inner, hook.IsKeyed) (value : (Json.object hooksObj).IsKeyed) :
    (Json.object hooksObj').IsKeyed := by
  obtain ⟨existing, there, rfl⟩ := mergeClaudeHook_eq merged
  have empty : (Json.object []).IsKeyed := rfl
  have none : (Json.array []).IsKeyed := rfl
  have old : (Json.object existing).IsKeyed := there ▸ value.getD empty
  refine value.insert (old.insert ?_)
  have hooks : ((SortedMap.get? existing "hooks").getD (.array [])).IsKeyed := old.getD none
  split
  · rename_i arr found
    rw [found] at hooks
    refine Json.isKeyed_array.mpr (fun hook mem => ?_)
    rcases List.mem_append.mp mem with before | new
    · exact Json.isKeyed_array.mp hooks hook before
    · exact values hook new
  · exact hooks

/-- A round puts its hooks to a mergeable event. -/
theorem mergeClaudeHook_hooks (merged : mergeClaudeHook hooksObj
      (event, .object [("hooks", .array inner)]) = some hooksObj')
    (tagged : inner.any taggedFleet = true) (mergeable : Mergeable hooksObj event) :
    HookedClaude hooksObj' event := by
  obtain ⟨existing, there, rfl⟩ := mergeClaudeHook_eq merged
  obtain ⟨arr, array⟩ : ∃ arr,
      (SortedMap.get? existing "hooks").getD (.array []) = .array arr := by
    rcases mergeable with absent | ⟨fields, entry, absent | ⟨arr, hooks⟩⟩
    · rw [absent, Option.getD_none, Json.object.injEq] at there
      exact ⟨[], by rw [← there]; rfl⟩
    · rw [entry, Option.getD_some, Json.object.injEq] at there
      exact ⟨[], by rw [← there, absent]; rfl⟩
    · rw [entry, Option.getD_some, Json.object.injEq] at there
      exact ⟨arr, by rw [← there, hooks]; rfl⟩
  rw [array]
  exact hookedClaude_insert (by rw [List.any_append, tagged, Bool.or_true])

/-- A round takes no hook away. -/
theorem mergeClaudeHook_keeps (merged : mergeClaudeHook hooksObj
      (event, .object [("hooks", .array inner)]) = some hooksObj')
    (hooked : HookedClaude hooksObj key) : HookedClaude hooksObj' key := by
  obtain ⟨existing, there, rfl⟩ := mergeClaudeHook_eq merged
  obtain ⟨fields, arr, entry, hooks, tagged⟩ := hooked
  by_cases own : event = key
  · subst own
    rw [entry, Option.getD_some, Json.object.injEq] at there
    subst there
    rw [hooks, Option.getD_some]
    exact hookedClaude_insert (by rw [List.any_append, tagged, Bool.true_or])
  · refine ⟨fields, arr, ?_, hooks, tagged⟩
    rw [SortedMap.get?_insert, if_neg own]
    exact entry

/-- The rounds of the loop. -/
theorem foldlM_mergeClaudeHook {reporterSocket : String} (events : List String) :
    ∀ {hooksObj : List (String × Json)},
      (events.map (fun hookType => (hookType, Json.object [("hooks",
        .array [claudeHook reporterSocket hookType])]))).foldlM mergeClaudeHook hooksObj =
          some hooksObj' → (Json.object hooksObj).IsKeyed →
      (Json.object hooksObj').IsKeyed ∧
        (HookedClaude hooksObj key → HookedClaude hooksObj' key) := by
  induction events with
  | nil =>
    intro hooksObj run value
    cases run
    exact ⟨value, id⟩
  | cons event events ih =>
    intro hooksObj run value
    rw [List.map_cons, List.foldlM_cons, Option.bind_eq_bind, Option.bind_eq_some_iff] at run
    obtain ⟨next, merged, run⟩ := run
    have values : ∀ hook ∈ [claudeHook reporterSocket event], hook.IsKeyed := by
      intro hook mem
      rw [List.mem_singleton.mp mem]
      exact claudeHook_isKeyed reporterSocket event
    obtain ⟨value', kept⟩ := ih run (mergeClaudeHook_isKeyed merged values value)
    exact ⟨value', fun hooked => kept (mergeClaudeHook_keeps merged hooked)⟩

end Merge

/-- Every relayed event's entry in the settings is absent or an object whose `hooks` field is absent
or an array. -/
def RelayedEntriesMergeable (value : Json) : Prop :=
  ∀ fields hooksObj, value = .object fields →
    SortedMap.get? fields "hooks" = some (.object hooksObj) →
    ∀ event ∈ claudeHookEvents, Mergeable hooksObj event

/-- The settings with the hooks put in have hooks of Fleet. -/
theorem injectClaudeHooks_hooked {reporterSocket : String} {value value' : Json}
    (injected : injectClaudeHooks reporterSocket value = some (true, value'))
    (isKeyed : value.IsKeyed) (mergeable : RelayedEntriesMergeable value) :
    value'.IsKeyed ∧ claudeSettingsHasFleetHooks value' = true := by
  unfold injectClaudeHooks at injected
  split at injected
  · cases injected
  · split at injected
    case h_2 => cases injected
    rename_i fields fresh
    split at injected
    case h_2 => cases injected
    rename_i hooksObj there
    obtain ⟨hooksObj', run, pair⟩ := Option.map_eq_some_iff.mp injected
    cases pair
    have empty : (Json.object []).IsKeyed := rfl
    have value : (Json.object hooksObj).IsKeyed := there ▸ isKeyed.getD empty
    -- the first round puts a hook in, which the others keep
    obtain ⟨next, merged, rest⟩ : ∃ next, mergeClaudeHook hooksObj ("PreToolUse", .object [("hooks",
        .array [claudeHook reporterSocket "PreToolUse"])]) = some next ∧
        (claudeHookEvents.tail.map (fun hookType => (hookType, Json.object [("hooks",
          .array [claudeHook reporterSocket hookType])]))).foldlM mergeClaudeHook next =
            some hooksObj' := by
      rw [buildClaudeHooks, claudeHookEvents, List.map_cons, List.foldlM_cons, Option.bind_eq_bind,
        Option.bind_eq_some_iff] at run
      exact run
    have first : Mergeable hooksObj "PreToolUse" := by
      cases found : SortedMap.get? fields "hooks" with
      | none =>
        rw [found, Option.getD_none, Json.object.injEq] at there
        rw [← there]
        exact Or.inl rfl
      | some hooks =>
        rw [found, Option.getD_some] at there
        exact mergeable fields hooksObj rfl (found.trans (congrArg some there)) _ (by decide)
    have hooked := mergeClaudeHook_hooks merged
      (by rw [List.any_cons, taggedFleet_claudeHook, Bool.true_or]) first
    have values : ∀ hook ∈ [claudeHook reporterSocket "PreToolUse"], hook.IsKeyed := by
      intro hook mem
      rw [List.mem_singleton.mp mem]
      exact claudeHook_isKeyed reporterSocket "PreToolUse"
    obtain ⟨value', kept⟩ := foldlM_mergeClaudeHook claudeHookEvents.tail rest
      (mergeClaudeHook_isKeyed merged values value)
    obtain ⟨entry, arr, found, hooks, tagged⟩ := kept hooked
    refine ⟨isKeyed.insert value', ?_⟩
    have entryValue : (Json.object entry).IsKeyed := by
      have stored : ((SortedMap.get? hooksObj' "PreToolUse").getD (.object [])).IsKeyed :=
        value'.getD empty
      rwa [found, Option.getD_some] at stored
    unfold claudeSettingsHasFleetHooks
    rw [Json.get?_value (isKeyed.insert value'), SortedMap.get?_insert, if_pos rfl]
    dsimp only
    obtain ⟨e, mem, same⟩ := Option.map_eq_some_iff.mp found
    refine List.any_eq_true.mpr ⟨e, List.mem_of_find?_eq_some mem, ?_⟩
    rw [same, Json.get?_value entryValue, hooks]
    exact tagged

/-! ## Codex -/

theorem containsText_append (text pattern : String) :
    containsText (text ++ pattern) pattern = true := by
  refine decide_eq_true ?_
  rw [String.toList_append]
  exact (List.suffix_append text.toList pattern.toList).isInfix

theorem eventArrayHasFleetHook_append (arr : List Toml) :
    eventArrayHasFleetHook (arr ++ [fleetCodexHookGroup]) = true := by
  have marked : containsText codexHookRelayCommand fleetCodexMarker = true :=
    containsText_append _ fleetCodexMarker
  have group : eventArrayHasFleetHook [fleetCodexHookGroup] = true := by
    simp [eventArrayHasFleetHook, fleetCodexHookGroup, Toml.get?, SortedMap.get?_cons, Toml.asArray,
      Toml.asString, marked]
  unfold eventArrayHasFleetHook at group ⊢
  rw [List.any_append, group, Bool.or_true]

theorem fleetCodexHookGroup_ordered : fleetCodexHookGroup.Ordered := by
  refine .table (List.pairwise_singleton _ _) (fun e mem => ?_)
  rw [List.mem_singleton.mp mem]
  refine .array (fun item mem => ?_)
  rw [List.mem_singleton.mp mem]
  refine .table (List.Pairwise.of_map Prod.fst (fun _ _ below => below)
    (by decide : ["command", "type"].Pairwise (· < ·))) ?_
  simp only [List.forall_mem_cons]
  exact ⟨.string _, .string _, fun e mem => absurd mem List.not_mem_nil⟩

/-- The switch is on, or cannot be turned on. -/
def SwitchedOn (sectionKey key : String) (table : TomlTable) : Prop :=
  ∃ v, SortedMap.get? table sectionKey = some v ∧
    ∀ entries, v = .table entries → (SortedMap.get? entries key).bind Toml.asBool = some true

/-- The event has a hook of Fleet, or cannot have one. -/
def HookedCodex (hooks : TomlTable) (ev : String) : Prop :=
  ∃ v, SortedMap.get? hooks ev = some v ∧ ∀ arr, v = .array arr → eventArrayHasFleetHook arr = true

/-- Every event has a hook of Fleet, or there can be none. -/
def AllHooked (table : TomlTable) : Prop :=
  ∃ v, SortedMap.get? table "hooks" = some v ∧
    ∀ hooks, v = .table hooks → ∀ ev ∈ codexHookEvents, HookedCodex hooks ev

section Switch

variable {sectionKey key other : String} {table : TomlTable}

theorem switchOn_get?_ne (ne : sectionKey ≠ other) :
    SortedMap.get? (switchOn sectionKey key table).2 other = SortedMap.get? table other := by
  unfold switchOn
  split
  · split <;> exact SortedMap.get?_insert.trans (if_neg ne)
  · exact SortedMap.get?_insert.trans (if_neg ne)

theorem switchOn_switchedOn : SwitchedOn sectionKey key (switchOn sectionKey key table).2 := by
  unfold switchOn
  split
  · rename_i entries there
    split
    · refine ⟨_, SortedMap.get?_insert.trans (if_pos rfl), fun entries' same => ?_⟩
      rw [Toml.table.injEq] at same
      rw [← same, SortedMap.get?_insert, if_pos rfl]
      rfl
    · rename_i on
      refine ⟨_, SortedMap.get?_insert.trans (if_pos rfl), fun entries' same => ?_⟩
      rw [Toml.table.injEq] at same
      rw [← same]
      exact not_not.mp on
  · rename_i notTable
    refine ⟨_, SortedMap.get?_insert.trans (if_pos rfl), fun entries same => ?_⟩
    exact absurd same (notTable entries)

theorem switchOn_fst (on : SwitchedOn sectionKey key table) :
    (switchOn sectionKey key table).1 = false := by
  obtain ⟨v, there, on⟩ := on
  unfold switchOn
  rw [there, Option.getD_some]
  split
  · rw [if_neg (not_not.mpr (on _ rfl))]
  · rfl

theorem SwitchedOn.congr {table' : TomlTable} (h : SwitchedOn sectionKey key table)
    (same : SortedMap.get? table' sectionKey = SortedMap.get? table sectionKey) :
    SwitchedOn sectionKey key table' := by
  obtain ⟨v, there, on⟩ := h
  exact ⟨v, same.trans there, on⟩

theorem switchOn_ordered (h : (Toml.table table).Ordered) :
    (Toml.table (switchOn sectionKey key table).2).Ordered := by
  have old : ((SortedMap.get? table sectionKey).getD (.table [])).Ordered :=
    h.getD Toml.ordered_table_nil
  unfold switchOn
  split
  · rename_i entries there
    rw [there] at old
    split
    · exact h.insert (old.insert (.boolean true))
    · exact h.insert old
  · exact h.insert old

end Switch

section Events

variable {hooks : TomlTable} {ev other : String}

theorem addCodexHook_hooked : HookedCodex (addCodexHook hooks ev).2 ev := by
  unfold addCodexHook
  split
  · rename_i arr there
    split
    · rename_i hooked
      refine ⟨_, SortedMap.get?_insert.trans (if_pos rfl), fun arr' same => ?_⟩
      rw [Toml.array.injEq] at same
      exact same ▸ hooked
    · refine ⟨_, SortedMap.get?_insert.trans (if_pos rfl), fun arr' same => ?_⟩
      rw [Toml.array.injEq] at same
      exact same ▸ eventArrayHasFleetHook_append arr
  · rename_i notArray
    refine ⟨_, SortedMap.get?_insert.trans (if_pos rfl), fun arr same => ?_⟩
    exact absurd same (notArray arr)

theorem addCodexHook_fst (hooked : HookedCodex hooks ev) : (addCodexHook hooks ev).1 = false := by
  obtain ⟨v, there, hooked⟩ := hooked
  unfold addCodexHook
  rw [there, Option.getD_some]
  split
  · rw [if_pos (hooked _ rfl)]
  · rfl

theorem addCodexHook_keeps (hooked : HookedCodex hooks other) :
    HookedCodex (addCodexHook hooks ev).2 other := by
  by_cases own : ev = other
  · exact own ▸ addCodexHook_hooked
  · obtain ⟨v, there, hooked⟩ := hooked
    refine ⟨v, Eq.trans ?_ there, hooked⟩
    unfold addCodexHook
    split
    · split <;> exact SortedMap.get?_insert.trans (if_neg own)
    · exact SortedMap.get?_insert.trans (if_neg own)

theorem addCodexHook_ordered (h : (Toml.table hooks).Ordered) :
    (Toml.table (addCodexHook hooks ev).2).Ordered := by
  have old : ((SortedMap.get? hooks ev).getD (.array [])).Ordered := h.getD Toml.ordered_array_nil
  unfold addCodexHook
  split
  · rename_i arr there
    rw [there] at old
    split
    · exact h.insert old
    · refine h.insert (.array (fun item mem => ?_))
      cases old with
      | array each =>
        rcases List.mem_append.mp mem with before | new
        · exact each item before
        · rw [List.mem_singleton.mp new]
          exact fleetCodexHookGroup_ordered
  · exact h.insert old

/-- The rounds over the events, from what those before have modified. -/
theorem foldl_addCodexHook (events : List String) : ∀ (modified : Bool) {hooks : TomlTable},
    let after := events.foldl (fun acc ev =>
      let added := addCodexHook acc.2 ev
      (acc.1 || added.1, added.2)) (modified, hooks)
    (∀ ev, ev ∈ events ∨ HookedCodex hooks ev → HookedCodex after.2 ev) ∧
      ((∀ ev ∈ events, HookedCodex hooks ev) → after.1 = modified) ∧
      ((Toml.table hooks).Ordered → (Toml.table after.2).Ordered) := by
  induction events with
  | nil =>
    intro modified hooks
    exact ⟨fun ev h => h.resolve_left List.not_mem_nil, fun _ => rfl, id⟩
  | cons first events ih =>
    intro modified hooks
    obtain ⟨hooked, still, ordered⟩ :=
      @ih (modified || (addCodexHook hooks first).1) (addCodexHook hooks first).2
    refine ⟨fun ev h => hooked ev ?_, fun all => ?_, fun h => ordered (addCodexHook_ordered h)⟩
    · rcases h with mem | there
      · rcases List.mem_cons.mp mem with rfl | mem
        · exact Or.inr addCodexHook_hooked
        · exact Or.inl mem
      · exact Or.inr (addCodexHook_keeps there)
    · refine (still (fun ev mem =>
        addCodexHook_keeps (all ev (List.mem_cons_of_mem first mem)))).trans ?_
      rw [addCodexHook_fst (all first List.mem_cons_self), Bool.or_false]

end Events

section Table

variable {table : TomlTable}

theorem hookEvents_get?_ne {key : String} (ne : "hooks" ≠ key) :
    SortedMap.get? (hookEvents table).2 key = SortedMap.get? table key := by
  unfold hookEvents
  split <;> exact SortedMap.get?_insert.trans (if_neg ne)

theorem hookEvents_allHooked : AllHooked (hookEvents table).2 := by
  unfold hookEvents
  split
  · rename_i hooks there
    refine ⟨_, SortedMap.get?_insert.trans (if_pos rfl), fun hooks' same ev mem => ?_⟩
    rw [Toml.table.injEq] at same
    exact same ▸ (foldl_addCodexHook codexHookEvents false).1 ev (Or.inl mem)
  · rename_i notTable
    refine ⟨_, SortedMap.get?_insert.trans (if_pos rfl), fun hooks same => ?_⟩
    exact absurd same (notTable hooks)

theorem hookEvents_fst (all : AllHooked table) : (hookEvents table).1 = false := by
  obtain ⟨v, there, all⟩ := all
  unfold hookEvents
  rw [there, Option.getD_some]
  split
  · exact (foldl_addCodexHook codexHookEvents false).2.1 (all _ rfl)
  · rfl

theorem hookEvents_ordered (h : (Toml.table table).Ordered) :
    (Toml.table (hookEvents table).2).Ordered := by
  have old : ((SortedMap.get? table "hooks").getD (.table [])).Ordered :=
    h.getD Toml.ordered_table_nil
  unfold hookEvents
  split
  · rename_i hooks there
    rw [there] at old
    exact h.insert ((foldl_addCodexHook codexHookEvents false).2.2 old)
  · exact h.insert old

/-- The switches are on and the events have their hooks, or cannot have them. -/
structure Configured (table : TomlTable) : Prop where
  features : SwitchedOn "features" "hooks" table
  tui : SwitchedOn "tui" "notifications" table
  hooks : AllHooked table

/-- Each section is as its own step left it. -/
theorem injectCodexConfig_configured (table : TomlTable) :
    Configured (injectCodexConfig table).2 where
  features := switchOn_switchedOn.congr
    ((hookEvents_get?_ne (by decide)).trans (switchOn_get?_ne (by decide)))
  tui := switchOn_switchedOn.congr (hookEvents_get?_ne (by decide))
  hooks := hookEvents_allHooked

/-- Once put in, the configuration is there. -/
theorem injectCodexConfig_again (table : TomlTable) :
    (injectCodexConfig (injectCodexConfig table).2).1 = false := by
  obtain ⟨features, tui, hooks⟩ := injectCodexConfig_configured table
  generalize (injectCodexConfig table).2 = table' at features tui hooks ⊢
  have tui' : SwitchedOn "tui" "notifications" (switchOn "features" "hooks" table').2 :=
    tui.congr (switchOn_get?_ne (by decide))
  have hooks' : AllHooked
      (switchOn "tui" "notifications" (switchOn "features" "hooks" table').2).2 := by
    obtain ⟨v, there, all⟩ := hooks
    refine ⟨v, ?_, all⟩
    rw [switchOn_get?_ne (by decide), switchOn_get?_ne (by decide), there]
  unfold injectCodexConfig
  dsimp only
  rw [switchOn_fst features, switchOn_fst tui', hookEvents_fst hooks']
  rfl

theorem injectCodexConfig_ordered (h : (Toml.table table).Ordered) :
    (Toml.table (injectCodexConfig table).2).Ordered :=
  hookEvents_ordered (switchOn_ordered (switchOn_ordered h))

end Table

end VsFleet
