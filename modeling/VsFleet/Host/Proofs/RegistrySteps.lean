import VsFleet.Host.Bridge

/-!
# The methods of the bridge registry

What a method does is what it does to the entry of each server: the list of rows tells what every
server is shown as, and a method changes the entries of the servers it is about.
-/

namespace VsFleet

namespace BridgeRegistry

variable {τ : Type} {r : BridgeRegistry τ} {id id' url label : String} {now generation : Nat}
  {tx : τ} {c : ServerConnSet τ}
  {iter iter' : IterOrder (Sigma fun _ : String => ServerConnSet τ)}

/-! ## The rows -/

theorem mem_perm_entries {entry : Sigma fun _ : String => ServerConnSet τ} :
    entry ∈ iter.perm r.inner.entries ↔ r.inner.lookup entry.1 = some entry.2 := by
  rw [(iter.isPerm _).mem_iff, AList.mem_lookup_iff.symm]
  rfl

theorem mem_servers {s : MuxSession} :
    s ∈ r.servers iter ↔ ∃ c, r.inner.lookup s.id = some c ∧ s = row s.id c := by
  unfold servers
  rw [(List.mergeSort_perm _ _).mem_iff, List.mem_map]
  constructor
  · rintro ⟨entry, stored, rfl⟩
    exact ⟨entry.2, mem_perm_entries.mp stored, rfl⟩
  · rintro ⟨c, stored, same⟩
    exact ⟨⟨s.id, c⟩, mem_perm_entries.mpr stored, same.symm⟩

/-- The rows are in the order of the ids, and no id is there twice. -/
theorem pairwise_servers : (r.servers iter).Pairwise (fun a b => a.id < b.id) := by
  unfold servers
  have sorted : (((iter.perm r.inner.entries).map (fun entry => row entry.1 entry.2)).mergeSort
      (fun a b => a.id ≤ b.id)).Pairwise (fun a b => decide (a.id ≤ b.id) = true) :=
    List.pairwise_mergeSort
      (by simpa using fun a b c : MuxSession => le_trans (a := a.id) (b := b.id) (c := c.id))
      (by simpa using fun a b : MuxSession => le_total a.id b.id) _
  have distinct : (r.inner.entries.map Sigma.fst).Nodup := r.inner.nodupKeys
  have apart : (((iter.perm r.inner.entries).map (fun entry => row entry.1 entry.2)).mergeSort
      (fun a b => a.id ≤ b.id)).Pairwise (fun a b => a.id ≠ b.id) := by
    rw [← List.pairwise_map]
    refine ((List.mergeSort_perm _ _).map _).nodup_iff.mpr ?_
    rw [List.map_map]
    exact ((iter.isPerm _).map _).nodup_iff.mpr distinct
  refine (sorted.and apart).imp ?_
  rintro a b ⟨le, ne⟩
  exact lt_of_le_of_ne (of_decide_eq_true le) ne

theorem mem_servers_iff {s : MuxSession} :
    s ∈ r.servers iter ↔ (r.inner.lookup s.id).map (row s.id) = some s := by
  rw [mem_servers, Option.map_eq_some_iff]
  exact exists_congr (fun c => and_congr_right (fun _ => eq_comm))

/-- The list of rows tells what every server is shown as, and no more. -/
theorem servers_eq_iff {r' : BridgeRegistry τ} : r.servers iter = r'.servers iter' ↔
    ∀ id, (r.inner.lookup id).map (row id) = (r'.inner.lookup id).map (row id) := by
  constructor
  · intro same id
    -- a row of `id` is listed in both or in neither
    have listed : ∀ c c', (r.inner.lookup id = some c → (r'.inner.lookup id).map (row id) =
        some (row id c)) ∧ (r'.inner.lookup id = some c' → (r.inner.lookup id).map (row id) =
        some (row id c')) := by
      intro c c'
      constructor
      · intro stored
        have here : row id c ∈ r.servers iter := mem_servers.mpr ⟨c, stored, rfl⟩
        exact mem_servers_iff.mp (same ▸ here)
      · intro stored
        have here : row id c' ∈ r'.servers iter' := mem_servers.mpr ⟨c', stored, rfl⟩
        exact mem_servers_iff.mp (same ▸ here)
    cases before : r.inner.lookup id with
    | some c => exact ((listed c c).1 before).symm
    | none =>
      cases after : r'.inner.lookup id with
      | none => rfl
      | some c' =>
        have shown := (listed c' c').2 after
        rw [before] at shown
        cases shown
  · intro same
    have members : ∀ s, s ∈ r.servers iter ↔ s ∈ r'.servers iter' := by
      intro s
      rw [mem_servers_iff, mem_servers_iff, same]
    have nodup : ∀ {r : BridgeRegistry τ} {iter}, (r.servers iter).Nodup := fun {_ _} =>
      pairwise_servers.imp (fun below same => (ne_of_lt below) (congrArg MuxSession.id same))
    refine ((List.perm_ext_iff_of_nodup nodup nodup).mpr members).eq_of_pairwise ?_
      pairwise_servers pairwise_servers
    intro a b _ _ below above
    exact absurd above (lt_asymm below)

/-! ## What a method does to an entry -/

theorem lookup_forget : (r.forget id).2.inner.lookup id' =
    if id' = id then none else r.inner.lookup id' := by
  unfold forget
  split
  · split
    · rename_i same
      rw [same]
      exact AList.lookup_erase id r.inner
    · rename_i other
      exact AList.lookup_erase_ne other
  · rename_i absent
    split
    · rename_i same
      rw [same]
      exact AList.lookup_eq_none.mpr absent
    · rfl

theorem forget_eq_true : (r.forget id).1 = true ↔ (r.inner.lookup id).isSome = true := by
  rw [AList.lookup_isSome, forget]
  split <;> simp_all

theorem lookup_touch : (r.touch now id).inner.lookup id' =
    if id' = id then (r.inner.lookup id').map (fun c => { c with lastSeen := now })
    else r.inner.lookup id' :=
  HashMap.lookup_modify

theorem lookup_foldl_erase (ids : List String) : ∀ inner : HashMap String (ServerConnSet τ),
    (ids.foldl (fun inner id => inner.erase id) inner).lookup id' =
      if id' ∈ ids then none else inner.lookup id' := by
  induction ids with
  | nil => exact fun _ => rfl
  | cons id ids ih =>
    intro inner
    rw [List.foldl_cons, ih]
    by_cases later : id' ∈ ids
    · rw [if_pos later, if_pos (List.mem_cons_of_mem id later)]
    · rw [if_neg later]
      by_cases same : id' = id
      · rw [same, if_pos List.mem_cons_self]
        exact AList.lookup_erase id inner
      · rw [if_neg (by simp [same, later])]
        exact AList.lookup_erase_ne same

theorem lookup_reapStale {clock : String → Nat} {timeout : Nat} :
    (r.reapStale iter clock timeout).2.inner.lookup id' =
      if id' ∈ (r.reapStale iter clock timeout).1 then none else r.inner.lookup id' :=
  lookup_foldl_erase _ _

/-- A sweep takes the servers last heard from longer ago than the timeout. -/
theorem mem_reapStale {clock : String → Nat} {timeout : Nat} :
    id ∈ (r.reapStale iter clock timeout).1 ↔
      ∃ c, r.inner.lookup id = some c ∧ timeout < clock id - c.lastSeen := by
  simp only [reapStale, List.mem_map, List.mem_filter, decide_eq_true_eq]
  constructor
  · rintro ⟨entry, ⟨stored, silent⟩, rfl⟩
    exact ⟨entry.2, mem_perm_entries.mp stored, silent⟩
  · rintro ⟨c, stored, silent⟩
    exact ⟨⟨id, c⟩, ⟨mem_perm_entries.mpr stored, silent⟩, rfl⟩

theorem lookup_rename : (r.rename id label).2.inner.lookup id' =
    if id' = id then (r.inner.lookup id').map (fun c => { c with label, renamed := true })
    else r.inner.lookup id' := by
  unfold rename
  by_cases same : id' = id
  · subst same
    cases stored : r.inner.lookup id' with
    | none => simp [stored]
    | some c => simp
  · rw [if_neg same]
    cases r.inner.lookup id with
    | none => rfl
    | some c => exact AList.lookup_insert_ne same

/-- The entry a registration leaves behind. -/
def registered (now generation : Nat) (tx : τ) (url label : String) :
    Option (ServerConnSet τ) → ServerConnSet τ
  | some c => { c with
      url
      label := if c.renamed then c.label else label
      lastSeen := now
      conns := SortedMap.insert generation tx c.conns }
  | none => ⟨url, label, false, now, [(generation, tx)]⟩

theorem lookup_register : (r.register now generation id tx url label).2.inner.lookup id' =
    if id' = id then some (registered now generation tx url label (r.inner.lookup id'))
    else r.inner.lookup id' := by
  unfold register
  by_cases same : id' = id
  · subst same
    cases stored : r.inner.lookup id' with
    | none => simp [registered]
    | some c => by_cases kept : c.renamed = true <;> by_cases told : c.label = label <;>
        simp [registered, kept, told]
  · rw [if_neg same]
    cases r.inner.lookup id with
    | none => exact AList.lookup_insert_ne same
    | some c => exact AList.lookup_insert_ne same

/-- The entry left after a connection is taken out. -/
def unregistered (generation : Nat) (c : ServerConnSet τ) : Option (ServerConnSet τ) :=
  if (SortedMap.get? c.conns generation).isSome then
    let conns := c.conns.filter (fun conn => conn.1 ≠ generation)
    if conns.isEmpty then none else some { c with conns }
  else some c

theorem lookup_unregister : (r.unregister id generation).2.inner.lookup id' =
    if id' = id then (r.inner.lookup id').bind (unregistered generation)
    else r.inner.lookup id' := by
  unfold unregister unregistered
  by_cases same : id' = id
  · subst same
    cases stored : r.inner.lookup id' with
    | none => simp [stored]
    | some c =>
      rw [if_pos rfl, Option.bind_some]
      dsimp only
      split
      · split
        · exact AList.lookup_erase id' r.inner
        · exact AList.lookup_insert r.inner
      · exact stored
  · rw [if_neg same]
    cases r.inner.lookup id with
    | none => rfl
    | some c =>
      dsimp only
      split
      · split
        · exact AList.lookup_erase_ne same
        · exact AList.lookup_insert_ne same
      · rfl

/-- The connection of a server under a generation. -/
def conn (r : BridgeRegistry τ) (id : String) (generation : Nat) : Option τ :=
  (r.inner.lookup id).bind (fun c => SortedMap.get? c.conns generation)

theorem conn_register (id' : String) (g : Nat) :
    (r.register now generation id tx url label).2.conn id' g =
      if id' = id ∧ g = generation then some tx else r.conn id' g := by
  unfold conn
  rw [lookup_register]
  by_cases same : id' = id
  · rw [if_pos same, Option.bind_some]
    cases r.inner.lookup id' with
    | none =>
      rw [registered, SortedMap.get?_cons]
      by_cases own : generation = g <;> simp [same, own, Ne.symm]
    | some c =>
      rw [registered, SortedMap.get?_insert]
      by_cases own : generation = g <;> simp [same, own, Ne.symm]
  · simp [same]

theorem unregister_eq_true : (r.unregister id generation).1 = true ↔
    (r.inner.lookup id).isSome = true ∧
      (r.inner.lookup id).bind (unregistered generation) = none := by
  unfold unregister unregistered
  cases r.inner.lookup id with
  | none => simp
  | some c =>
    dsimp only
    rw [Option.bind_some]
    split
    · split <;> simp
    · simp

theorem get?_unregistered (c : ServerConnSet τ) (g : Nat) :
    ((unregistered generation c).bind (fun c => SortedMap.get? c.conns g)) =
      if g = generation then none else SortedMap.get? c.conns g := by
  have taken : SortedMap.get? (c.conns.filter (fun conn => conn.1 ≠ generation)) g =
      if g = generation then none else SortedMap.get? c.conns g := by
    split
    · rename_i same
      refine SortedMap.get?_eq_none (fun e he => ?_)
      rw [same]
      exact of_decide_eq_true (List.mem_filter.mp he).2
    · rename_i other
      exact SortedMap.get?_filter (p := fun k => k ≠ generation) (decide_eq_true other)
  unfold unregistered
  split
  · dsimp only
    rw [← taken]
    split
    · rename_i empty
      rw [List.isEmpty_iff.mp empty]
      rfl
    · rfl
  · rename_i absent
    rw [Option.bind_some]
    split
    · rename_i same
      rw [same]
      exact Option.not_isSome_iff_eq_none.mp absent
    · rfl

/-- Where the server stays it stays as it was. -/
theorem unregistered_eq_some {c' : ServerConnSet τ} (left : unregistered generation c = some c') :
    ∃ conns, conns.Sublist c.conns ∧ c' = { c with conns } := by
  unfold unregistered at left
  split at left
  · dsimp only at left
    split at left <;> cases left
    exact ⟨_, List.filter_sublist, rfl⟩
  · cases left
    exact ⟨_, List.Sublist.refl _, rfl⟩

/-- Taking a connection out changes no row of a server that stays. -/
theorem row_unregister {c' : ServerConnSet τ}
    (stays : (r.unregister id generation).2.inner.lookup id' = some c') :
    ∃ c, r.inner.lookup id' = some c ∧ row id' c = row id' c' := by
  rw [lookup_unregister] at stays
  split at stays
  · obtain ⟨c, stored, left⟩ := Option.bind_eq_some_iff.mp stays
    obtain ⟨conns, -, rfl⟩ := unregistered_eq_some left
    exact ⟨c, stored, rfl⟩
  · exact ⟨c', stays, rfl⟩

/-- Taking a connection out leaves every other one of every server in place. -/
theorem conn_unregister (id' : String) (g : Nat) : (r.unregister id generation).2.conn id' g =
    if id' = id ∧ g = generation then none else r.conn id' g := by
  unfold conn
  rw [lookup_unregister]
  by_cases same : id' = id
  · rw [if_pos same, Option.bind_assoc]
    simp only [same, true_and, get?_unregistered]
    cases r.inner.lookup id <;> split <;> simp_all
  · simp [same]

/-! ## Changes of the list -/

/-- Where the other entries stay the list changes with the row of the one. -/
theorem servers_ne_iff (id : String) {r' : BridgeRegistry τ}
    (frame : ∀ id', id' ≠ id → r'.inner.lookup id' = r.inner.lookup id') :
    r'.servers iter' ≠ r.servers iter ↔
      (r'.inner.lookup id).map (row id) ≠ (r.inner.lookup id).map (row id) := by
  refine not_congr ?_
  rw [servers_eq_iff]
  constructor
  · exact fun same => same id
  · intro same id'
    by_cases own : id' = id
    · rw [own]
      exact same
    · rw [frame id' own]

theorem forget_changed : (r.forget id).1 = true ↔
    (r.forget id).2.servers iter' ≠ r.servers iter := by
  rw [servers_ne_iff id (fun id' other => by rw [lookup_forget, if_neg other]),
    forget_eq_true, lookup_forget, if_pos rfl]
  cases r.inner.lookup id <;> simp

theorem register_changed : (r.register now generation id tx url label).1 = true ↔
    (r.register now generation id tx url label).2.servers iter' ≠ r.servers iter := by
  rw [servers_ne_iff id (fun id' other => by rw [lookup_register, if_neg other]),
    lookup_register, if_pos rfl]
  unfold register
  cases r.inner.lookup id with
  | none => simp
  | some c =>
    have same : (some (row id (registered now generation tx url label (some c))) =
        some (row id c)) ↔ c.url = url ∧ (c.renamed = true ∨ c.label = label) := by
      by_cases named : c.renamed = true <;>
        simp [registered, row, named, eq_comm (a := url), eq_comm (a := label), and_comm]
    rw [Option.map_some, Option.map_some, ne_eq, same]
    by_cases named : c.renamed = true
    · simp [named]
    · simp [named, imp_iff_not_or]

theorem unregister_changed : (r.unregister id generation).1 = true ↔
    (r.unregister id generation).2.servers iter' ≠ r.servers iter := by
  rw [servers_ne_iff id (fun id' other => by rw [lookup_unregister, if_neg other]),
    unregister_eq_true, lookup_unregister, if_pos rfl]
  cases r.inner.lookup id with
  | none => simp
  | some c =>
    rw [Option.bind_some]
    cases left : unregistered generation c with
    | none => simp
    | some c' =>
      obtain ⟨conns, -, rfl⟩ := unregistered_eq_some left
      simp [row]

theorem reapStale_changed (iter'' : IterOrder (Sigma fun _ : String => ServerConnSet τ))
    (clock : String → Nat) (timeout : Nat) :
    (!(r.reapStale iter'' clock timeout).1.isEmpty) = true ↔
      (r.reapStale iter'' clock timeout).2.servers iter' ≠ r.servers iter := by
  rw [Bool.not_eq_true', ← Bool.not_eq_true, List.isEmpty_iff]
  constructor
  · intro some same
    obtain ⟨id, rest, taken⟩ := List.exists_cons_of_ne_nil some
    have stale : id ∈ (r.reapStale iter'' clock timeout).1 := by
      rw [taken]
      exact List.mem_cons_self
    obtain ⟨c, stored, -⟩ := mem_reapStale.mp stale
    have rows := servers_eq_iff.mp same id
    rw [lookup_reapStale, if_pos stale, stored] at rows
    cases rows
  · intro changed none
    refine changed (servers_eq_iff.mpr (fun id => ?_))
    rw [lookup_reapStale, if_neg (by simp [none])]

end BridgeRegistry

/-! ## The turn of a registration -/

theorem Bridge.step_register_none {τ : Type} {b : Bridge τ} {place : Nat}
    (none : b.registering[place]? = none) : b.step (.register place) = (b, .none) := by
  unfold step
  dsimp only
  rw [none]

theorem Bridge.step_register_some {τ : Type} {b : Bridge τ} {place : Nat} {c : Registering τ}
    (under : b.registering[place]? = some c) : b.step (.register place) =
      ({ b with
          registry := (b.registry.register b.now c.generation c.id c.tx c.url c.label).2
          registering := b.registering.eraseIdx place },
        some (.register c.generation c.id c.url c.label
          (b.registry.register b.now c.generation c.id c.tx c.url c.label).1)) := by
  unfold step
  dsimp only
  rw [under]

end VsFleet
