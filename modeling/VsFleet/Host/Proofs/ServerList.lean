import VsFleet.Host.ServerList

/-!
# The rows of the rail

The host lists each of its servers once. The webview puts the servers, the starts and the sessions
together: each of them has one row, the sessions first and in the order of the inbox.
-/

namespace VsFleet

/-! ## The servers of the host -/

section

variable {out l : List MuxSession} {s : MuxSession}

/-- One server more of `merged_servers`: it is taken if its id is not there yet. -/
def mergeServer (out : List MuxSession) (s : MuxSession) : List MuxSession :=
  if s.id ∈ out.map (fun t => t.id) then out else out ++ [s]

/-- The servers that are there stay, and of each other id the first comes. -/
theorem mem_foldl_mergeServer (l : List MuxSession) : ∀ out : List MuxSession,
    s ∈ l.foldl mergeServer out ↔
      s ∈ out ∨ s.id ∉ out.map (fun t => t.id) ∧ l.find? (fun t => t.id = s.id) = some s := by
  induction l with
  | nil => simp
  | cons t l ih =>
    intro out
    rw [List.foldl_cons, ih, mergeServer]
    by_cases known : t.id ∈ out.map (fun t => t.id)
    · rw [if_pos known]
      refine or_congr_right (and_congr_right (fun new => ?_))
      rw [List.find?_cons_of_neg]
      simpa using fun same : t.id = s.id => new (same ▸ known)
    · rw [if_neg known]
      by_cases same : t.id = s.id
      · rw [List.find?_cons_of_pos (by simpa using same)]
        constructor
        · rintro (taken | ⟨fresh, -⟩)
          · rcases List.mem_append.mp taken with old | new
            · exact .inl old
            · cases List.mem_singleton.mp new
              exact .inr ⟨known, rfl⟩
          · exact absurd (by simp [same]) fresh
        · rintro (old | ⟨-, found⟩)
          · exact .inl (List.mem_append_left _ old)
          · cases found
            exact .inl (by simp)
      · have other : s ≠ t := fun eq => same (eq ▸ rfl)
        rw [List.find?_cons_of_neg (by simpa using same), List.map_append, List.mem_append,
          List.mem_append]
        simp [other, Ne.symm same]

theorem nodup_foldl_mergeServer (l : List MuxSession) : ∀ out : List MuxSession,
    (out.map (fun t => t.id)).Nodup → ((l.foldl mergeServer out).map (fun t => t.id)).Nodup := by
  induction l with
  | nil => exact fun _ nodup => nodup
  | cons t l ih =>
    intro out nodup
    refine ih _ ?_
    unfold mergeServer
    split
    · exact nodup
    · rename_i new
      rw [List.map_append]
      exact nodup.append (List.nodup_singleton _) (by simpa using new)

/-- Of the rows with one id the list has the first: a spawned server goes before a registered
one. -/
theorem mem_mergedServers {spawned registered : List MuxSession} :
    s ∈ mergedServers spawned registered ↔
      (spawned ++ registered).find? (fun t => t.id = s.id) = some s := by
  unfold mergedServers
  rw [List.mem_mergeSort]
  exact (mem_foldl_mergeServer (spawned ++ registered) []).trans (by simp)

/-- The list is in the order of the ids, and no id is there twice. -/
theorem pairwise_mergedServers (spawned registered : List MuxSession) :
    ((mergedServers spawned registered).map (fun s => s.id)).Pairwise (fun a b => a < b) := by
  unfold mergedServers
  rw [List.pairwise_map]
  have sorted : (((spawned ++ registered).foldl mergeServer []).mergeSort
      (fun a b => a.id ≤ b.id)).Pairwise (fun a b => decide (a.id ≤ b.id) = true) :=
    List.pairwise_mergeSort
      (by simpa using fun a b c : MuxSession => le_trans (a := a.id) (b := b.id) (c := c.id))
      (by simpa using fun a b : MuxSession => le_total a.id b.id) _
  have apart : (((spawned ++ registered).foldl mergeServer []).mergeSort
      (fun a b => a.id ≤ b.id)).Pairwise (fun a b => a.id ≠ b.id) := by
    rw [← List.pairwise_map]
    exact ((List.mergeSort_perm _ _).map _).nodup_iff.mpr (nodup_foldl_mergeServer _ [] .nil)
  refine (sorted.and apart).imp ?_
  rintro a b ⟨le, ne⟩
  exact lt_of_le_of_ne (of_decide_eq_true le) ne

theorem nodup_mergedServers (spawned registered : List MuxSession) :
    ((mergedServers spawned registered).map (fun s => s.id)).Nodup :=
  (pairwise_mergedServers spawned registered).imp (fun below => ne_of_lt below)

end

/-! ## The rows -/

namespace ServerRail

variable {app : ServerRail} {id : String}

/-- The ids of the servers, in the order of the host. -/
def serverIds (app : ServerRail) : List String := app.servers.map (fun s => s.id)

/-- The ids of the starts. -/
def pendingIds (app : ServerRail) : List String := app.pending.map (fun p => p.id)

/-- The ids of the sessions, in the order of the tabs. -/
def tabIds (app : ServerRail) : List String := app.rail.inbox.tabs.map (fun tab => tab.sessionId)

/-- No id is there twice among the servers, the starts or the sessions. -/
structure Distinct (app : ServerRail) : Prop where
  servers : app.serverIds.Nodup
  pending : app.pendingIds.Nodup
  tabs : app.tabIds.Nodup

/-- The starts that are not servers yet. -/
def waiting (app : ServerRail) : List String :=
  app.pendingIds.filter (fun id => id ∉ app.serverIds)

theorem rows_ids (app : ServerRail) : app.rows.map ServerRow.id =
    app.serverIds ++ app.waiting ++
      app.tabIds.filter (fun id => id ∉ app.serverIds ++ app.waiting) := by
  have starts : (app.pending.filter (fun p => p.id ∉ app.serverIds)).map (fun p => p.id) =
      app.waiting := by
    rw [waiting, pendingIds, List.filter_map]
    rfl
  unfold rows
  simp only [List.map_append, List.map_map]
  rw [tabIds, List.filter_map, ← starts]
  rfl

theorem rows_nodup (h : app.Distinct) : (app.rows.map ServerRow.id).Nodup := by
  rw [rows_ids]
  have visible : (app.serverIds ++ app.waiting).Nodup := by
    refine h.servers.append (h.pending.filter _) (fun id server start => ?_)
    exact absurd server (of_decide_eq_true (List.mem_filter.mp start).2)
  refine visible.append (h.tabs.filter _) (fun id visible alone => ?_)
  exact absurd visible (of_decide_eq_true (List.mem_filter.mp alone).2)

/-- A session has its row as a server, as a start or by itself. -/
theorem mem_rows_ids : id ∈ app.rows.map ServerRow.id ↔
    id ∈ app.tabIds ∨ id ∈ app.serverIds ∨ id ∈ app.waiting := by
  rw [rows_ids, List.mem_append, List.mem_append, List.mem_filter, decide_eq_true_iff,
    List.mem_append]
  tauto

/-- The place of a session among the tabs, if no two have one id. -/
theorem tabOrder_eq (distinct : app.tabIds.Nodup) (id : String) :
    app.tabOrder id = if id ∈ app.tabIds then some (app.tabIds.idxOf id) else none := by
  unfold tabOrder
  cases found : app.rail.inbox.tabs.zipIdx.reverse.find? (fun entry => entry.1.sessionId = id) with
  | none =>
    have absent : id ∉ app.tabIds := by
      rintro mem
      obtain ⟨tab, there, rfl⟩ := List.mem_map.mp mem
      obtain ⟨i, placed⟩ := List.getElem?_of_mem there
      have entry : (tab, i) ∈ app.rail.inbox.tabs.zipIdx :=
        List.mem_zipIdx_iff_getElem?.mpr placed
      have missed := List.find?_eq_none.mp found _ (List.mem_reverse.mpr entry)
      exact missed (decide_eq_true rfl)
    rw [if_neg absent]
    rfl
  | some entry =>
    have named : entry.1.sessionId = id := by simpa using List.find?_some found
    have placed := List.mem_zipIdx_iff_getElem?.mp
      (List.mem_reverse.mp (List.mem_of_find?_eq_some found))
    have there : app.tabIds[entry.2]? = some id := by
      rw [tabIds, List.getElem?_map, placed, ← named]
      rfl
    obtain ⟨lt, eq⟩ := List.getElem?_eq_some_iff.mp there
    have mem : id ∈ app.tabIds := eq ▸ List.getElem_mem lt
    rw [if_pos mem, Option.map_some, ← eq, distinct.idxOf_getElem]

/-- The rank of a row: the place of its session, or its own place behind all sessions. -/
def rank (app : ServerRail) (id : String) : Nat :=
  if id ∈ app.tabIds then app.tabIds.idxOf id
  else 10000 + (app.rows.map ServerRow.id).idxOf id

/-- Two rows have one rank only if they have one id, as long as the sessions are not too many. -/
theorem rank_injective (few : app.tabIds.length ≤ 10000) {a b : String}
    (there : a ∈ app.rows.map ServerRow.id)
    (same : app.rank a = app.rank b) : a = b := by
  have below : ∀ {id}, id ∈ app.tabIds → app.tabIds.idxOf id < 10000 := fun mem =>
    lt_of_lt_of_le (List.idxOf_lt_length_of_mem mem) few
  unfold rank at same
  by_cases tab_a : a ∈ app.tabIds <;> by_cases tab_b : b ∈ app.tabIds
  · rw [if_pos tab_a, if_pos tab_b] at same
    exact (List.idxOf_inj tab_a).mp same
  · rw [if_pos tab_a, if_neg tab_b] at same
    have := below tab_a
    omega
  · rw [if_neg tab_a, if_pos tab_b] at same
    have := below tab_b
    omega
  · rw [if_neg tab_a, if_neg tab_b] at same
    exact (List.idxOf_inj there).mp (Nat.add_left_cancel same)

/-- The rows with their ranks and places. -/
def ranked (app : ServerRail) : List (ServerRow × Nat × Nat) :=
  app.rows.zipIdx.map (fun entry =>
    (entry.1, (app.tabOrder entry.1.id).getD (10000 + entry.2), entry.2))

theorem ranked_rank (h : app.Distinct) :
    ∀ entry ∈ app.ranked, entry.2.1 = app.rank entry.1.id := by
  intro entry mem
  obtain ⟨⟨row, i⟩, placed, rfl⟩ := List.mem_map.mp mem
  have there := List.mem_zipIdx_iff_getElem?.mp placed
  obtain ⟨lt, eq⟩ := List.getElem?_eq_some_iff.mp
    (show (app.rows.map ServerRow.id)[i]? = some row.id by rw [List.getElem?_map, there]; rfl)
  have place : (app.rows.map ServerRow.id).idxOf row.id = i := by
    rw [← eq, (rows_nodup h).idxOf_getElem]
  dsimp only
  rw [rank, tabOrder_eq h.tabs, place]
  split <;> rfl

theorem ranked_rows (app : ServerRail) : app.ranked.map (fun entry => entry.1) = app.rows := by
  rw [ranked, List.map_map]
  exact List.zipIdx_map_fst 0 app.rows

theorem displayed_perm (app : ServerRail) : app.displayed.Perm app.rows := by
  have sorted := (List.mergeSort_perm app.ranked
    (fun a b => a.2.1 < b.2.1 ∨ a.2.1 = b.2.1 ∧ a.2.2 ≤ b.2.2)).map (fun entry => entry.1)
  rw [ranked_rows] at sorted
  exact sorted

/-- The order of the list: the sessions in the order of the inbox, whatever there is of each, then
the other servers and then the other starts. -/
def order (app : ServerRail) : List String :=
  app.tabIds ++ app.serverIds.filter (fun id => id ∉ app.tabIds) ++
    app.waiting.filter (fun id => id ∉ app.tabIds)

theorem order_perm (h : app.Distinct) : app.order.Perm (app.rows.map ServerRow.id) := by
  have nodup : app.order.Nodup := by
    refine List.Nodup.append (h.tabs.append (h.servers.filter _) ?_)
      ((h.pending.filter _).filter _) ?_
    · intro id tab other
      exact absurd tab (of_decide_eq_true (List.mem_filter.mp other).2)
    · intro id earlier start
      obtain ⟨start, other⟩ := List.mem_filter.mp start
      rcases List.mem_append.mp earlier with tab | server
      · exact absurd tab (of_decide_eq_true other)
      · have unlisted := of_decide_eq_true (List.mem_filter.mp start).2
        exact absurd (List.mem_of_mem_filter server) unlisted
  refine (List.perm_ext_iff_of_nodup nodup (rows_nodup h)).mpr (fun id => ?_)
  rw [mem_rows_ids, order, List.mem_append, List.mem_append, List.mem_filter, List.mem_filter,
    decide_eq_true_iff]
  tauto

/-- In a list without repetitions what is earlier has the smaller place. -/
theorem pairwise_idxOf {l : List String} (nodup : l.Nodup) :
    l.Pairwise (fun a b => l.idxOf a < l.idxOf b) := by
  rw [List.pairwise_iff_getElem]
  intro i j hi hj lt
  rw [nodup.idxOf_getElem, nodup.idxOf_getElem]
  exact lt

/-- Behind the sessions the ranks grow with the rows. -/
theorem pairwise_behind (h : app.Distinct) :
    (app.serverIds.filter (fun id => id ∉ app.tabIds) ++
      app.waiting.filter (fun id => id ∉ app.tabIds)).Pairwise
        (fun a b => app.rank a < app.rank b) := by
  have placed := pairwise_idxOf (rows_nodup h)
  have visible : (app.serverIds ++ app.waiting).Sublist (app.rows.map ServerRow.id) := by
    rw [rows_ids]
    exact List.sublist_append_left _ _
  rw [← List.filter_append]
  refine List.Pairwise.imp_of_mem ?_ ((placed.sublist visible).filter _)
  intro a b ha hb lt
  rw [rank, rank, if_neg (of_decide_eq_true (List.mem_filter.mp ha).2),
    if_neg (of_decide_eq_true (List.mem_filter.mp hb).2)]
  exact Nat.add_lt_add_left lt 10000

theorem pairwise_order (h : app.Distinct) (few : app.tabIds.length ≤ 10000) :
    app.order.Pairwise (fun a b => app.rank a < app.rank b) := by
  rw [order, List.append_assoc]
  refine List.pairwise_append.mpr ⟨?_, pairwise_behind h, ?_⟩
  · refine List.Pairwise.imp_of_mem ?_ (pairwise_idxOf h.tabs)
    intro a b ha hb lt
    rw [rank, rank, if_pos ha, if_pos hb]
    exact lt
  · intro a tab b behind
    have other : b ∉ app.tabIds := by
      rw [← List.filter_append] at behind
      exact of_decide_eq_true (List.mem_filter.mp behind).2
    have below := List.idxOf_lt_length_of_mem tab
    rw [rank, rank, if_pos tab, if_neg other]
    omega

/-- The list is in the order of the ranks. -/
theorem pairwise_displayed (h : app.Distinct) :
    (app.displayed.map ServerRow.id).Pairwise (fun a b => app.rank a ≤ app.rank b) := by
  have sorted : (app.ranked.mergeSort
      (fun a b => a.2.1 < b.2.1 ∨ a.2.1 = b.2.1 ∧ a.2.2 ≤ b.2.2)).Pairwise
        (fun a b => decide (a.2.1 < b.2.1 ∨ a.2.1 = b.2.1 ∧ a.2.2 ≤ b.2.2) = true) :=
    List.pairwise_mergeSort
      (by simp only [decide_eq_true_iff]; omega)
      (by simp only [Bool.or_eq_true, decide_eq_true_iff]; omega) _
  have ranks := ranked_rank h
  unfold displayed
  rw [List.map_map, List.pairwise_map]
  refine List.Pairwise.imp_of_mem ?_ sorted
  intro a b ha hb le
  have le := of_decide_eq_true le
  rw [ranks a (List.mem_mergeSort.mp ha), ranks b (List.mem_mergeSort.mp hb)] at le
  dsimp only [Function.comp]
  omega

/-- Every session, server and start has one row, and this is their order. -/
theorem displayed_ids (h : app.Distinct) (few : app.tabIds.length ≤ 10000) :
    app.displayed.map ServerRow.id = app.order := by
  refine List.Perm.eq_of_pairwise ?_ (pairwise_displayed h)
    ((pairwise_order h few).imp (fun lt => le_of_lt lt))
    (((displayed_perm app).map ServerRow.id).trans (order_perm h).symm)
  intro a b ha _ ab ba
  refine rank_injective few ?_ (Nat.le_antisymm ab ba)
  exact ((displayed_perm app).map ServerRow.id).mem_iff.mp ha

/-! What kind of row it is. -/

theorem mem_displayed {row : ServerRow} : row ∈ app.displayed ↔ row ∈ app.rows :=
  (displayed_perm app).mem_iff

theorem server_mem_displayed {s : MuxSession} :
    .server s ∈ app.displayed ↔ s ∈ app.servers := by
  rw [mem_displayed]
  simp [rows]

theorem pending_mem_displayed {p : PendingStart} :
    .pending p ∈ app.displayed ↔ p ∈ app.pending ∧ p.id ∉ app.serverIds := by
  rw [mem_displayed]
  simp [rows, serverIds]

theorem agentOnly_mem_displayed {label : String} :
    .agentOnly id label ∈ app.displayed ↔ (∃ tab ∈ app.rail.inbox.tabs, tab.sessionId = id ∧
        label = if tab.title.isEmpty then id else tab.title) ∧
      id ∉ app.serverIds ∧ id ∉ app.pendingIds := by
  have visible : ∀ id', id' ∉ app.serverIds ++
      (app.pending.filter (fun p => p.id ∉ app.serverIds)).map (fun p => p.id) ↔
        id' ∉ app.serverIds ∧ id' ∉ app.pendingIds := by
    intro id'
    by_cases server : id' ∈ app.serverIds
    · simp [server]
    · simp only [pendingIds, List.mem_append, server, false_or, List.mem_map, List.mem_filter,
        decide_eq_true_iff, not_false_eq_true, true_and]
      refine not_congr (exists_congr (fun p => and_congr_left ?_))
      rintro rfl
      exact and_iff_left server
  have alone : ∀ tab : RenderedTab, tab ∈ app.rail.inbox.tabs.filter (fun tab => tab.sessionId ∉
      app.serverIds ++ (app.pending.filter (fun p => p.id ∉ app.serverIds)).map (fun p => p.id)) ↔
        tab ∈ app.rail.inbox.tabs ∧ tab.sessionId ∉ app.serverIds ∧
          tab.sessionId ∉ app.pendingIds := by
    intro tab
    rw [List.mem_filter, decide_eq_true_iff, visible]
  rw [mem_displayed]
  unfold rows
  dsimp only
  rw [List.mem_append, List.mem_append]
  constructor
  · rintro ((server | start) | single)
    · obtain ⟨_, -, eq⟩ := List.mem_map.mp server
      cases eq
    · obtain ⟨_, -, eq⟩ := List.mem_map.mp start
      cases eq
    · obtain ⟨tab, mem, eq⟩ := List.mem_map.mp single
      obtain ⟨there, hidden⟩ := (alone tab).mp mem
      cases eq
      exact ⟨⟨tab, there, rfl, rfl⟩, hidden⟩
  · rintro ⟨⟨tab, there, rfl, rfl⟩, hidden⟩
    exact .inr (List.mem_map.mpr ⟨tab, (alone tab).mpr ⟨there, hidden⟩, rfl⟩)

end ServerRail

end VsFleet
