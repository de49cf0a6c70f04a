import VsFleet.Host.Proofs.ServerList
import VsFleet.Misc.Runs

/-!
# The rail catches up

The list of the rail is asked for again at every change, and the answers come in any order. Only the
newest call is listened to: what it has found is what the host has, or there is a change behind it
that the webview is told of. So once nothing is under way the rail has the servers of the host.
-/

namespace VsFleet

/-- The servers a call has found so far. -/
def RefreshCall.found : RefreshCall → Option (List MuxSession)
  | listing | failed => none
  | listed servers | selecting servers | selectedIs servers _ | done servers => some servers

theorem getLast?_set {α : Type} (l : List α) (n : Nat) (a : α) :
    (l.set n a).getLast? = if n + 1 = l.length then some a else l.getLast? := by
  rw [List.getLast?_eq_getElem?, List.getLast?_eq_getElem?, List.length_set, List.getElem?_set]
  by_cases last : n + 1 = l.length
  · rw [if_pos last, if_pos (by omega), if_pos (by omega)]
  · rw [if_neg last]
    split
    · rw [if_neg (by omega), List.getElem?_eq_none (by omega)]
    · rfl

/-- The newest call, found by its place. -/
theorem getLast?_of_newest {α : Type} {l : List α} {n : Nat} {a : α} (there : l[n]? = some a)
    (newest : n + 1 = l.length) : l.getLast? = some a := by
  rw [List.getLast?_eq_getElem?, ← there, ← newest]
  rfl

/-! ## What a step leaves as it is -/

namespace ServerRail

variable {app : ServerRail}

theorem activateServer_eq (app : ServerRail) (id : String) (acknowledge : Bool) :
    ∃ select, app.activateServer id acknowledge = { app with select } := by
  unfold activateServer
  split
  · exact ⟨app.select, rfl⟩
  · split
    · exact ⟨_, rfl⟩
    · exact ⟨_, rfl⟩

theorem applied_eq (app : ServerRail) (nextServers : List MuxSession)
    (backendSelected : Option String) :
    ∃ select, app.applied nextServers backendSelected = { app with
      servers := nextServers
      pending := app.pending.filter (fun p => !nextServers.any (fun s => s.id = p.id))
      select } := by
  unfold applied
  dsimp only
  split
  · exact ⟨_, rfl⟩
  · exact ⟨_, rfl⟩
  · split
    · exact ⟨_, rfl⟩
    · exact ⟨_, rfl⟩

/-- The newest call puts its servers in the place of those shown, and no other does anything. -/
theorem receive_eq (app : ServerRail) (n : Nat) (nextServers : List MuxSession)
    (backendSelected : Option String) (call : RefreshCall) :
    ∃ select, app.receive n nextServers backendSelected call =
      if n + 1 = app.refreshGeneration then
        { app with
          refreshes := app.refreshes.set n call
          servers := nextServers
          pending := app.pending.filter (fun p => !nextServers.any (fun s => s.id = p.id))
          select }
      else { app with refreshes := app.refreshes.set n call } := by
  unfold receive
  dsimp only
  split
  · exact applied_eq _ _ _
  · exact ⟨app.select, rfl⟩

end ServerRail

namespace ServerSystem

variable {s : ServerSystem}

/-! ## What the newest call has found -/

/-- The webview will be told of a change. -/
def Owed (s : ServerSystem) : Prop := s.host.unemitted = true ∨ s.host.events ≠ 0

/-- A server was closed since the newest refresh began. -/
def ClosedSince (s : ServerSystem) (id : String) : Prop :=
  ∃ call ∈ s.app.closes, call.generation = s.app.refreshGeneration ∧ call.id = id

/-- What the newest call has found is what the host has, or the webview will be told of a change;
and what is shown is what it has found, but for what was closed since it began. -/
structure Current (s : ServerSystem) : Prop where
  fresh : ∀ call l, s.app.refreshes.getLast? = some call → call.found = some l →
    l = s.host.servers ∨ s.Owed
  shown : ∀ l, s.app.refreshes.getLast? = some (.done l) → ∃ keep : MuxSession → Bool,
    s.app.servers = l.filter keep ∧ ∀ m, keep m = false → s.ClosedSince m.id

/-- A call that has just begun has found nothing. -/
theorem current_refreshServers (host : RailHost) (app : ServerRail) :
    Current ⟨host, app.refreshServers⟩ := by
  have newest : app.refreshServers.refreshes.getLast? = some .listing := by
    simp [ServerRail.refreshServers]
  constructor
  · intro call l last found
    rw [newest] at last
    cases last
    cases found
  · intro l last
    rw [newest] at last
    cases last

/-- The selection, the starts and the inbox play no part. -/
theorem Current.congr {s' : ServerSystem} (h : s.Current) (host : s'.host = s.host)
    (refreshes : s'.app.refreshes = s.app.refreshes) (servers : s'.app.servers = s.app.servers)
    (closes : s'.app.closes = s.app.closes) : s'.Current := by
  have owed : s'.Owed ↔ s.Owed := by rw [Owed, Owed, host]
  have since : ∀ id, s'.ClosedSince id ↔ s.ClosedSince id := by
    intro id
    rw [ClosedSince, ClosedSince, ServerRail.refreshGeneration, ServerRail.refreshGeneration,
      refreshes, closes]
  constructor
  · rw [refreshes, host, owed]
    exact h.fresh
  · simp only [refreshes, servers, since]
    exact h.shown

theorem Current.change (h : s.Current) (spawned registered : List MuxSession) :
    (s.step (.change spawned registered)).Current := by
  refine ⟨fun call l last found => ?_, h.shown⟩
  rcases h.fresh call l last found with same | owed | events
  · by_cases changed : (s.step (.change spawned registered)).host.servers = s.host.servers
    · exact .inl (same.trans changed.symm)
    · refine .inr (.inl ?_)
      have differs : decide ((s.step (.change spawned registered)).host.servers ≠
          s.host.servers) = true := decide_eq_true changed
      exact (Bool.or_eq_true _ _).mpr (.inr differs)
  · exact .inr (.inl ((Bool.or_eq_true _ _).mpr (.inl owed)))
  · exact .inr (.inr events)

/-- What an older call comes to does not matter. -/
theorem Current.older (h : s.Current) {n : Nat} (older : n + 1 ≠ s.app.refreshGeneration)
    (call : RefreshCall) :
    Current { s with app := { s.app with refreshes := s.app.refreshes.set n call } } := by
  have newest : (s.app.refreshes.set n call).getLast? = s.app.refreshes.getLast? :=
    (getLast?_set _ n call).trans (if_neg older)
  have generation : (s.app.refreshes.set n call).length = s.app.refreshGeneration :=
    List.length_set
  constructor
  · intro call' l last
    exact h.fresh call' l (newest ▸ last)
  · intro l last
    obtain ⟨keep, kept, since⟩ := h.shown l (newest ▸ last)
    refine ⟨keep, kept, fun m gone => ?_⟩
    obtain ⟨c, mem, began, id⟩ := since m gone
    exact ⟨c, mem, began.trans generation.symm, id⟩

/-- The newest call goes on, with what the host has or what it has found before. -/
theorem Current.goes_on (h : s.Current) (n : Nat) (call : RefreshCall)
    (fresh : n + 1 = s.app.refreshGeneration → ∀ l, call.found = some l →
      l = s.host.servers ∨ s.Owed)
    (under_way : ∀ l, call ≠ .done l) :
    Current { s with app := { s.app with refreshes := s.app.refreshes.set n call } } := by
  by_cases newest : n + 1 = s.app.refreshGeneration
  · have last : (s.app.refreshes.set n call).getLast? = some call :=
      (getLast?_set _ n call).trans (if_pos newest)
    constructor
    · intro call' l last'
      cases last.symm.trans last'
      exact fresh newest l
    · intro l last'
      exact absurd (Option.some.inj (last.symm.trans last')) (under_way l)
  · exact h.older newest call

theorem Current.evaluate (h : s.Current) (n : Nat) : (s.evaluate n).Current := by
  unfold ServerSystem.evaluate
  split
  · refine h.goes_on n _ (fun _ l found => ?_) (by simp)
    cases found
    exact .inl rfl
  · rename_i servers there
    refine h.goes_on n _ (fun newest l found => ?_) (by simp)
    exact h.fresh _ l (getLast?_of_newest there newest) found
  · exact h

/-- A call has ended: what the newest one has found is what is shown. -/
theorem Current.ended (h : s.Current) {n : Nat} {l : List MuxSession} {sel : Option String}
    {call : RefreshCall} (ended : call = .done l ∨ call = .failed)
    (fresh : n + 1 = s.app.refreshGeneration → call = .done l → l = s.host.servers ∨ s.Owed) :
    Current { s with app := s.app.receive n l sel call } := by
  obtain ⟨select, eq⟩ := s.app.receive_eq n l sel call
  rw [eq]
  by_cases newest : n + 1 = s.app.refreshGeneration
  · rw [if_pos newest]
    have last : (s.app.refreshes.set n call).getLast? = some call :=
      (getLast?_set _ n call).trans (if_pos newest)
    constructor
    · intro call' l' last' found
      cases last.symm.trans last'
      rcases ended with rfl | rfl
      · cases found
        exact fresh newest rfl
      · cases found
    · intro l' last'
      cases last.symm.trans last'
      rcases ended with same | none_found
      · cases same
        refine ⟨fun _ => true, (List.filter_eq_self.mpr (fun _ _ => rfl)).symm, ?_⟩
        exact fun _ gone => Bool.noConfusion gone
      · cases none_found
  · rw [if_neg newest]
    exact h.older newest call

theorem Current.deliver (h : s.Current) (n : Nat) : (s.deliver n).Current := by
  unfold ServerSystem.deliver
  split
  · rename_i servers there
    refine h.goes_on n _ (fun newest l found => ?_) (by simp)
    exact h.fresh _ l (getLast?_of_newest there newest) found
  · rename_i servers sel there
    refine h.ended (.inl rfl) (fun newest _ => ?_)
    exact h.fresh _ servers (getLast?_of_newest there newest) rfl
  · exact h

theorem Current.reject (h : s.Current) (n : Nat) : (s.reject n).Current := by
  unfold ServerSystem.reject
  split
  · exact h
  · exact h
  · exact h
  · exact h.ended (.inr rfl) (fun _ found => by cases found)

/-- What is closed is no longer shown, whatever the newest call has found. -/
theorem Current.closeServer (h : s.Current) (id : String) :
    Current { s with app := s.app.closeServer id } := by
  unfold ServerRail.closeServer
  split
  · exact h
  · refine ⟨h.fresh, fun l last => ?_⟩
    obtain ⟨keep, kept, since⟩ := h.shown l last
    refine ⟨fun m => decide (m.id ≠ id) && keep m, ?_, fun m gone => ?_⟩
    · rw [← List.filter_filter, ← kept]
      rfl
    · rcases Bool.and_eq_false_iff.mp gone with closed | gone
      · have same : m.id = id := not_not.mp (of_decide_eq_false closed)
        exact ⟨_, List.mem_append_right _ (List.mem_singleton_self _), rfl, same.symm⟩
      · obtain ⟨c, mem, began, named⟩ := since m gone
        exact ⟨c, List.mem_append_left _ mem, began, named⟩

theorem Current.closeRejected (h : s.Current) (n : Nat) : (s.closeRejected n).Current := by
  unfold ServerSystem.closeRejected
  split
  · rename_i call there
    split
    · refine ⟨h.fresh, fun l last => ?_⟩
      obtain ⟨keep, kept, since⟩ := h.shown l last
      refine ⟨keep, kept, fun m gone => ?_⟩
      obtain ⟨c, mem, began, named⟩ := since m gone
      obtain ⟨k, placed⟩ := List.getElem?_of_mem mem
      by_cases same : n = k
      · -- the call that failed is the one the server was closed by
        subst same
        cases there.symm.trans placed
        exact ⟨_, List.mem_set (List.getElem?_eq_some_iff.mp there).1 _, began, named⟩
      · refine ⟨c, List.mem_of_getElem? (i := k) ?_, began, named⟩
        exact (List.getElem?_set_ne same).trans placed
    · exact h
  · exact h

/-- Every step keeps the newest call to what the host has. -/
theorem Current.step (h : s.Current) (step : ServerSystemStep) : (s.step step).Current := by
  cases step with
  | change spawned registered => exact h.change spawned registered
  | select selected => exact ⟨h.fresh, h.shown⟩
  | emit => exact ⟨fun _ _ _ _ => .inr (.inr (Nat.succ_ne_zero _)), h.shown⟩
  | serversChanged =>
    unfold ServerSystem.step
    dsimp only
    split
    · exact h
    · exact current_refreshServers _ _
  | refresh => exact current_refreshServers _ _
  | evaluate n => exact h.evaluate n
  | deliver n => exact h.deliver n
  | reject n => exact h.reject n
  | inbox inbox => exact h.congr rfl rfl rfl rfl
  | spawned id now => exact h.congr rfl rfl rfl rfl
  | closeServer id => exact h.closeServer id
  | closed n =>
    change (s.closed n).Current
    unfold ServerSystem.closed
    split
    · split
      · exact current_refreshServers _ _
      · exact h
    · exact h
  | closeRejected n => exact h.closeRejected n
  | closeSettled n =>
    change (s.closeSettled n).Current
    unfold ServerSystem.closeSettled
    split
    · split
      · exact h
      · exact h.congr rfl rfl rfl rfl
    · exact h
  | retryServer id => exact h.congr rfl rfl rfl rfl
  | retried id => exact current_refreshServers _ _
  | retryEnded id => exact h.congr rfl rfl rfl rfl
  | renamed id saved => exact current_refreshServers _ _
  | activate id acknowledge =>
    obtain ⟨select, eq⟩ := s.app.activateServer_eq id acknowledge
    change Current { s with app := s.app.activateServer id acknowledge }
    rw [eq]
    exact h.congr rfl rfl rfl rfl
  | answer step => exact h.congr rfl rfl rfl rfl
  | syncSelection selected => exact h.congr rfl rfl rfl rfl

theorem current_run (spawned registered : List MuxSession) (steps : List ServerSystemStep) :
    (run spawned registered steps).Current := by
  refine foldl_invariant Current (fun s step h => h.step step) steps _ ⟨?_, ?_⟩
  · intro call l last
    cases last
  · intro l last
    cases last

/-- Once nothing is under way the rail has the servers of the host, whatever the calls overlapped
and in whatever order they were answered. -/
theorem rail_catches_up (spawned registered : List MuxSession) (steps : List ServerSystemStep)
    (quiet : (run spawned registered steps).Quiet) :
    let s := run spawned registered steps
    s.app.servers = s.host.servers ∧
      (s.app.servers.map (fun m => m.id)).Pairwise (fun a b => a < b) ∧
      ∀ m, .server m ∈ s.app.displayed ↔
        (s.host.spawned ++ s.host.registered).find? (fun t => t.id = m.id) = some m := by
  intro s
  obtain ⟨told, arrived, ⟨l, last⟩, refreshed⟩ := quiet
  have current : s.Current := current_run spawned registered steps
  have none_closed : ∀ id, ¬ s.ClosedSince id := by
    rintro id ⟨call, mem, began, -⟩
    exact absurd began (ne_of_lt (refreshed call mem))
  obtain ⟨keep, kept, since⟩ := current.shown l last
  have all_kept : s.app.servers = l := by
    rw [kept, List.filter_eq_self]
    intro m _
    by_contra gone
    exact none_closed m.id (since m (Bool.eq_false_iff.mpr gone))
  have same : l = s.host.servers := by
    rcases current.fresh _ l last rfl with same | owed | events
    · exact same
    · rw [told] at owed
      cases owed
    · exact absurd arrived events
  have caught_up : s.app.servers = s.host.servers := all_kept.trans same
  refine ⟨caught_up, caught_up ▸ pairwise_mergedServers _ _, fun m => ?_⟩
  rw [ServerRail.server_mem_displayed, caught_up]
  exact mem_mergedServers

/-- A server that is spawned between the two refreshes of `answeredLate`. -/
def spawnedBetween : MuxSession := ⟨"a", "a", "u", true, false⟩

/-- The first refresh is answered last, with what was there before the server. -/
def answeredLate : List ServerSystemStep :=
  [.refresh, .evaluate 0, .change [spawnedBetween] [], .emit, .serversChanged, .evaluate 1,
    .deliver 1, .evaluate 1, .deliver 1, .deliver 0, .evaluate 0, .deliver 0]

theorem rail_catches_up_answeredLate :
    .server spawnedBetween ∈ (run [] [] answeredLate).app.displayed :=
  ((rail_catches_up [] [] answeredLate ⟨by decide +kernel, by decide +kernel,
    ⟨[spawnedBetween], by decide +kernel⟩, by decide +kernel⟩).2.2 spawnedBetween).mpr
      (by decide +kernel)

/-! ## One row for each -/

/-- What the host pushes: no session is there twice, and they are not too many. -/
def Pushes : ServerSystemStep → Prop
  | .inbox inbox => (inbox.tabs.map (fun tab => tab.sessionId)).Nodup ∧ inbox.tabs.length ≤ 10000
  | _ => True

/-- No id is there twice in what is listed and in what the calls have found. -/
structure Sound (s : ServerSystem) : Prop where
  distinct : s.app.Distinct
  few : s.app.tabIds.length ≤ 10000
  carried : ∀ call ∈ s.app.refreshes, ∀ l, call.found = some l → (l.map (fun m => m.id)).Nodup

/-- The ids stay or some of them go. -/
theorem Sound.sublist {s' : ServerSystem} (h : s.Sound)
    (servers : s'.app.serverIds.Sublist s.app.serverIds)
    (pending : s'.app.pendingIds.Sublist s.app.pendingIds)
    (tabs : s'.app.tabIds.Sublist s.app.tabIds)
    (refreshes : s'.app.refreshes = s.app.refreshes) : s'.Sound :=
  ⟨⟨h.distinct.servers.sublist servers, h.distinct.pending.sublist pending,
    h.distinct.tabs.sublist tabs⟩, tabs.length_le.trans h.few, refreshes ▸ h.carried⟩

theorem Sound.refreshServers (h : s.Sound) (host : RailHost) :
    Sound ⟨host, s.app.refreshServers⟩ := by
  refine ⟨⟨h.distinct.servers, h.distinct.pending, h.distinct.tabs⟩, h.few,
    fun call mem l found => ?_⟩
  rcases List.mem_append.mp mem with old | new
  · exact h.carried call old l found
  · cases List.mem_singleton.mp new
    cases found

theorem Sound.set (h : s.Sound) (n : Nat) (call : RefreshCall)
    (nodup : ∀ l, call.found = some l → (l.map (fun m => m.id)).Nodup) :
    Sound { s with app := { s.app with refreshes := s.app.refreshes.set n call } } := by
  refine ⟨⟨h.distinct.servers, h.distinct.pending, h.distinct.tabs⟩, h.few,
    fun call' mem l found => ?_⟩
  rcases List.mem_or_eq_of_mem_set mem with old | rfl
  · exact h.carried call' old l found
  · exact nodup l found

/-- What a call has found at its place has no id twice. -/
theorem Sound.found (h : s.Sound) {n : Nat} {call : RefreshCall}
    (there : s.app.refreshes[n]? = some call) {l : List MuxSession} (found : call.found = some l) :
    (l.map (fun m => m.id)).Nodup :=
  h.carried call (List.mem_of_getElem? there) l found

theorem Sound.receive (h : s.Sound) (n : Nat) {l : List MuxSession} (sel : Option String)
    {call : RefreshCall} (nodup : (l.map (fun m => m.id)).Nodup)
    (carried : ∀ l', call.found = some l' → l' = l) :
    Sound { s with app := s.app.receive n l sel call } := by
  obtain ⟨select, eq⟩ := s.app.receive_eq n l sel call
  have sound := h.set n call (fun l' found => carried l' found ▸ nodup)
  rw [eq]
  split
  · refine ⟨⟨nodup, ?_, h.distinct.tabs⟩, h.few, sound.carried⟩
    exact h.distinct.pending.sublist (List.filter_sublist.map _)
  · exact sound

theorem removeInboxSession_ids (rail : Rail) (id : String) :
    ((rail.removeInboxSession id).inbox.tabs.map (fun tab => tab.sessionId)).Sublist
      (rail.inbox.tabs.map (fun tab => tab.sessionId)) := by
  have kept : (rail.removeInboxSession id).inbox.tabs.map (fun tab => tab.sessionId) =
      (rail.inbox.tabs.filter (fun tab => tab.sessionId ≠ id)).map (fun tab => tab.sessionId) := by
    simp only [Rail.removeInboxSession, Rail.replaceInboxTabs, Rail.setInbox, deriveInboxTabs,
      List.map_map]
    rfl
  rw [kept]
  exact List.filter_sublist.map _

theorem Sound.closeServer (h : s.Sound) (id : String) :
    Sound { s with app := s.app.closeServer id } := by
  unfold ServerRail.closeServer
  split
  · exact h
  · exact h.sublist (List.filter_sublist.map _) (List.filter_sublist.map _)
      (removeInboxSession_ids s.app.rail id) rfl

/-- A start takes the place of the one that had its id. -/
theorem Sound.spawned (h : s.Sound) (id : String) (now : Nat) :
    Sound { s with app := s.app.spawned id now } := by
  refine ⟨⟨h.distinct.servers, ?_, h.distinct.tabs⟩, h.few, h.carried⟩
  rw [ServerRail.pendingIds, ServerRail.spawned, List.map_append]
  refine (h.distinct.pending.sublist (List.filter_sublist.map _)).append
    (List.nodup_singleton id) ?_
  intro id' old new
  obtain ⟨p, mem, rfl⟩ := List.mem_map.mp old
  exact of_decide_eq_true (List.mem_filter.mp mem).2 (List.mem_singleton.mp new)

/-- A rename leaves the ids. -/
theorem Sound.applyLocalServerLabel (h : s.Sound) (id label : String) :
    Sound { s with app := s.app.applyLocalServerLabel id label } := by
  have servers : (s.app.applyLocalServerLabel id label).serverIds = s.app.serverIds := by
    rw [ServerRail.serverIds, ServerRail.applyLocalServerLabel, List.map_map]
    refine List.map_congr_left (fun srv _ => ?_)
    dsimp only [Function.comp_apply]
    split <;> rfl
  have pending : (s.app.applyLocalServerLabel id label).pendingIds = s.app.pendingIds := by
    rw [ServerRail.pendingIds, ServerRail.applyLocalServerLabel, List.map_map]
    refine List.map_congr_left (fun srv _ => ?_)
    dsimp only [Function.comp_apply]
    split <;> rfl
  refine h.sublist ?_ ?_ (List.Sublist.refl _) rfl
  · rw [servers]
  · rw [pending]

theorem Sound.evaluate (h : s.Sound) (n : Nat) : (s.evaluate n).Sound := by
  unfold ServerSystem.evaluate
  split
  · refine h.set n _ (fun l found => ?_)
    cases found
    exact nodup_mergedServers _ _
  · rename_i servers there
    exact h.set n _ (fun l found => h.found there found)
  · exact h

theorem Sound.deliver (h : s.Sound) (n : Nat) : (s.deliver n).Sound := by
  unfold ServerSystem.deliver
  split
  · rename_i servers there
    exact h.set n _ (fun l found => h.found there found)
  · rename_i servers sel there
    exact h.receive n sel (h.found there rfl) (fun l' found => (Option.some.inj found).symm)
  · exact h

theorem Sound.reject (h : s.Sound) (n : Nat) : (s.reject n).Sound := by
  unfold ServerSystem.reject
  split
  · exact h
  · exact h
  · exact h
  · exact h.receive n none List.nodup_nil (fun l' found => by cases found)

/-- The selection, the closings and the host play no part. -/
theorem Sound.congr {s' : ServerSystem} (h : s.Sound) (servers : s'.app.servers = s.app.servers)
    (pending : s'.app.pending = s.app.pending) (rail : s'.app.rail = s.app.rail)
    (refreshes : s'.app.refreshes = s.app.refreshes) : s'.Sound := by
  refine h.sublist ?_ ?_ ?_ refreshes
  · rw [ServerRail.serverIds, servers]
    exact List.Sublist.refl _
  · rw [ServerRail.pendingIds, pending]
    exact List.Sublist.refl _
  · rw [ServerRail.tabIds, rail]
    exact List.Sublist.refl _

theorem Sound.step (h : s.Sound) {step : ServerSystemStep} (pushes : Pushes step) :
    (s.step step).Sound := by
  cases step with
  | change spawned registered => exact h.congr rfl rfl rfl rfl
  | select selected => exact h.congr rfl rfl rfl rfl
  | emit => exact h.congr rfl rfl rfl rfl
  | serversChanged =>
    unfold ServerSystem.step
    dsimp only
    split
    · exact h
    · exact h.refreshServers _
  | refresh => exact h.refreshServers _
  | evaluate n => exact h.evaluate n
  | deliver n => exact h.deliver n
  | reject n => exact h.reject n
  | inbox inbox =>
    refine ⟨⟨h.distinct.servers, h.distinct.pending, pushes.1⟩, ?_, h.carried⟩
    exact (List.length_map _).trans_le pushes.2
  | spawned id now => exact h.spawned id now
  | closeServer id => exact h.closeServer id
  | closed n =>
    change (s.closed n).Sound
    unfold ServerSystem.closed
    split
    · rename_i call there
      split
      · have answered : Sound { s with app := { s.app with
            closes := s.app.closes.set n { call with awaiting := false } } } :=
          h.congr rfl rfl rfl rfl
        exact answered.refreshServers _
      · exact h
    · exact h
  | closeRejected n =>
    change (s.closeRejected n).Sound
    unfold ServerSystem.closeRejected
    split
    · split
      · exact h.congr rfl rfl rfl rfl
      · exact h
    · exact h
  | closeSettled n =>
    change (s.closeSettled n).Sound
    unfold ServerSystem.closeSettled
    split
    · split
      · exact h
      · exact h.congr rfl rfl rfl rfl
    · exact h
  | retryServer id =>
    exact h.sublist (List.Sublist.refl _) (List.filter_sublist.map _) (List.Sublist.refl _) rfl
  | retried id =>
    have cleared : Sound { s with app := { s.app.clearLocalSelection id with
        closing := s.app.closing.filter (fun c => c ≠ id) } } := h.congr rfl rfl rfl rfl
    exact cleared.refreshServers _
  | retryEnded id => exact h.congr rfl rfl rfl rfl
  | renamed id saved => exact (h.applyLocalServerLabel id saved).refreshServers _
  | activate id acknowledge =>
    obtain ⟨select, eq⟩ := s.app.activateServer_eq id acknowledge
    change Sound { s with app := s.app.activateServer id acknowledge }
    rw [eq]
    exact h.congr rfl rfl rfl rfl
  | answer step => exact h.congr rfl rfl rfl rfl
  | syncSelection selected => exact h.congr rfl rfl rfl rfl

theorem sound_run (steps : List ServerSystemStep) (pushes : ∀ step ∈ steps, Pushes step) :
    ∀ {s : ServerSystem}, s.Sound → (steps.foldl step s).Sound := by
  induction steps with
  | nil => exact fun h => h
  | cons step steps ih =>
    intro s h
    refine ih (fun step' mem => pushes step' (List.mem_cons_of_mem _ mem)) ?_
    exact h.step (pushes step List.mem_cons_self)

/-- In every state each session, server and start has one row: the sessions come first and in the
order of the inbox, whatever else there is of them, then the other servers and the other starts. -/
theorem rows_once (spawned registered : List MuxSession) (steps : List ServerSystemStep)
    (pushes : ∀ step ∈ steps, Pushes step) :
    let app := (run spawned registered steps).app
    let tabs := app.rail.inbox.tabs.map (fun tab => tab.sessionId)
    let servers := app.servers.map (fun m => m.id)
    let starts := app.pending.map (fun p => p.id)
    app.displayed.map ServerRow.id = tabs ++ servers.filter (fun id => id ∉ tabs) ++
        (starts.filter (fun id => id ∉ servers)).filter (fun id => id ∉ tabs) ∧
      (app.displayed.map ServerRow.id).Nodup ∧
      (∀ m, .server m ∈ app.displayed ↔ m ∈ app.servers) ∧
      (∀ p, .pending p ∈ app.displayed ↔ p ∈ app.pending ∧ p.id ∉ servers) ∧
      ∀ id label, .agentOnly id label ∈ app.displayed ↔
        (∃ tab ∈ app.rail.inbox.tabs, tab.sessionId = id ∧
          label = if tab.title.isEmpty then id else tab.title) ∧ id ∉ servers ∧ id ∉ starts := by
  intro app tabs servers starts
  have sound : (run spawned registered steps).Sound :=
    sound_run steps pushes ⟨⟨.nil, .nil, .nil⟩, Nat.zero_le _, fun _ mem => by cases mem⟩
  have ordered := ServerRail.displayed_ids sound.distinct sound.few
  refine ⟨ordered, ?_, fun m => ServerRail.server_mem_displayed,
    fun p => ServerRail.pending_mem_displayed, fun id label => ServerRail.agentOnly_mem_displayed⟩
  exact ((ServerRail.displayed_perm app).map ServerRow.id).nodup_iff.mpr
    (ServerRail.rows_nodup sound.distinct)

/-- A tab of a session, idle. -/
def idleTab (sessionId : String) : RenderedTab :=
  ⟨sessionId, .laptop, "claude", "", "idle", "", false, false, false, none, none, none, false,
    false, false, 0, none⟩

/-- Two sessions, of which the second has its server. -/
def withSessions : List ServerSystemStep :=
  answeredLate ++ [.inbox ⟨[idleTab "b", idleTab "a"], 0, 0, true⟩]

/-- The server has its row where its session is. -/
theorem rows_once_withSessions :
    (run [] [] withSessions).app.displayed.map ServerRow.id = ["b", "a"] := by
  have pushes : ∀ step ∈ withSessions, Pushes step := by
    simp [withSessions, answeredLate, Pushes, idleTab]
  rw [(rows_once [] [] _ pushes).1]
  decide +kernel

end ServerSystem

end VsFleet
