import VsFleet.Hub.Merge

/-!
# The fleet as one list of sessions

What the merge engine is for, without the hash map and the order vector: a list of sessions with
distinct ids, each with the rollups of its own runs. An operation either puts one session,
drops one, or edits sessions in place; after each the unread flag of a session follows the change
of whether it should notify, and is otherwise left alone. `Hub/Proofs/MergeRefines.lean` shows
that the engine is this model.
-/

namespace VsFleet

/-- The stored rollups are those of the runs. -/
def Session.RolledUp (session : Session) : Prop := session.recomputeRollups = session

/-- The unread flag follows a change of the notify value and is otherwise kept. -/
def Session.settle (session : Session) (oldNotify newNotify : Bool) : Session :=
  { session with unread := if oldNotify = newNotify then session.unread else newNotify }

section Session
variable (s : Session) (old new : Bool)

/-- The session after `update_unread_for_notify_transition` is the settled one. -/
@[simp] theorem Session.updateUnread_fst :
    (s.updateUnreadForNotifyTransition old new).1 = s.settle old new := by
  obtain ⟨_, _, _, _, _, _, _, _, _, _, _, unread, _, _, _, _⟩ := s
  cases old <;> cases new <;> cases unread <;> rfl

/-- A transition that is not told of has changed nothing. -/
theorem Session.updateUnread_snd (h : (s.updateUnreadForNotifyTransition old new).2 = false) :
    s.settle old new = s := by
  obtain ⟨_, _, _, _, _, _, _, _, _, _, _, unread, _, _, _, _⟩ := s
  cases old <;> cases new <;> cases unread <;> first | rfl | cases h

/-- The unread mark stays without an edge, and takes the new value at one. -/
@[simp] theorem Session.settle_sessionId : (s.settle old new).sessionId = s.sessionId := rfl
@[simp] theorem Session.settle_runs : (s.settle old new).runs = s.runs := rfl
@[simp] theorem Session.settle_soloed : (s.settle old new).soloed = s.soloed := rfl
@[simp] theorem Session.settle_unread :
    (s.settle old new).unread = if old = new then s.unread else new := rfl

/-- Without an edge a session stays as it is. -/
@[simp] theorem Session.settle_self : s.settle old old = s := by simp [Session.settle]

@[simp] theorem Session.recomputeRollups_sessionId :
    s.recomputeRollups.sessionId = s.sessionId := rfl
@[simp] theorem Session.recomputeRollups_runs : s.recomputeRollups.runs = s.runs := rfl
@[simp] theorem Session.recomputeRollups_muted : s.recomputeRollups.muted = s.muted := rfl
@[simp] theorem Session.recomputeRollups_soloed : s.recomputeRollups.soloed = s.soloed := rfl
@[simp] theorem Session.recomputeRollups_unread : s.recomputeRollups.unread = s.unread := rfl

/-- The rollups are right once they are computed. -/
theorem Session.rolledUp_recomputeRollups : s.recomputeRollups.RolledUp := rfl

/-- The unread mark plays no part in the rollups. -/
theorem Session.RolledUp.settle {s : Session} (h : s.RolledUp) : (s.settle old new).RolledUp := by
  unfold Session.RolledUp at h ⊢
  conv_rhs => rw [← h]
  rfl

end Session

/-- What a right rollup says of the state. -/
theorem Session.RolledUp.state {s : Session} (h : s.RolledUp) :
    s.rollupState = (VsFleet.rollupState s.runs).getD .idle :=
  (congrArg (fun s => s.rollupState) h).symm

/-- What it says of the urgency. -/
theorem Session.RolledUp.urgency {s : Session} (h : s.RolledUp) :
    s.rollupUrgency = normalizeRollupUrgency s.runs :=
  (congrArg (fun s => s.rollupUrgency) h).symm

/-- An edit of a session that keeps its id and its rollups right. -/
structure Edit where
  act : Session → Session
  sessionId : ∀ s, (act s).sessionId = s.sessionId
  rolledUp : ∀ s, s.RolledUp → (act s).RolledUp

instance : CoeFun Edit (fun _ => Session → Session) := ⟨Edit.act⟩

/-- An edit leaves the id. -/
@[simp] theorem Edit.sessionId_act (g : Edit) (s : Session) : (g s).sessionId = s.sessionId :=
  g.sessionId s

/-- The edit that changes nothing. -/
def Edit.keep : Edit := ⟨fun s => s, fun _ => rfl, fun _ h => h⟩

@[simp] theorem Edit.keep_act (s : Session) : Edit.keep s = s := rfl

/-- An edit of the one session of the given id. -/
def Edit.only (id : String) (g : Edit) : Edit where
  act s := if s.sessionId = id then g s else s
  sessionId s := by split <;> simp
  rolledUp s h := by
    split
    · exact g.rolledUp s h
    · exact h

/-- The runs are replaced and the rollups computed again. -/
def Edit.setRuns (f : List AgentRun → List AgentRun) : Edit where
  act s := { s with runs := f s.runs }.recomputeRollups
  sessionId _ := rfl
  rolledUp _ _ := Session.rolledUp_recomputeRollups _

/-- The three flags of the Hub play no part in the rollups. -/
theorem Session.RolledUp.withFlags {s : Session} (h : s.RolledUp) (muted soloed unread : Bool) :
    { s with muted := muted, soloed := soloed, unread := unread }.RolledUp := by
  unfold Session.RolledUp at h ⊢
  conv_rhs => rw [← h]
  rfl

/-- The three flags the Hub owns are set from the session. -/
def Edit.setFlags (muted soloed unread : Session → Bool) : Edit where
  act s := { s with muted := muted s, soloed := soloed s, unread := unread s }
  sessionId _ := rfl
  rolledUp _ h := h.withFlags _ _ _

/-- A mute sets the mute mark and takes the solo mark. -/
def Edit.mute : Edit := .setFlags (fun _ => true) (fun _ => false) (·.unread)

/-- An unmute takes both marks. -/
def Edit.unmute : Edit := .setFlags (fun _ => false) (fun _ => false) (·.unread)

/-- A focus takes the unread mark and leaves the others. -/
def Edit.read : Edit := .setFlags (·.muted) (·.soloed) (fun _ => false)

/-- A solo marks one session, unmutes it and takes the mark of every other. -/
def Edit.solo (id : String) : Edit :=
  .setFlags (fun s => if s.sessionId = id then false else s.muted)
    (fun s => decide (s.sessionId = id)) (·.unread)

/-- Sessions with distinct ids and right rollups, in insertion order. -/
structure Fleet where
  sessions : List Session
  distinct : (sessions.map (fun s => s.sessionId)).Nodup
  rolledUp : ∀ s ∈ sessions, s.RolledUp

namespace Fleet

/-- A fleet is its sessions. -/
theorem ext {F G : Fleet} (h : F.sessions = G.sessions) : F = G := by
  cases F
  cases G
  simpa using h

/-- No session. -/
def empty : Fleet := ⟨[], List.nodup_nil, by simp⟩

variable (F : Fleet)

/-- Some session is soloed. -/
def anySoloed : Bool := F.sessions.any (fun s => s.soloed)

/-- Whether a session should notify among the sessions of the fleet. -/
def notifies (s : Session) : Bool := s.shouldNotifySession F.anySoloed

/-- The session with an id. -/
def get? (id : String) : Option Session := KeyedList.get? (fun s => s.sessionId) F.sessions id

/-- Put a session in the place of the one of its id, or at the end. -/
def put (s : Session) (h : s.RolledUp) : Fleet where
  sessions := KeyedList.upsert (fun s => s.sessionId) F.sessions s
  distinct := KeyedList.upsert_nodup F.distinct
  rolledUp w hw := by
    rcases KeyedList.mem_upsert.mp hw with rfl | hw
    · exact h
    · exact F.rolledUp w hw.1

/-- Drop the session of an id. -/
def drop (id : String) : Fleet where
  sessions := KeyedList.erase (fun s => s.sessionId) F.sessions id
  distinct := KeyedList.erase_nodup F.distinct
  rolledUp w hw := F.rolledUp w (KeyedList.mem_erase.mp hw).1

/-- Edit every session in place. -/
def edit (g : Edit) : Fleet where
  sessions := F.sessions.map g
  distinct := by
    have same : (F.sessions.map g).map (fun s => s.sessionId) =
        F.sessions.map (fun s => s.sessionId) := by
      simp [List.map_map, Function.comp_def]
    rw [same]
    exact F.distinct
  rolledUp w hw := by
    obtain ⟨s, hs, rfl⟩ := List.mem_map.mp hw
    exact g.rolledUp s (F.rolledUp s hs)

@[simp] theorem put_sessions (s : Session) (h : s.RolledUp) :
    (F.put s h).sessions = KeyedList.upsert (fun s => s.sessionId) F.sessions s := rfl

@[simp] theorem drop_sessions (id : String) :
    (F.drop id).sessions = KeyedList.erase (fun s => s.sessionId) F.sessions id := rfl

@[simp] theorem edit_sessions (g : Edit) : (F.edit g).sessions = F.sessions.map g := rfl

/-- The edit `g`, with the unread flag settled against the notify values in `F` before it and
in `F'` after it. -/
def settled (F' : Fleet) (g : Edit) : Edit where
  act s := (g s).settle (F.notifies s) (F'.notifies (g s))
  sessionId s := g.sessionId s
  rolledUp s h := (g.rolledUp s h).settle _ _

/-- Edit the sessions and settle the unread flag of each, those the edit left alone included. -/
def reflag (g : Edit) : Fleet := F.edit (F.settled (F.edit g) g)

/-- Edit the runs of one session and settle its unread flag; no other session can be affected. -/
def revise (id : String) (f : List AgentRun → List AgentRun) : Fleet :=
  F.edit (.only id (F.settled F (.setRuns f)))

/-- The session as it lands in the fleet: rollups computed, unread settled against the session it
replaces. -/
def landed (session : Session) : Session :=
  session.recomputeRollups.settle (((F.get? session.sessionId).map F.notifies).getD false)
    (F.notifies session.recomputeRollups)

/-- A session that comes in has its rollups computed. -/
theorem landed_rolledUp (session : Session) : (F.landed session).RolledUp :=
  session.rolledUp_recomputeRollups.settle _ _

@[simp] theorem landed_sessionId (session : Session) :
    (F.landed session).sessionId = session.sessionId := rfl

/-- A session comes in: it takes the place of the one with its id, or the last. -/
def upsert (session : Session) : Fleet := F.put (F.landed session) (F.landed_rolledUp session)

/-- Drop a session and settle the others. -/
def remove (id : String) : Fleet :=
  (F.drop id).edit (F.settled (F.drop id) .keep)

/-- Solo the session of an id, where there is one. -/
def solo (id : String) : Fleet := if (F.get? id).isSome then F.reflag (.solo id) else F

/-- The abstract meaning of each mutation of the engine. -/
def mutate : MergeEngine.Mutation → Fleet
  | .upsertSession session => F.upsert session
  | .removeSessionEvents id => F.remove id
  | .removeSession id => F.remove id
  | .upsertRun id run => F.revise id (fun runs => (MergeEngine.upsertRunIn runs run).1)
  | .removeRun id runId => F.revise id (fun runs => runs.filter (fun r => r.runId ≠ runId))
  | .applyMute id => F.reflag (.only id .mute)
  | .applyUnmute id => F.reflag (.only id .unmute)
  | .applySolo id => F.solo id
  | .applyFocus id => F.edit (.only id .read)

variable {F}

/-- An id stands for the session that has it. -/
theorem get?_eq_some_iff {id : String} {s : Session} :
    F.get? id = some s ↔ s ∈ F.sessions ∧ s.sessionId = id :=
  KeyedList.get?_eq_some_iff F.distinct

theorem get?_of_mem {s : Session} (h : s ∈ F.sessions) : F.get? s.sessionId = some s :=
  get?_eq_some_iff.mpr ⟨h, rfl⟩

/-- An id stands for none if no session has it. -/
theorem get?_eq_none_iff {id : String} :
    F.get? id = none ↔ id ∉ F.sessions.map (fun s => s.sessionId) :=
  KeyedList.get?_eq_none_iff

/-- A session that is put in is found under its id, and the others as before. -/
theorem get?_put {s : Session} {h : s.RolledUp} {id : String} :
    (F.put s h).get? id = if s.sessionId = id then some s else F.get? id :=
  KeyedList.get?_upsert F.distinct

/-- What is found has right rollups. -/
theorem rolledUp_of_get? {id : String} {s : Session} (found : F.get? id = some s) : s.RolledUp :=
  F.rolledUp s (get?_eq_some_iff.mp found).1

/-- An edit goes to each session. -/
theorem get?_edit {g : Edit} {id : String} : (F.edit g).get? id = (F.get? id).map g := by
  have same : (fun s : Session => decide (s.sessionId = id)) ∘ g =
      fun s => decide (s.sessionId = id) := by
    funext s
    simp
  rw [get?, edit, KeyedList.get?, List.find?_map, same]
  rfl

/-- A session whose runs are revised is settled against the fleet it was in. -/
theorem get?_revise {id : String} {s : Session} (found : F.get? id = some s)
    (f : List AgentRun → List AgentRun) :
    (F.revise id f).get? id = some (F.settled F (.setRuns f) s) := by
  have own : s.sessionId = id := (get?_eq_some_iff.mp found).2
  rw [revise, get?_edit, found, Option.map_some]
  simp [Edit.only, own]

/-- Putting an edited session back is the edit of the one session. -/
theorem put_eq_edit {id : String} {s : Session} (found : F.get? id = some s) {g : Edit} :
    F.put (g s) (g.rolledUp s (F.rolledUp s (get?_eq_some_iff.mp found).1)) =
      F.edit (.only id g) := by
  obtain ⟨hs, rfl⟩ := get?_eq_some_iff.mp found
  apply Fleet.ext
  rw [put_sessions, KeyedList.upsert_of_mem]
  · rw [Edit.sessionId_act]
    apply KeyedList.modify_congr
    intro w hw own
    have same : some w = some s := by rw [← get?_of_mem hw, own, found]
    rw [Option.some.inj same]
  · rw [Edit.sessionId_act]
    exact List.mem_map_of_mem hs

/-- A session that is dropped is not found, and the others are as before. -/
theorem get?_drop {id id' : String} :
    (F.drop id).get? id' = if id' = id then none else F.get? id' := by
  apply Option.ext
  intro s
  rw [get?_eq_some_iff, drop]
  simp only [KeyedList.mem_erase]
  split
  · rename_i h
    subst h
    simp only [reduceCtorEq, iff_false, not_and]
    rintro ⟨-, hne⟩ rfl
    exact hne rfl
  · rename_i h
    rw [get?_eq_some_iff]
    constructor
    · rintro ⟨⟨hs, -⟩, rfl⟩
      exact ⟨hs, rfl⟩
    · rintro ⟨hs, rfl⟩
      exact ⟨⟨hs, h⟩, rfl⟩

theorem anySoloed_eq_true_iff : F.anySoloed = true ↔ ∃ s ∈ F.sessions, s.soloed = true := by
  simp [anySoloed]

/-- An edit that leaves the solo marks leaves whether there is one. -/
theorem anySoloed_congr {F' : Fleet} {g : Edit} (hs : F'.sessions = F.sessions.map g)
    (hg : ∀ s ∈ F.sessions, (g s).soloed = s.soloed) : F'.anySoloed = F.anySoloed := by
  rw [Bool.eq_iff_iff, anySoloed_eq_true_iff, anySoloed_eq_true_iff, hs]
  constructor
  · rintro ⟨w, hw, hsolo⟩
    obtain ⟨s, hmem, rfl⟩ := List.mem_map.mp hw
    exact ⟨s, hmem, (hg s hmem) ▸ hsolo⟩
  · rintro ⟨s, hmem, hsolo⟩
    exact ⟨g s, List.mem_map_of_mem hmem, (hg s hmem).trans hsolo⟩

/-- The runs play no part in the solo marks. -/
theorem anySoloed_revise (id : String) (f : List AgentRun → List AgentRun) :
    (F.revise id f).anySoloed = F.anySoloed := by
  apply anySoloed_congr rfl
  intro s _
  by_cases own : s.sessionId = id
  · simp [Edit.only, own, settled, Edit.setRuns]
  · simp [Edit.only, own]

/-- An upsert is found under its id, and the others are as before. -/
theorem get?_upsert {session : Session} {id : String} :
    (F.upsert session).get? id =
      if session.sessionId = id then some (F.landed session) else F.get? id := get?_put

end Fleet

end VsFleet
