import VsFleet.Hub.Fleet
import VsFleet.Hub.Server

/-!
# One session of the Hub on its own

What the Hub keeps for one session, and what a message about the session makes of that, with
nothing else of the Hub in sight: no other session, no order of sessions, no log. It is what the
store does as long as no session is soloed, since a solo is the one thing that makes the notify
value of a session depend on another.
-/

namespace VsFleet

open MergeEngine (Mutation)

/-- Whether a session should notify with nobody soloed. -/
def Session.rings (s : Session) : Bool := s.shouldNotifySession false

/-- An edit with the unread flag settled against the notify values before and after it. -/
def Edit.settles (g : Edit) (s : Session) : Session := (g s).settle s.rings (g s).rings

/-- What a mutation about a session makes of it. -/
def MergeEngine.Mutation.onSession : Mutation → Option Session → Option Session
  | .upsertSession session, held =>
    some (session.recomputeRollups.settle ((held.map Session.rings).getD false)
      session.recomputeRollups.rings)
  | .removeSessionEvents _, _ | .removeSession _, _ => none
  | .upsertRun _ run, held =>
    held.map (Edit.setRuns (fun runs => (MergeEngine.upsertRunIn runs run).1)).settles
  | .removeRun _ runId, held =>
    held.map (Edit.setRuns (fun runs => runs.filter (fun r => r.runId ≠ runId))).settles
  | .applyMute _, held => held.map Edit.mute.settles
  | .applyUnmute _, held => held.map Edit.unmute.settles
  | .applySolo id, held => held.map (Edit.solo id).settles
  | .applyFocus _, held => held.map Edit.read

/-- The session a mutation is about. -/
def MergeEngine.Mutation.subject : Mutation → String
  | .upsertSession session => session.sessionId
  | .removeSessionEvents id | .removeSession id | .upsertRun id _ | .removeRun id _
  | .applyMute id | .applyUnmute id | .applySolo id | .applyFocus id => id

/-- The session, its entry in the index of durable ids and the marks of these. -/
structure Cell where
  session : Option Session
  durables : Option (List DurableId)
  marks : DurableId → Option Mark

namespace Cell

/-- The answer of the gate to a mark. -/
def classify (mark : Option Mark) (epoch seq : Nat) : Decision :=
  match mark with
  | none => .applyFresh
  | some m =>
    if epoch > m.epoch then .applyFresh
    else if epoch < m.epoch then .staleEpochDrop
    else if seq > m.highSeq then .apply
    else .duplicateDrop

variable (c : Cell)

/-- A mutation, as it is seen from one session. -/
def mutate (m : Mutation) : Cell := { c with session := m.onSession c.session }

/-- The flags the Hub owns stay those of the session held. -/
def preserve (session : Session) : Session :=
  match c.session with
  | none => session
  | some s => { session with muted := s.muted, soloed := s.soloed, unread := s.unread }

/-- The mark of an admitted delta is set, and its id is one of the session. -/
def admitDelta (d : DurableId) (epoch seq : Nat) : Cell :=
  { c with
    durables := some (setInsert (c.durables.getD []) d)
    marks := fun d' => if d' = d then some ⟨epoch, seq⟩ else c.marks d' }

/-- The session goes, its index entry with it, and the marks of the ids indexed. -/
def remove : Cell where
  session := none
  durables := none
  marks d := if d ∈ c.durables.getD [] then none else c.marks d

/-- The mark of a durable id goes with the last run of it. -/
def prune (d : DurableId) : Cell :=
  if (c.session.map (fun s => s.runs.any (fun r => r.nativeId = d.val))).getD false then c
  else
    { c with
      durables := c.durables.bind (fun set =>
        if (set.filter (fun id => id ≠ d)).isEmpty then none
        else some (set.filter (fun id => id ≠ d)))
      marks := fun d' => if d' = d then none else c.marks d' }

/-- One message about the session, its append failing or not. -/
def receive (fails : Bool) : ClientMessage → Cell
  | .sessionUpsert session => if fails then c else c.mutate (.upsertSession (c.preserve session))
  | .sessionRemove _ | .command (.dismiss _ (.session _)) =>
    if c.session.isNone || fails then c else c.remove
  | .runUpsert id run none => if fails then c else c.mutate (.upsertRun id run)
  | .runUpsert id run (some s) =>
    if c.session.isNone || (classify (c.marks ⟨s.durableId⟩) s.epoch s.seq).drops then c
    else if fails then c.admitDelta ⟨s.durableId⟩ s.epoch s.seq
    else (c.admitDelta ⟨s.durableId⟩ s.epoch s.seq).mutate (.upsertRun id run)
  | .runRemove id runId =>
    match c.session.bind (fun s => s.runs.find? (fun r => r.runId = runId)) with
    | none => c
    | some run => if fails then c else (c.mutate (.removeRun id runId)).prune ⟨run.nativeId⟩
  | .command (.mute _ id) => if fails then c else c.mutate (.applyMute id)
  | .command (.unmute _ id) => if fails then c else c.mutate (.applyUnmute id)
  | .command (.focus _ (.session id)) => c.mutate (.applyFocus id)
  | _ => c

end Cell

/-- The session a message names. A solo is about every session, and a message that names a run is
about the session the Hub finds it in. -/
def ClientMessage.subject : ClientMessage → Option String
  | .sessionUpsert session => some session.sessionId
  | .sessionRemove id | .runUpsert id _ _ | .runRemove id _
  | .command (.mute _ id) | .command (.unmute _ id) | .command (.focus _ (.session id))
  | .command (.dismiss _ (.session id)) => some id
  | _ => none

/-- The message names a session, brings in no solo, and its durable ids are the session's. -/
def ClientMessage.Owned (owner : DurableId → String) (msg : ClientMessage) : Prop :=
  match msg with
  | .sessionUpsert session =>
    session.soloed = false ∧ ∀ r ∈ session.runs, owner ⟨r.nativeId⟩ = session.sessionId
  | .runUpsert id run stamp =>
    owner ⟨run.nativeId⟩ = id ∧ ∀ s ∈ stamp, owner ⟨s.durableId⟩ = id
  | msg => msg.subject.isSome

/-- A message and whether the append it makes, if any, fails. -/
structure Report where
  msg : ClientMessage
  fails : Bool

namespace StateStore

/-- What the store keeps for a session. -/
def cell (owner : DurableId → String) (store : StateStore) (id : String) : Cell where
  session := store.engine.session id
  durables := store.sessionDurables.lookup id
  marks d := if owner d = id then store.reclaim.mark d else none

/-- The store meets a message, with the outcome of the append to come. -/
def report (iter : IterOrder Session) (store : StateStore) (r : Report) : StateStore :=
  (({ store with log := { store.log with faults := [r.fails] } } : StateStore).applyMessage iter
    r.msg).2

end StateStore

end VsFleet
