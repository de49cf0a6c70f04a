import VsFleet.Hub.Codec
import VsFleet.Hub.Merge
import VsFleet.Hub.Reclaim

/-!
# The durable store

The append-only log and the store that appends every mutation before it projects it
(`fleet-hub/src/persist.rs`). A row of the log holds the payload that was written, and a replay
parses it again. Whether an `INSERT` fails is outside the program: the log carries the outcomes of
the appends to come, and with none left every append succeeds. The time stamps are read by
`parse_epoch_secs`, which rests on a date library, so it is a parameter here.
-/

namespace VsFleet

/-- `PersistError` (`persist.rs:79-87`); a `PersistEvent` always encodes, which leaves the other
of its two kinds. -/
inductive PersistError where
  | sqlite
  deriving DecidableEq, Repr

/-- `EventLog` (`persist.rs:95-103`). A row is the tree of its payload, `none` for a text that is no
JSON. What the log depends on beside its rows is carried with it: `true` in `faults` for an append
that fails, and in `float` what serde_json makes of a number that is no integer of 64 bits. -/
structure EventLog where
  rows : List (Option Json)
  faults : List Bool
  float : String → Option String := fun _ => none

/-- `apply_to_engine` (`persist.rs:269-276`). -/
def applyToEngine (engine : MergeEngine) : PersistEvent → MergeEngine × List Event
  | .sessionUpsert session => ((engine.upsertSession session).1, [(engine.upsertSession session).2])
  | .sessionRemove sessionId => engine.removeSessionEvents sessionId
  | .runUpsert sessionId run => engine.upsertRun sessionId run
  | .runRemove sessionId runId => engine.removeRun sessionId runId

namespace EventLog

/-- The log that holds the rows of these events. -/
def holding (events : List PersistEvent) (faults : List Bool) : EventLog :=
  { rows := events.map (fun ev => some ev.serialize), faults }

/-- `append` (`persist.rs:174-184`). The row number it returns is read by no caller. -/
def append (log : EventLog) (event : PersistEvent) : Except PersistError Unit × EventLog :=
  if log.faults.headD false then (.error .sqlite, { log with faults := log.faults.tail })
  else
    (.ok (), { log with rows := log.rows ++ [some event.serialize], faults := log.faults.tail })

/-- `serde_json::from_str::<PersistEvent>` on the payload of a row. -/
def parse (log : EventLog) (payload : Option Json) : Option PersistEvent :=
  payload.bind (Serde.fromStr (PersistEvent.deserialize log.float))

/-- `replay_into` (`persist.rs:205-227`), with the rows applied and the rows skipped. -/
def replayInto (log : EventLog) (engine : MergeEngine) : MergeEngine × Nat × Nat :=
  log.rows.foldl (fun (engine, applied, skipped) payload =>
    match log.parse payload with
    | some ev => ((applyToEngine engine ev).1, applied + 1, skipped)
    | none => (engine, applied, skipped + 1)) (engine, 0, 0)

end EventLog

/-- `session_of_updated` (`persist.rs:254-259`). -/
def sessionOfUpdated : Event → Option Session
  | .sessionUpdated _ session => some session
  | _ => none

/-- `BTreeSet::insert`; the sets of durable ids are read through membership and emptiness. -/
def setInsert (set : List DurableId) (id : DurableId) : List DurableId :=
  if id ∈ set then set else set ++ [id]

/-- `StateStore` (`persist.rs:285-300`). -/
structure StateStore where
  log : EventLog
  engine : MergeEngine
  reclaim : ReclaimTable
  sessionDurables : HashMap String (List DurableId)

namespace StateStore

/-- The loop of `from_log` that rebuilds the index of durable ids. -/
def indexDurables (sessions : List Session) : HashMap String (List DurableId) :=
  sessions.foldl (fun index s =>
    index.insert s.sessionId
      (s.runs.foldl (fun set r => setInsert set ⟨r.nativeId⟩)
        ((index.lookup s.sessionId).getD []))) ∅

/-- `from_log` (`persist.rs:332-358`). -/
def fromLog (log : EventLog) : StateStore :=
  let engine := (log.replayInto .new).1
  { log, engine, reclaim := .new, sessionDurables := indexDurables engine.snapshot }

/-- `snapshot` (`persist.rs:366-368`). -/
def snapshot (store : StateStore) : List Session := store.engine.snapshot

/-- `session_id_of_run` (`persist.rs:371-373`). -/
def sessionIdOfRun (iter : IterOrder Session) (store : StateStore) (runId : String) :
    Option String := store.engine.sessionIdOfRun iter runId

/-- `log_and_apply` (`persist.rs:382-385`). -/
def logAndApply (store : StateStore) (ev : PersistEvent) :
    Except PersistError (List Event) × StateStore :=
  match store.log.append ev with
  | (.error e, log) => (.error e, { store with log })
  | (.ok (), log) =>
    let (engine, events) := applyToEngine store.engine ev
    (.ok events, { store with log, engine })

/-- `preserve_hub_owned_fields` (`persist.rs:397-404`). -/
def preserveHubOwnedFields (store : StateStore) (session : Session) : Session :=
  match store.engine.session session.sessionId with
  | none => session
  | some existing =>
    { session with
      muted := existing.muted
      soloed := existing.soloed
      unread := existing.unread }

/-- `apply_session_upsert` (`persist.rs:388-395`). The single event of an upsert stays in its
list. -/
def applySessionUpsert (store : StateStore) (session : Session) :
    Except PersistError (List Event) × StateStore :=
  store.logAndApply (.sessionUpsert (store.preserveHubOwnedFields session))

/-- `durables_of` (`persist.rs:493-498`). -/
def durablesOf (store : StateStore) (sessionId : String) : List DurableId :=
  (store.sessionDurables.lookup sessionId).getD []

/-- `drop_session_reclaim` (`persist.rs:502-507`). -/
def dropSessionReclaim (store : StateStore) (sessionId : String) : StateStore :=
  match store.sessionDurables.lookup sessionId with
  | none => store
  | some ids =>
    { store with
      reclaim := (store.reclaim.dropIds ids).2
      sessionDurables := store.sessionDurables.erase sessionId }

/-- `apply_session_remove` (`persist.rs:407-422`). -/
def applySessionRemove (store : StateStore) (sessionId : String) :
    Except PersistError (List Event) × StateStore :=
  if (store.engine.session sessionId).isNone then (.ok [], store)
  else
    match store.logAndApply (.sessionRemove sessionId) with
    | (.error e, store) => (.error e, store)
    | (.ok events, store) => (.ok events, store.dropSessionReclaim sessionId)

/-- `apply_run_upsert` (`persist.rs:426-438`). -/
def applyRunUpsert (store : StateStore) (sessionId : String) (run : AgentRun) :
    Except PersistError (List Event) × StateStore :=
  if (store.engine.session sessionId).isNone then (.ok [], store)
  else store.logAndApply (.runUpsert sessionId run)

/-- `apply_run_upsert_seq` (`persist.rs:453-485`). -/
def applyRunUpsertSeq (store : StateStore) (sessionId : String) (run : AgentRun)
    (durableId : DurableId) (epoch seq : Nat) :
    Except PersistError (Decision × List Event) × StateStore :=
  if (store.engine.session sessionId).isNone then (.ok (.duplicateDrop, []), store)
  else
    let (decision, reclaim) := store.reclaim.admitDelta durableId epoch seq
    let store := { store with reclaim }
    if decision.drops then (.ok (decision, []), store)
    else
      let ids := (store.sessionDurables.lookup sessionId).getD []
      let store := { store with
        sessionDurables := store.sessionDurables.insert sessionId (setInsert ids durableId) }
      match store.applyRunUpsert sessionId run with
      | (.error e, store) => (.error e, store)
      | (.ok events, store) => (.ok (decision, events), store)

/-- The loop of `apply_flag_change` over the projected sessions; `none` where every append
succeeded. -/
def appendUpdated : List Session → EventLog → Option PersistError × EventLog
  | [], log => (none, log)
  | session :: sessions, log =>
    match log.append (.sessionUpsert session) with
    | (.error e, log) => (some e, log)
    | (.ok (), log) => appendUpdated sessions log

/-- `apply_flag_change` (`persist.rs:547-565`): project, append every update, and roll the
projection back where an append fails. -/
def applyFlagChange (store : StateStore) (project : MergeEngine → MergeEngine × List Event) :
    Except PersistError (List Event) × StateStore :=
  let before := store.engine.snapshot
  let (engine, events) := project store.engine
  match appendUpdated (events.filterMap sessionOfUpdated) store.log with
  | (none, log) => (.ok events, { store with engine, log })
  | (some e, log) => (.error e, { store with engine := .restore before, log })

/-- `apply_mute` (`persist.rs:515-517`). -/
def applyMute (store : StateStore) (sessionId : String) :
    Except PersistError (List Event) × StateStore :=
  store.applyFlagChange (fun engine => engine.applyMute sessionId)

/-- `apply_unmute` (`persist.rs:523-525`). -/
def applyUnmute (store : StateStore) (sessionId : String) :
    Except PersistError (List Event) × StateStore :=
  store.applyFlagChange (fun engine => engine.applyUnmute sessionId)

/-- `apply_solo` (`persist.rs:532-534`). -/
def applySolo (store : StateStore) (sessionId : String) :
    Except PersistError (List Event) × StateStore :=
  store.applyFlagChange (fun engine => engine.applySolo sessionId)

/-- `persist_session_snapshot` (`persist.rs:579-588`): a failed append is logged only. -/
def persistSessionSnapshot (store : StateStore) (sessionId : String) : StateStore :=
  match store.engine.session sessionId with
  | none => store
  | some session => { store with log := (store.log.append (.sessionUpsert session)).2 }

/-- `apply_focus` (`persist.rs:592-596`). -/
def applyFocus (store : StateStore) (sessionId : String) : Option Event × StateStore :=
  match store.engine.applyFocus sessionId with
  | (_, none) => (none, store)
  | (engine, some ev) => (some ev, persistSessionSnapshot { store with engine } sessionId)

/-- The end of `apply_run_remove`: the mark goes with the last run of its durable id. -/
def pruneDurable (store : StateStore) (sessionId : String) (durable : DurableId) : StateStore :=
  let stillUsed := ((store.engine.session sessionId).map
    (fun s => s.runs.any (fun r => r.nativeId = durable.val))).getD false
  if stillUsed then store
  else
    { store with
      reclaim := (store.reclaim.dropId durable).2
      sessionDurables :=
        match store.sessionDurables.lookup sessionId with
        | none => store.sessionDurables
        | some set =>
          if (set.filter (fun id => id ≠ durable)).isEmpty then
            store.sessionDurables.erase sessionId
          else store.sessionDurables.insert sessionId (set.filter (fun id => id ≠ durable)) }

/-- `apply_run_remove` (`persist.rs:600-638`). -/
def applyRunRemove (store : StateStore) (sessionId runId : String) :
    Except PersistError (List Event) × StateStore :=
  match (store.engine.session sessionId).bind
      (fun s => s.runs.find? (fun r => r.runId = runId)) with
  | none => (.ok [], store)
  | some run =>
    match store.logAndApply (.runRemove sessionId runId) with
    | (.error e, store) => (.error e, store)
    | (.ok events, store) => (.ok events, store.pruneDurable sessionId ⟨run.nativeId⟩)

end StateStore

/-! ## Time stamps -/

/-- `Duration::as_secs() as i64`: the cast wraps. -/
def secsAsI64 (secs : Nat) : Int := (secs : Int).bmod 0x10000000000000000

/-- `i64::saturating_sub`. -/
def saturatingSub (a b : Int) : Int := max (-0x8000000000000000) (min 0x7fffffffffffffff (a - b))

/-- `{n:0width}`: zeros between the sign and the digits. -/
def padded (width : Nat) (n : Int) : String :=
  let digits := toString n.natAbs
  let sign := if n < 0 then "-" else ""
  sign ++ String.ofList (List.replicate (width - sign.length - digits.length) '0') ++ digits

/-- `civil_from_days` (`persist.rs:747-758`); the divisions truncate. -/
def civilFromDays (z : Int) : Int × Int × Int :=
  let z := z + 719468
  let era := (if z ≥ 0 then z else z - 146096).tdiv 146097
  let doe := z - era * 146097
  let yoe := (doe - doe.tdiv 1460 + doe.tdiv 36524 - doe.tdiv 146096).tdiv 365
  let y := yoe + era * 400
  let doy := doe - (365 * yoe + yoe.tdiv 4 - yoe.tdiv 100)
  let mp := (5 * doy + 2).tdiv 153
  let d := doy - (153 * mp + 2).tdiv 5 + 1
  let m := if mp < 10 then mp + 3 else mp - 9
  (if m ≤ 2 then y + 1 else y, m, d)

/-- `format_iso` (`persist.rs:734-742`). -/
def formatIso (epoch : Int) : String :=
  let days := epoch / 86400
  let rem := epoch % 86400
  let (y, m, d) := civilFromDays days
  let hour := rem.tdiv 3600
  let min := (rem.tmod 3600).tdiv 60
  let sec := rem.tmod 60
  padded 4 y ++ "-" ++ padded 2 m ++ "-" ++ padded 2 d ++ "T" ++ padded 2 hour ++ ":" ++
    padded 2 min ++ ":" ++ padded 2 sec ++ "Z"

section Time

variable (parseEpochSecs : String → Option Int)

/-- `subtract` (`persist.rs:703-708`). -/
def subtract (now : String) (secs : Nat) : String :=
  match parseEpochSecs now with
  | some epoch => formatIso (saturatingSub epoch (secsAsI64 secs))
  | none => now

/-- `timestamp_lt` (`persist.rs:715-720`). -/
def timestampLt (a b : String) : Bool :=
  match parseEpochSecs a, parseEpochSecs b with
  | some x, some y => x < y
  | _, _ => false

namespace StateStore

/-- The victims of `reap_dead`, in snapshot order. -/
def reapVictims (store : StateStore) (now : String) (grace : Nat) : List (String × String) :=
  store.snapshot.flatMap (fun session =>
    (session.runs.filter (fun run =>
      run.state = .dead && timestampLt parseEpochSecs run.updatedAt
        (subtract parseEpochSecs now grace))).map (fun run => (session.sessionId, run.runId)))

/-- The victims of `sweep_expired_sessions`. -/
def sweepVictims (store : StateStore) (now : String) (ttl : Nat) : List String :=
  (store.snapshot.filter (fun s =>
    timestampLt parseEpochSecs s.updatedAt (subtract parseEpochSecs now ttl))).map
    (fun s => s.sessionId)

/-- The loop of `reap_dead` and of `sweep_expired_sessions`: remove the victims one by one and
leave at the first error. -/
def removeAll {α : Type} (remove : StateStore → α → Except PersistError (List Event) × StateStore) :
    List α → StateStore → Except PersistError (List Event) × StateStore
  | [], store => (.ok [], store)
  | victim :: victims, store =>
    match remove store victim with
    | (.error e, store) => (.error e, store)
    | (.ok events, store) =>
      match removeAll remove victims store with
      | (.error e, store) => (.error e, store)
      | (.ok more, store) => (.ok (events ++ more), store)

/-- `reap_dead` (`persist.rs:653-669`). -/
def reapDead (store : StateStore) (now : String) (grace : Nat) :
    Except PersistError (List Event) × StateStore :=
  removeAll (fun store (sid, rid) => store.applyRunRemove sid rid)
    (store.reapVictims parseEpochSecs now grace) store

/-- `sweep_expired_sessions` (`persist.rs:678-696`). -/
def sweepExpiredSessions (store : StateStore) (now : String) (ttl : Nat) :
    Except PersistError (List Event) × StateStore :=
  removeAll (fun store sid => store.applySessionRemove sid)
    (store.sweepVictims parseEpochSecs now ttl) store

end StateStore

end Time

/-- The public mutations of the store, each with the arguments of its method. -/
inductive StoreOp where
  | sessionUpsert (session : Session)
  | sessionRemove (sessionId : String)
  | runUpsert (sessionId : String) (run : AgentRun)
  | runUpsertSeq (sessionId : String) (run : AgentRun) (durableId : DurableId) (epoch seq : Nat)
  | runRemove (sessionId runId : String)
  | mute (sessionId : String)
  | unmute (sessionId : String)
  | solo (sessionId : String)
  | focus (sessionId : String)
  | reapDead (now : String) (grace : Nat)
  | sweepExpiredSessions (now : String) (ttl : Nat)

/-- The store after one mutation, whether it returned events or an error. -/
def StateStore.perform (parseEpochSecs : String → Option Int) (store : StateStore) :
    StoreOp → StateStore
  | .sessionUpsert session => (store.applySessionUpsert session).2
  | .sessionRemove sessionId => (store.applySessionRemove sessionId).2
  | .runUpsert sessionId run => (store.applyRunUpsert sessionId run).2
  | .runUpsertSeq sessionId run durableId epoch seq =>
    (store.applyRunUpsertSeq sessionId run durableId epoch seq).2
  | .runRemove sessionId runId => (store.applyRunRemove sessionId runId).2
  | .mute sessionId => (store.applyMute sessionId).2
  | .unmute sessionId => (store.applyUnmute sessionId).2
  | .solo sessionId => (store.applySolo sessionId).2
  | .focus sessionId => (store.applyFocus sessionId).2
  | .reapDead now grace => (store.reapDead parseEpochSecs now grace).2
  | .sweepExpiredSessions now ttl => (store.sweepExpiredSessions parseEpochSecs now ttl).2

example : formatIso 1780922096 = "2026-06-08T12:34:56Z" := by decide

end VsFleet
