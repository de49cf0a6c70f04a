import VsFleet.Hub.Persist

/-!
# The Hub server

What the server does with an inbound message, and the order in which a commit, its publication
and new subscriptions can follow one another (`fleet-hub/src/server.rs`). A commit runs a closure
on the store under the store lock; still holding it, it takes the publish lock and in one section
replaces the published snapshot and broadcasts the events. A subscription takes the publish lock
alone. The broadcast channel is what was sent to a receiver since it attached; its capacity is in
`Hub/Connection.lean`.
-/

namespace VsFleet

namespace StateStore

/-- `apply_dismiss` (`server.rs:212-231`). -/
def applyDismiss (iter : IterOrder Session) (store : StateStore) :
    Target → Except PersistError (List Event) × StateStore
  | .session sessionId => store.applySessionRemove sessionId
  | .run runId =>
    match store.sessionIdOfRun iter runId with
    | some sessionId => store.applyRunRemove sessionId runId
    | none => (.ok [], store)

/-- The session a focus names. -/
def focusTarget (iter : IterOrder Session) (store : StateStore) : Target → Option String
  | .session sessionId => some sessionId
  | .run runId => store.sessionIdOfRun iter runId

/-- `apply_command` (`server.rs:175-208`); `set_tags` is logged only. -/
def applyCommand (iter : IterOrder Session) (store : StateStore) :
    Command → Except PersistError (List Event) × StateStore
  | .focus _ target =>
    match store.focusTarget iter target with
    | none => (.ok [], store)
    | some sid => (.ok (store.applyFocus sid).1.toList, (store.applyFocus sid).2)
  | .mute _ sessionId => store.applyMute sessionId
  | .unmute _ sessionId => store.applyUnmute sessionId
  | .solo _ sessionId => store.applySolo sessionId
  | .dismiss _ target => store.applyDismiss iter target
  | .setTags _ _ _ => (.ok [], store)

/-- `apply` (`server.rs:132-169`): what a message commits. A subscription commits nothing. -/
def applyMessage (iter : IterOrder Session) (store : StateStore) :
    ClientMessage → Except PersistError (List Event) × StateStore
  | .subscribe => (.ok [], store)
  | .command command => store.applyCommand iter command
  | .sessionUpsert session => store.applySessionUpsert session
  | .sessionRemove sessionId => store.applySessionRemove sessionId
  | .runUpsert sessionId run none => store.applyRunUpsert sessionId run
  | .runUpsert sessionId run (some s) =>
    match store.applyRunUpsertSeq sessionId run ⟨s.durableId⟩ s.epoch s.seq with
    | (.error e, store) => (.error e, store)
    | (.ok (_, events), store) => (.ok events, store)
  | .runRemove sessionId runId => store.applyRunRemove sessionId runId

/-- The closure of `gc` (`server.rs:345-358`). -/
def gc (parseEpochSecs : String → Option Int) (store : StateStore) (now : String)
    (grace sessionTtl : Nat) : Except PersistError (List Event) × StateStore :=
  match store.reapDead parseEpochSecs now grace with
  | (.error e, store) => (.error e, store)
  | (.ok events, store) =>
    match store.sweepExpiredSessions parseEpochSecs now sessionTtl with
    | (.error e, store) => (.error e, store)
    | (.ok more, store) => (.ok (events ++ more), store)

end StateStore

/-- The closures the server commits: a message, with the iteration order its lookup of a run
meets, and a garbage-collection pass. -/
inductive Closure where
  | message (iter : IterOrder Session) (msg : ClientMessage)
  | gc (now : String) (grace sessionTtl : Nat)

/-- The store after a closure has run, with what the closure gave back. -/
def Closure.run (parseEpochSecs : String → Option Int) (store : StateStore) :
    Closure → Except PersistError (List Event) × StateStore
  | .message iter msg => store.applyMessage iter msg
  | .gc now grace sessionTtl => store.gc parseEpochSecs now grace sessionTtl

/-- A subscriber: the snapshot it was given and the events sent to it since. -/
structure Subscriber where
  given : List Session
  received : List Event

/-- `HubState` (`server.rs:49-71`). `pending` is the commit that holds the store lock after its
closure has returned: the events it will send and the snapshot it has taken. -/
structure HubState where
  store : StateStore
  pending : Option (List Event × List Session)
  published : List Session
  subscribers : List Subscriber

/-- `from_store` (`server.rs:95-105`). -/
def HubState.fromStore (store : StateStore) : HubState where
  store := store
  pending := none
  published := store.snapshot
  subscribers := []

/-- The atomic sections that interleave. -/
inductive HubStep where
  | commit (closure : Closure)
  | publish
  | subscribe

/-- One section: `commit` (`server.rs:299-318`) up to the publish lock, its publish section, and
`subscribe_with_snapshot` (`server.rs:377-380`). A commit waits while another holds the store. -/
def HubState.step (parseEpochSecs : String → Option Int) (hub : HubState) : HubStep → HubState
  | .commit closure =>
    match hub.pending with
    | some _ => hub
    | none =>
      match closure.run parseEpochSecs hub.store with
      | (.error _, store) => { hub with store }
      | (.ok events, store) => { hub with store, pending := some (events, store.snapshot) }
  | .publish =>
    match hub.pending with
    | none => hub
    | some (events, snapshot) =>
      { hub with
        pending := none
        published := snapshot
        subscribers := hub.subscribers.map (fun s => { s with received := s.received ++ events }) }
  | .subscribe => { hub with subscribers := hub.subscribers ++ [⟨hub.published, []⟩] }

end VsFleet
