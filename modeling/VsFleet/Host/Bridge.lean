import VsFleet.Misc.OrderedMap
import VsFleet.Misc.SortedMap
import Mathlib.Data.String.Basic

/-!
# The bridge registry

The servers that phone home (`fleet-host/src/bridge.rs`). A server is there for as long as one of
its connections is, each under the generation it was registered with; a connection that drops is
unregistered after a grace period, and what happens to the server in between is up to everybody
else. Every method but `register` is one turn of the lock: `register` draws its generation first.
-/

namespace VsFleet

/-- `Session` of the multiplexer (`session.rs:12-24`), a row of the list of servers. -/
structure MuxSession where
  id : String
  label : String
  url : String
  owned : Bool
  renamed : Bool
  deriving DecidableEq, Repr

/-- `ServerConnSet` (`bridge.rs:43-53`): the senders are of type `τ`, an instant is in nanoseconds,
and the connections are in the order of their generations. -/
structure ServerConnSet (τ : Type) where
  url : String
  label : String
  renamed : Bool
  lastSeen : Nat
  conns : List (Nat × τ)

/-- `BridgeRegistry` (`bridge.rs:64-67`). -/
structure BridgeRegistry (τ : Type) where
  inner : HashMap String (ServerConnSet τ)
  nextGeneration : Nat

namespace BridgeRegistry

variable {τ : Type}

/-- No server is registered. -/
def new : BridgeRegistry τ := ⟨∅, 0⟩

/-- The row of an entry. -/
def row (id : String) (c : ServerConnSet τ) : MuxSession := ⟨id, c.label, c.url, false, c.renamed⟩

/-- `servers` (`bridge.rs:76-90`). -/
def servers (r : BridgeRegistry τ) (iter : IterOrder (Sigma fun _ : String => ServerConnSet τ)) :
    List MuxSession :=
  ((iter.perm r.inner.entries).map (fun entry => row entry.1 entry.2)).mergeSort
    (fun a b => a.id ≤ b.id)

/-- `forget` (`bridge.rs:119-125`). -/
def forget (r : BridgeRegistry τ) (serverId : String) : Bool × BridgeRegistry τ :=
  if serverId ∈ r.inner then (true, { r with inner := r.inner.erase serverId })
  else (false, r)

/-- `touch` (`bridge.rs:130-134`). -/
def touch (r : BridgeRegistry τ) (now : Nat) (serverId : String) : BridgeRegistry τ :=
  { r with inner := HashMap.modify r.inner serverId (fun entry => { entry with lastSeen := now }) }

/-- `reap_stale` (`bridge.rs:138-153`): the clock is read for each entry, `now id` at that of
`id`. -/
def reapStale (r : BridgeRegistry τ) (iter : IterOrder (Sigma fun _ : String => ServerConnSet τ))
    (now : String → Nat) (timeout : Nat) : List String × BridgeRegistry τ :=
  let stale := ((iter.perm r.inner.entries).filter (fun entry =>
    timeout < now entry.1 - entry.2.lastSeen)).map (fun entry => entry.1)
  (stale, { r with inner := stale.foldl (fun inner id => inner.erase id) r.inner })

/-- `rename` (`bridge.rs:163-171`). -/
def rename (r : BridgeRegistry τ) (serverId label : String) : Bool × BridgeRegistry τ :=
  match r.inner.lookup serverId with
  | some conn =>
    (true, { r with inner := r.inner.insert serverId { conn with label, renamed := true } })
  | none => (false, r)

/-- The draw of a generation, with which `register` begins. -/
def draw (r : BridgeRegistry τ) : Nat × BridgeRegistry τ :=
  (r.nextGeneration, { r with nextGeneration := r.nextGeneration + 1 })

/-- The rest of `register` (`bridge.rs:185-222`), under the lock: the `changed` flag. -/
def register (r : BridgeRegistry τ) (now generation : Nat) (id : String) (tx : τ)
    (url label : String) : Bool × BridgeRegistry τ :=
  match r.inner.lookup id with
  | some entry =>
    let labelChanges := !entry.renamed && entry.label ≠ label
    let changed := entry.url ≠ url || labelChanges
    (changed, { r with inner := r.inner.insert id { entry with
      url
      label := if labelChanges then label else entry.label
      lastSeen := now
      conns := SortedMap.insert generation tx entry.conns } })
  | none =>
    (true, { r with inner := r.inner.insert id ⟨url, label, false, now, [(generation, tx)]⟩ })

/-- `unregister` (`bridge.rs:224-249`). -/
def unregister (r : BridgeRegistry τ) (id : String) (generation : Nat) : Bool × BridgeRegistry τ :=
  match r.inner.lookup id with
  | some entry =>
    if (SortedMap.get? entry.conns generation).isSome then
      let conns := entry.conns.filter (fun conn => conn.1 ≠ generation)
      if conns.isEmpty then (true, { r with inner := r.inner.erase id })
      else (false, { r with inner := r.inner.insert id { entry with conns } })
    else (false, r)
  | none => (false, r)

end BridgeRegistry

/-! ## Interleavings -/

/-- A call of `register` between its draw and its turn of the lock. -/
structure Registering (τ : Type) where
  generation : Nat
  id : String
  tx : τ
  url : String
  label : String

/-- The registry with the registrations under way, and the clock. -/
structure Bridge (τ : Type) where
  registry : BridgeRegistry τ
  registering : List (Registering τ)
  now : Nat

/-- The turns the callers of the registry take, in any order: of the registrations under way the
one at a place gets the lock, and a sweep reads the clock `delay id` later for `id`. -/
inductive BridgeStep (τ : Type) where
  | draw (id : String) (tx : τ) (url label : String)
  | register (place : Nat)
  | unregister (id : String) (generation : Nat)
  | rename (id label : String)
  | forget (id : String)
  | touch (id : String)
  | reapStale (iter : IterOrder (Sigma fun _ : String => ServerConnSet τ)) (delay : String → Nat)
      (timeout : Nat)
  | elapse (duration : Nat)

/-- A call that has had its turn, with what it returned. -/
inductive BridgeCall where
  | register (generation : Nat) (id url label : String) (changed : Bool)
  | unregister (id : String) (generation : Nat) (changed : Bool)
  | rename (id label : String) (renamed : Bool)
  | forget (id : String) (forgotten : Bool)
  | touch (id : String)
  | reapStale (stale : List String)
  deriving DecidableEq, Repr

namespace Bridge

variable {τ : Type}

/-- A bridge that has just started. -/
def new : Bridge τ := ⟨.new, [], 0⟩

/-- The calls of the registry, each in one turn of its lock. -/
def step (b : Bridge τ) : BridgeStep τ → Bridge τ × Option BridgeCall
  | .draw id tx url label =>
    let (generation, registry) := b.registry.draw
    ({ b with registry, registering := b.registering ++ [⟨generation, id, tx, url, label⟩] }, none)
  | .register place =>
    match b.registering[place]? with
    | none => (b, none)
    | some c =>
      let (changed, registry) := b.registry.register b.now c.generation c.id c.tx c.url c.label
      ({ b with registry, registering := b.registering.eraseIdx place },
        some (.register c.generation c.id c.url c.label changed))
  | .unregister id generation =>
    let (changed, registry) := b.registry.unregister id generation
    ({ b with registry }, some (.unregister id generation changed))
  | .rename id label =>
    let (renamed, registry) := b.registry.rename id label
    ({ b with registry }, some (.rename id label renamed))
  | .forget id =>
    let (forgotten, registry) := b.registry.forget id
    ({ b with registry }, some (.forget id forgotten))
  | .touch id => ({ b with registry := b.registry.touch b.now id }, some (.touch id))
  | .reapStale iter delay timeout =>
    let (stale, registry) := b.registry.reapStale iter (fun id => b.now + delay id) timeout
    ({ b with registry }, some (.reapStale stale))
  | .elapse duration => ({ b with now := b.now + duration }, none)

/-- A bridge with the log of the calls so far, each with the time of its turn. -/
def observe (s : Bridge τ × List (Nat × BridgeCall)) (step : BridgeStep τ) :
    Bridge τ × List (Nat × BridgeCall) :=
  let (b, call) := s.1.step step
  (b, s.2 ++ call.toList.map (fun call => (s.1.now, call)))

/-- A run of turns from the start, with the log of its calls. -/
def run (steps : List (BridgeStep τ)) : Bridge τ × List (Nat × BridgeCall) :=
  steps.foldl observe (new, [])

end Bridge

end VsFleet
