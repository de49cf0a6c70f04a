import VsFleet.Host.Connections
import VsFleet.Host.Proofs.RegistrySteps
import VsFleet.Misc.Runs
import Mathlib.Data.List.Perm.Basic

/-!
# Commands over overlapping connections

Which connection a command reaches. A server can have connections that are past their loop and still
registered beside one that is live; a command goes to the newest of them all.
-/

namespace VsFleet

/-- What a step may make of a connection that is registered or about to be. -/
structure BridgeConn.Ages (conn conn' : BridgeConn) : Prop where
  serverId : conn'.serverId = conn.serverId
  hello : conn.phase = .hello → conn.receiving = true →
    conn'.phase = .hello ∧ conn'.receiving = true
  running : ∀ generation, conn.phase = .running generation → conn.receiving = true →
    conn'.phase = .running generation ∧ conn'.receiving = true ∨ conn'.phase = .grace generation
  grace : ∀ generation, conn.phase = .grace generation → conn'.phase = .grace generation

theorem BridgeConn.Ages.refl (conn : BridgeConn) : conn.Ages conn where
  serverId := rfl
  hello phase receiving := ⟨phase, receiving⟩
  running _ phase receiving := Or.inl ⟨phase, receiving⟩
  grace _ phase := phase

namespace BridgeHost

/-- The connection is registered for the server, its loop runs and its receiver is there. -/
def Live (h : BridgeHost) (id : String) (n : Nat) : Prop :=
  ∃ generation conn, h.bridge.registry.conn id generation = some n ∧ h.conns[n]? = some conn ∧
    conn.phase = .running generation ∧ conn.receiving = true

/-- The connection, and nobody else, has taken the frame. -/
def HandedTo (h h' : BridgeHost) (n : Nat) (frame : Json) : Prop :=
  ∃ conn, h.conns[n]? = some conn ∧
    h' = { h with conns := h.conns.set n (conn.take frame) }

/-- A command to a server with a live connection reaches one, and is said to; only where there is
none it is said not to. -/
structure Delivers (h : BridgeHost) (id command : String) : Prop where
  reaches : (∃ n, h.Live id n) → (h.sendCommand id command).1 = true ∧
    ∃ n, h.Live id n ∧ h.HandedTo (h.sendCommand id command).2 n (commandFrame command)
  refuses : (h.sendCommand id command).1 = false → ¬ ∃ n, h.Live id n

/-- The newest connection of the server is live if any is. -/
def NewestLive (h : BridgeHost) (id : String) : Prop :=
  (∃ n, h.Live id n) → ∃ n, h.newest id = some n ∧ h.Live id n

section Send

variable {h : BridgeHost} {id command : String} {n : Nat} {conn : BridgeConn}

/-- A command is taken by the newest connection, if its receiver is there. -/
theorem sendCommand_of_newest (newest : h.newest id = some n) (there : h.conns[n]? = some conn)
    (receiving : conn.receiving = true) : h.sendCommand id command =
      (true, { h with conns := h.conns.set n (conn.take (commandFrame command)) }) := by
  unfold sendCommand
  rw [newest]
  dsimp only
  rw [there]
  dsimp only
  rw [if_pos receiving]

/-- What takes a command is the newest connection. -/
theorem newest_of_sendCommand (sent : (h.sendCommand id command).1 = true) :
    ∃ n conn, h.newest id = some n ∧ h.conns[n]? = some conn ∧ conn.receiving = true := by
  unfold sendCommand at sent
  cases newest : h.newest id with
  | none =>
    rw [newest] at sent
    cases sent
  | some n =>
    rw [newest] at sent
    dsimp only at sent
    cases there : h.conns[n]? with
    | none =>
      rw [there] at sent
      cases sent
    | some conn =>
      rw [there] at sent
      dsimp only at sent
      split at sent
      · rename_i receiving
        exact ⟨n, conn, rfl, there, receiving⟩
      · cases sent

/-- A frame is taken by one connection only. -/
theorem HandedTo.unique {h h' : BridgeHost} {m n : Nat} {frame : Json}
    (first : h.HandedTo h' m frame) (second : h.HandedTo h' n frame) : m = n := by
  obtain ⟨c, hc, rfl⟩ := first
  obtain ⟨d, hd, same⟩ := second
  by_contra apart
  have lists := congrArg (fun h : BridgeHost => h.conns[n]?) same
  simp only [List.getElem?_set_ne apart, hd, List.getElem?_set_self
    (List.getElem?_eq_some_iff.mp hd).1, Option.some.injEq] at lists
  have frames := congrArg (fun c : BridgeConn => c.frames.length) lists
  simp [BridgeConn.take] at frames

theorem delivers_iff : h.Delivers id command ↔ h.NewestLive id := by
  constructor
  · intro delivers live
    obtain ⟨sent, m, reached, taken⟩ := delivers.reaches live
    obtain ⟨n, conn, newest, there, receiving⟩ := newest_of_sendCommand sent
    have handed : h.HandedTo (h.sendCommand id command).2 n (commandFrame command) := by
      rw [sendCommand_of_newest newest there receiving]
      exact ⟨conn, there, rfl⟩
    rw [handed.unique taken] at newest
    exact ⟨m, newest, reached⟩
  · intro live
    have sent : (∃ n, h.Live id n) → ∃ n conn, h.newest id = some n ∧ h.Live id n ∧
        h.conns[n]? = some conn ∧ conn.receiving = true := by
      intro some
      obtain ⟨n, newest, generation, conn, registered, there, running, receiving⟩ := live some
      exact ⟨n, conn, newest, ⟨generation, conn, registered, there, running, receiving⟩, there,
        receiving⟩
    refine ⟨fun some => ?_, fun refused some => ?_⟩
    · obtain ⟨n, conn, newest, alive, there, receiving⟩ := sent some
      rw [sendCommand_of_newest newest there receiving]
      exact ⟨rfl, n, alive, conn, there, rfl⟩
    · obtain ⟨n, conn, newest, -, there, receiving⟩ := sent some
      rw [sendCommand_of_newest newest there receiving] at refused
      cases refused

end Send

/-! ## The life of a connection -/

/-- What is registered for a server is a connection of it in its loop or in its grace period, under
its generation; what is about to be registered is one at its hello. -/
structure Attached (h : BridgeHost) : Prop where
  registered : ∀ id generation n, h.bridge.registry.conn id generation = some n →
    ∃ conn, h.conns[n]? = some conn ∧ conn.serverId = id ∧
      (conn.phase = .running generation ∧ conn.receiving = true ∨ conn.phase = .grace generation)
  hello : ∀ c ∈ h.bridge.registering, ∃ conn, h.conns[c.tx]? = some conn ∧ conn.serverId = c.id ∧
    conn.phase = .hello ∧ conn.receiving = true
  apart : (h.bridge.registering.map (fun c => c.tx)).Nodup
  sorted : ∀ id c, h.bridge.registry.inner.lookup id = some c → SortedMap.Sorted c.conns

namespace Attached

variable {h : BridgeHost} {bridge : Bridge Nat} {conns : List BridgeConn}

theorem new : Attached .new where
  registered id generation n h := by cases h
  hello c h := absurd h List.not_mem_nil
  apart := List.nodup_nil
  sorted id c h := by cases h

/-- The registry lets go of connections only, and the connections age. -/
theorem age (att : h.Attached)
    (fewer : ∀ id generation n, bridge.registry.conn id generation = some n →
      h.bridge.registry.conn id generation = some n)
    (same : bridge.registering = h.bridge.registering)
    (sorted : ∀ id c, bridge.registry.inner.lookup id = some c → SortedMap.Sorted c.conns)
    (ages : ∀ (n : Nat) (conn : BridgeConn), h.conns[n]? = some conn →
      ∃ conn', conns[n]? = some conn' ∧ conn.Ages conn') :
    Attached ⟨bridge, conns⟩ where
  registered id generation n kept := by
    obtain ⟨conn, there, own, phase⟩ := att.registered id generation n (fewer id generation n kept)
    obtain ⟨conn', there', aged⟩ := ages n conn there
    refine ⟨conn', there', aged.serverId.trans own, ?_⟩
    rcases phase with ⟨running, receiving⟩ | grace
    · exact aged.running generation running receiving
    · exact Or.inr (aged.grace generation grace)
  hello c under := by
    rw [same] at under
    obtain ⟨conn, there, own, phase, receiving⟩ := att.hello c under
    obtain ⟨conn', there', aged⟩ := ages c.tx conn there
    exact ⟨conn', there', aged.serverId.trans own, aged.hello phase receiving⟩
  apart := by
    rw [same]
    exact att.apart
  sorted := sorted

theorem modify (att : h.Attached) (n : Nat) {f : BridgeConn → BridgeConn}
    (aged : ∀ conn : BridgeConn, conn.Ages (f conn)) :
    Attached { h with conns := h.conns.modify n f } := by
  refine att.age (fun _ _ _ kept => kept) rfl att.sorted (fun m conn there => ?_)
  rw [List.getElem?_modify, there]
  by_cases own : n = m
  · exact ⟨f conn, by simp [own], aged conn⟩
  · exact ⟨conn, by simp [own], .refl conn⟩

/-- A turn that brings no connection and leaves the entries it keeps their connections. -/
theorem turn (att : h.Attached) (step : BridgeStep Nat)
    (same : (h.bridge.step step).1.registering = h.bridge.registering)
    (kept : ∀ id c', (h.bridge.step step).1.registry.inner.lookup id = some c' →
      ∃ c, h.bridge.registry.inner.lookup id = some c ∧ c'.conns = c.conns) :
    (h.turn step).Attached := by
  refine att.age (fun id generation n there => ?_) same (fun id c' there => ?_)
    (fun n conn there => ⟨conn, there, .refl conn⟩)
  · obtain ⟨c', stored', under⟩ := Option.bind_eq_some_iff.mp there
    obtain ⟨c, stored, conns⟩ := kept id c' stored'
    rw [BridgeRegistry.conn, stored, Option.bind_some, ← conns, under]
  · obtain ⟨c, stored, conns⟩ := kept id c' there
    rw [conns]
    exact att.sorted id c stored

theorem hello_step (att : h.Attached) (id url label : String) :
    (h.step (.hello id url label)).Attached where
  registered id' generation n there := by
    obtain ⟨conn, stored, rest⟩ := att.registered id' generation n there
    exact ⟨conn, (List.getElem?_append_left (List.getElem?_eq_some_iff.mp stored).1).trans stored,
      rest⟩
  hello c under := by
    rcases List.mem_append.mp under with old | new
    · obtain ⟨conn, stored, rest⟩ := att.hello c old
      exact ⟨conn, (List.getElem?_append_left (List.getElem?_eq_some_iff.mp stored).1).trans
        stored, rest⟩
    · rw [List.mem_singleton.mp new]
      exact ⟨⟨id, .hello, true, []⟩, List.getElem?_concat_length, rfl, rfl, rfl⟩
  apart := by
    have fresh : h.conns.length ∉ h.bridge.registering.map (fun c => c.tx) := by
      intro taken
      obtain ⟨c, under, place⟩ := List.mem_map.mp taken
      obtain ⟨conn, stored, -⟩ := att.hello c under
      rw [place] at stored
      exact absurd (List.getElem?_eq_some_iff.mp stored).1 (Nat.lt_irrefl _)
    have after : (h.step (.hello id url label)).bridge.registering.map (fun c => c.tx) =
        h.bridge.registering.map (fun c => c.tx) ++ [h.conns.length] := List.map_append
    rw [after]
    exact List.nodup_append'.mpr ⟨att.apart, List.nodup_singleton _,
      List.disjoint_singleton.mpr fresh⟩
  sorted := att.sorted

theorem register_step (att : h.Attached) (place : Nat) : (h.step (.register place)).Attached := by
  unfold step
  dsimp only
  cases under : h.bridge.registering[place]? with
  | none => exact att
  | some c =>
    dsimp only
    obtain ⟨within, rfl⟩ := List.getElem?_eq_some_iff.mp under
    rw [BridgeHost.turn, Bridge.step_register_some under]
    obtain ⟨own, stored, server, phase, receiving⟩ :=
      att.hello _ (List.getElem_mem within)
    have apart : (h.bridge.registering[place].tx ::
        (h.bridge.registering.eraseIdx place).map (fun c => c.tx)).Nodup :=
      ((List.getElem_cons_eraseIdx_perm within).map
        (fun c : Registering Nat => c.tx)).nodup_iff.mpr att.apart
    obtain ⟨fresh, apart⟩ := List.nodup_cons.mp apart
    refine ⟨fun id generation n there => ?_, fun c later => ?_, apart, fun id c' there => ?_⟩
    · rw [BridgeRegistry.conn_register] at there
      split at there
      · rename_i same
        cases there
        rw [same.1, same.2]
        refine ⟨{ own with phase := .running _ }, ?_, server, Or.inl ⟨rfl, receiving⟩⟩
        rw [List.getElem?_modify_eq, stored]
        rfl
      · obtain ⟨conn, stored', rest, busy⟩ := att.registered id generation n there
        have other : h.bridge.registering[place].tx ≠ n := by
          rintro rfl
          cases stored.symm.trans stored'
          rcases busy with ⟨running, -⟩ | grace
          · cases phase.symm.trans running
          · cases phase.symm.trans grace
        exact ⟨conn, (List.getElem?_modify_ne _ _ other).trans stored', rest, busy⟩
    · obtain ⟨conn, stored', rest⟩ := att.hello c (List.mem_of_mem_eraseIdx later)
      have other : h.bridge.registering[place].tx ≠ c.tx := fun same =>
        fresh (same ▸ List.mem_map_of_mem later)
      exact ⟨conn, (List.getElem?_modify_ne _ _ other).trans stored', rest⟩
    · rw [BridgeRegistry.lookup_register] at there
      split at there
      · cases there
        cases before : h.bridge.registry.inner.lookup id with
        | none => exact List.pairwise_singleton _ _
        | some c => exact (att.sorted id c before).insert
      · exact att.sorted id c' there

theorem unregister_step (att : h.Attached) (n : Nat) : (h.step (.unregister n)).Attached := by
  unfold step
  dsimp only
  split
  · rename_i serverId generation receiving frames own
    refine ⟨fun id g m there => ?_, fun c under => ?_, att.apart, fun id c' there => ?_⟩
    · have left : (h.bridge.registry.unregister serverId generation).2.conn id g = some m := there
      rw [BridgeRegistry.conn_unregister] at left
      split at left
      · cases left
      · rename_i another
        obtain ⟨conn, stored, rest, busy⟩ := att.registered id g m left
        have other : n ≠ m := by
          rintro rfl
          cases own.symm.trans stored
          rcases busy with ⟨running, -⟩ | grace
          · cases running
          · cases grace
            exact another ⟨rest.symm, rfl⟩
        exact ⟨conn, (List.getElem?_set_ne other).trans stored, rest, busy⟩
    · obtain ⟨conn, stored, rest, phase, there⟩ := att.hello c under
      have other : n ≠ c.tx := by
        rintro rfl
        cases own.symm.trans stored
        cases phase
      exact ⟨conn, (List.getElem?_set_ne other).trans stored, rest, phase, there⟩
    · have left : (h.bridge.registry.unregister serverId generation).2.inner.lookup id =
          some c' := there
      rw [BridgeRegistry.lookup_unregister] at left
      split at left
      · obtain ⟨c, before, kept⟩ := Option.bind_eq_some_iff.mp left
        obtain ⟨conns, fewer, rfl⟩ := BridgeRegistry.unregistered_eq_some kept
        exact (att.sorted id c before).sublist fewer
      · exact att.sorted id c' left
  · exact att

theorem step (att : h.Attached) (step : BridgeHostStep) : (h.step step).Attached := by
  cases step with
  | hello id url label => exact att.hello_step id url label
  | register place => exact att.register_step place
  | inbound n =>
    unfold BridgeHost.step
    dsimp only
    split
    · rename_i serverId _ _ _ _
      refine att.turn _ rfl (fun id c' stored => ?_)
      have touched : (h.bridge.registry.touch h.bridge.now serverId).inner.lookup id = some c' :=
        stored
      rw [BridgeRegistry.lookup_touch] at touched
      split at touched
      · obtain ⟨c, before, rfl⟩ := Option.map_eq_some_iff.mp touched
        exact ⟨c, before, rfl⟩
      · exact ⟨c', touched, rfl⟩
    · exact att
  | leave n =>
    refine att.modify n (fun conn => ?_)
    obtain ⟨serverId, phase, receiving, frames⟩ := conn
    cases phase <;> constructor <;> simp
  | hangUp n =>
    refine att.modify n (fun conn => ?_)
    obtain ⟨serverId, phase, receiving, frames⟩ := conn
    cases phase <;> constructor <;> simp
  | unregister n => exact att.unregister_step n
  | rename id label =>
    refine att.turn _ rfl (fun id' c' stored => ?_)
    have renamed : (h.bridge.registry.rename id label).2.inner.lookup id' = some c' := stored
    rw [BridgeRegistry.lookup_rename] at renamed
    split at renamed
    · obtain ⟨c, before, rfl⟩ := Option.map_eq_some_iff.mp renamed
      exact ⟨c, before, rfl⟩
    · exact ⟨c', renamed, rfl⟩
  | forget id =>
    refine att.turn _ rfl (fun id' c' stored => ?_)
    have left : (h.bridge.registry.forget id).2.inner.lookup id' = some c' := stored
    rw [BridgeRegistry.lookup_forget] at left
    split at left
    · cases left
    · exact ⟨c', left, rfl⟩
  | reapStale iter delay timeout =>
    refine att.turn _ rfl (fun id' c' stored => ?_)
    have left : (h.bridge.registry.reapStale iter (fun id => h.bridge.now + delay id)
        timeout).2.inner.lookup id' = some c' := stored
    rw [BridgeRegistry.lookup_reapStale] at left
    split at left
    · cases left
    · exact ⟨c', left, rfl⟩
  | elapse duration => exact att.turn _ rfl (fun id c stored => ⟨c, stored, rfl⟩)
  | sendCommand id command =>
    unfold BridgeHost.step sendCommand
    dsimp only
    split
    · split
      · rename_i n _ _ conn there
        split
        · refine att.age (fun _ _ _ kept => kept) rfl att.sorted (fun m conn' there' => ?_)
          by_cases own : n = m
          · subst own
            cases there.symm.trans there'
            exact ⟨_, List.getElem?_set_self (List.getElem?_eq_some_iff.mp there).1,
              ⟨rfl, fun phase rec => ⟨phase, rec⟩, fun _ phase rec => Or.inl ⟨phase, rec⟩,
                fun _ phase => phase⟩⟩
          · exact ⟨conn', (List.getElem?_set_ne own).trans there', .refl conn'⟩
        · exact att
      · exact att
    · exact att

theorem run (steps : List BridgeHostStep) : (BridgeHost.run steps).Attached :=
  foldl_invariant Attached (fun _ step att => att.step step) steps _ new

/-- The newest connection of a server is live, or past its loop and not yet unregistered. -/
theorem newest (att : h.Attached) {id : String} {n : Nat} (newest : h.newest id = some n) :
    h.Live id n ∨ ∃ generation conn, h.conns[n]? = some conn ∧ conn.phase = .grace generation := by
  obtain ⟨c, stored, last⟩ := Option.bind_eq_some_iff.mp newest
  obtain ⟨⟨generation, m⟩, latest, rfl⟩ := Option.map_eq_some_iff.mp last
  have registered : h.bridge.registry.conn id generation = some m := by
    rw [BridgeRegistry.conn, stored, Option.bind_some]
    exact (att.sorted id c stored).get?_of_mem (List.mem_of_getLast? latest)
  obtain ⟨conn, there, -, ⟨running, receiving⟩ | grace⟩ := att.registered id generation m registered
  · exact Or.inl ⟨generation, conn, registered, there, running, receiving⟩
  · exact Or.inr ⟨generation, conn, there, grace⟩

end Attached

/-! ## Commands in a run -/

/-- In every state a run reaches a command to a server is delivered exactly when the newest of the
connections registered for it is live, or none is; where it is not live it is in its grace period.
So the commands of a run are delivered exactly when each is sent in such a state. -/
theorem command_delivered_iff (steps : List BridgeHostStep) :
    (∀ id command, (BridgeHost.run steps).Delivers id command ↔
      (BridgeHost.run steps).NewestLive id) ∧
    (∀ id n, (BridgeHost.run steps).newest id = some n → (BridgeHost.run steps).Live id n ∨
      ∃ generation conn, (BridgeHost.run steps).conns[n]? = some conn ∧
        conn.phase = .grace generation) ∧
    (Along BridgeHost.step (fun h s => ∀ id command, s = .sendCommand id command →
        h.Delivers id command) .new steps ↔
      Along BridgeHost.step (fun h s => ∀ id command, s = .sendCommand id command →
        h.NewestLive id) .new steps) := by
  refine ⟨fun id command => delivers_iff, fun id n newest => (Attached.run steps).newest newest, ?_⟩
  simp only [delivers_iff]

/-- Two connections of one server, of which the newer one drops. -/
def overlapping : List BridgeHostStep :=
  [.hello "a" "http://a" "A", .register 0, .hello "a" "http://a" "A", .register 0, .leave 1,
    .hangUp 1]

/-- The command of that server reaches nobody, though its older connection is live. -/
theorem overlapping_dropped :
    (BridgeHost.run overlapping).Live "a" 0 ∧
    (BridgeHost.run overlapping).sendCommand "a" "workbench.action.quickOpen" =
      (false, BridgeHost.run overlapping) ∧
    ¬ (BridgeHost.run overlapping).Delivers "a" "workbench.action.quickOpen" := by
  have live : (BridgeHost.run overlapping).Live "a" 0 :=
    ⟨0, ⟨"a", .running 0, true, []⟩, by decide, rfl, rfl, rfl⟩
  have refused : (BridgeHost.run overlapping).sendCommand "a" "workbench.action.quickOpen" =
      (false, BridgeHost.run overlapping) := rfl
  refine ⟨live, refused, fun delivers => delivers.refuses ?_ ⟨0, live⟩⟩
  rw [refused]

end BridgeHost

end VsFleet
