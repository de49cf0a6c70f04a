import VsFleet.Host.Proofs.ServerHistory
import VsFleet.Misc.Runs
import Mathlib.Data.List.Perm.Basic

/-!
# The registry by its history

Which servers the bridge registry lists, and how, follows from the calls that have had their turn,
in whatever order the threads got the lock.
-/

namespace VsFleet

/-! ## Runs -/

/-- The generation a call has registered. -/
def BridgeCall.generation : BridgeCall → Option Nat
  | .register generation _ _ _ _ => some generation
  | _ => none

/-- The generations drawn so far: those that have registered and those under way. -/
def Bridge.drawn {τ : Type} (s : Bridge τ × List (Nat × BridgeCall)) : List Nat :=
  s.2.filterMap (fun e => e.2.generation) ++ s.1.registering.map (fun c => c.generation)

/-- The registry and the log of its calls belong together. -/
structure Recorded {τ : Type} (s : Bridge τ × List (Nat × BridgeCall)) : Prop where
  servers : ∀ id, ServerHistory id (s.1.registry.inner.lookup id) s.2
  past : ∀ e ∈ s.2, e.1 ≤ s.1.now
  seen : ∀ id c, s.1.registry.inner.lookup id = some c → c.lastSeen ≤ s.1.now
  apart : (Bridge.drawn s).Nodup
  bound : ∀ generation ∈ Bridge.drawn s, generation < s.1.registry.nextGeneration

namespace Recorded

variable {τ : Type} {b : Bridge τ} {log : List (Nat × BridgeCall)} {call : BridgeCall}
  {r : BridgeRegistry τ}

theorem new : Recorded ((Bridge.new, []) : Bridge τ × List (Nat × BridgeCall)) where
  servers id := ServerHistory.gone (fun _ => not_standing_nil)
  past e h := absurd h List.not_mem_nil
  seen id c h := by cases h
  apart := List.nodup_nil
  bound g h := absurd h List.not_mem_nil

/-- A call that registers nothing has its turn. -/
theorem turn (h : Recorded (b, log))
    (servers : ∀ id, ServerHistory id (r.inner.lookup id) (log ++ [(b.now, call)]))
    (seen : ∀ id c, r.inner.lookup id = some c → c.lastSeen ≤ b.now)
    (none : call.generation = none) (next : r.nextGeneration = b.registry.nextGeneration) :
    Recorded ({ b with registry := r }, log ++ [(b.now, call)]) where
  servers := servers
  past e logged := by
    rcases List.mem_append.mp logged with old | new
    · exact h.past e old
    · cases List.mem_singleton.mp new
      exact Nat.le_refl _
  seen := seen
  apart := by
    have drawn := h.apart
    simpa only [Bridge.drawn, List.filterMap_append, List.filterMap_cons, none,
      List.filterMap_nil, List.append_nil] using drawn
  bound g drawn := by
    rw [next]
    refine h.bound g ?_
    simpa only [Bridge.drawn, List.filterMap_append, List.filterMap_cons, none,
      List.filterMap_nil, List.append_nil] using drawn

/-- A registration draws its generation. -/
theorem draw (h : Recorded (b, log)) (id : String) (tx : τ) (url label : String) :
    Recorded (Bridge.observe (b, log) (.draw id tx url label)) := by
  have drawn : Bridge.drawn (Bridge.observe (b, log) (.draw id tx url label)) =
      Bridge.drawn (b, log) ++ [b.registry.nextGeneration] := by
    simp [Bridge.drawn, Bridge.observe, Bridge.step, BridgeRegistry.draw]
  have fresh : b.registry.nextGeneration ∉ Bridge.drawn (b, log) := fun there =>
    absurd (h.bound _ there) (Nat.lt_irrefl _)
  refine ⟨?_, ?_, h.seen, ?_, ?_⟩
  · simpa [Bridge.observe, Bridge.step, BridgeRegistry.draw] using h.servers
  · simpa [Bridge.observe, Bridge.step] using h.past
  · rw [drawn]
    exact List.nodup_append'.mpr ⟨h.apart, List.nodup_singleton _,
      List.disjoint_singleton.mpr fresh⟩
  · intro g there
    rw [drawn] at there
    rcases List.mem_append.mp there with old | new
    · exact Nat.lt_succ_of_lt (h.bound g old)
    · rw [List.mem_singleton.mp new]
      exact Nat.lt_succ_self _

/-- A registration under way has its turn. -/
theorem register (h : Recorded (b, log)) (place : Nat) :
    Recorded (Bridge.observe (b, log) (.register place)) := by
  cases under : b.registering[place]? with
  | none =>
    rw [Bridge.observe, Bridge.step_register_none under]
    simpa using h
  | some c =>
    rw [Bridge.observe, Bridge.step_register_some under]
    obtain ⟨within, rfl⟩ := List.getElem?_eq_some_iff.mp under
    have moved : (Bridge.drawn (b, log)).Perm (log.filterMap (fun e => e.2.generation) ++
        b.registering[place].generation ::
          (b.registering.eraseIdx place).map (fun c => c.generation)) := by
      refine List.Perm.append_left _ ?_
      exact ((List.getElem_cons_eraseIdx_perm within).symm.map
        (fun c : Registering τ => c.generation))
    have next : (b.registry.register b.now b.registering[place].generation
        b.registering[place].id b.registering[place].tx b.registering[place].url
        b.registering[place].label).2.nextGeneration = b.registry.nextGeneration := by
      unfold BridgeRegistry.register
      split <;> rfl
    refine ⟨fun id => ?_, ?_, fun id c stored => ?_, ?_, fun g drawn => ?_⟩
    · rw [BridgeRegistry.lookup_register]
      split
      · rename_i same
        subst same
        exact (h.servers _).register h.past (h.seen _) _ _ _ _ _
      · rename_i other
        exact (h.servers id).other (Ne.symm other)
    · intro e logged
      rcases List.mem_append.mp logged with old | new
      · exact h.past e old
      · cases List.mem_singleton.mp new
        exact Nat.le_refl _
    · rw [BridgeRegistry.lookup_register] at stored
      split at stored
      · cases stored
        cases b.registry.inner.lookup id <;> exact Nat.le_refl _
      · exact h.seen id c stored
    · have apart := moved.nodup_iff.mp h.apart
      simpa [Bridge.drawn, BridgeCall.generation] using apart
    · rw [next]
      refine h.bound g (moved.mem_iff.mpr ?_)
      simpa [Bridge.drawn, BridgeCall.generation] using drawn

theorem observe {s : Bridge τ × List (Nat × BridgeCall)} (h : Recorded s) (step : BridgeStep τ) :
    Recorded (Bridge.observe s step) := by
  obtain ⟨b, log⟩ := s
  cases step with
  | draw id tx url label => exact h.draw id tx url label
  | register place => exact h.register place
  | unregister id generation =>
    refine h.turn (r := (b.registry.unregister id generation).2)
      (fun id' => ?_) (fun id' c stored => ?_) rfl ?_
    · rw [BridgeRegistry.lookup_unregister]
      split
      · rename_i same
        subst same
        exact (h.servers id').unregister generation _
      · rename_i other
        exact (h.servers id').other (Ne.symm other)
    · rw [BridgeRegistry.lookup_unregister] at stored
      split at stored
      · obtain ⟨c', before, left⟩ := Option.bind_eq_some_iff.mp stored
        obtain ⟨conns, -, rfl⟩ := BridgeRegistry.unregistered_eq_some left
        exact h.seen id' c' before
      · exact h.seen id' c stored
    · unfold BridgeRegistry.unregister
      split
      · split
        · dsimp only
          split <;> rfl
        · rfl
      · rfl
  | rename id label =>
    refine h.turn (r := (b.registry.rename id label).2)
      (fun id' => ?_) (fun id' c stored => ?_) rfl ?_
    · rw [BridgeRegistry.lookup_rename]
      split
      · rename_i same
        subst same
        exact (h.servers id').rename label _
      · rename_i other
        exact (h.servers id').other (Ne.symm other)
    · rw [BridgeRegistry.lookup_rename] at stored
      split at stored
      · obtain ⟨c', before, rfl⟩ := Option.map_eq_some_iff.mp stored
        exact h.seen id' c' before
      · exact h.seen id' c stored
    · unfold BridgeRegistry.rename
      split <;> rfl
  | forget id =>
    refine h.turn (r := (b.registry.forget id).2)
      (fun id' => ?_) (fun id' c stored => ?_) rfl ?_
    · rw [BridgeRegistry.lookup_forget]
      split
      · rename_i same
        exact ServerHistory.removed same.symm
      · rename_i other
        exact (h.servers id').other (Ne.symm other)
    · rw [BridgeRegistry.lookup_forget] at stored
      split at stored
      · cases stored
      · exact h.seen id' c stored
    · unfold BridgeRegistry.forget
      split <;> rfl
  | touch id =>
    refine h.turn (r := b.registry.touch b.now id)
      (fun id' => ?_) (fun id' c stored => ?_) rfl rfl
    · rw [BridgeRegistry.lookup_touch]
      split
      · rename_i same
        subst same
        exact (h.servers id').touch (h.seen id')
      · rename_i other
        exact (h.servers id').other (Ne.symm other)
    · rw [BridgeRegistry.lookup_touch] at stored
      split at stored
      · obtain ⟨c', -, rfl⟩ := Option.map_eq_some_iff.mp stored
        exact Nat.le_refl _
      · exact h.seen id' c stored
  | reapStale iter delay timeout =>
    refine h.turn (r := (b.registry.reapStale iter (fun id => b.now + delay id) timeout).2)
      (fun id' => ?_) (fun id' c stored => ?_) rfl rfl
    · rw [BridgeRegistry.lookup_reapStale]
      split
      · rename_i taken
        exact ServerHistory.removed taken
      · rename_i other
        exact (h.servers id').other other
    · rw [BridgeRegistry.lookup_reapStale] at stored
      split at stored
      · cases stored
      · exact h.seen id' c stored
  | elapse duration =>
    have later : Bridge.observe (b, log) (.elapse duration) =
        ({ b with now := b.now + duration }, log) := by
      simp [Bridge.observe, Bridge.step]
    rw [later]
    exact ⟨h.servers, fun e logged => (h.past e logged).trans (Nat.le_add_right _ _),
      fun id c stored => (h.seen id c stored).trans (Nat.le_add_right _ _), h.apart, h.bound⟩

theorem run (steps : List (BridgeStep τ)) : Recorded (Bridge.run steps) :=
  foldl_invariant Recorded (fun _ step h => h.observe step) steps _ new

end Recorded

/-! ## The law -/

/-- Whether the answer of a call says that the list has changed; a rename and a touch do not say. -/
def BridgeCall.signal : BridgeCall → Option Bool
  | .register _ _ _ _ changed => some changed
  | .unregister _ _ changed => some changed
  | .forget _ forgotten => some forgotten
  | .reapStale stale => some (!stale.isEmpty)
  | .rename _ _ _ => none
  | .touch _ => none

section Law

variable {τ : Type} {b : Bridge τ} {log : List (Nat × BridgeCall)}
  {iter iter' : IterOrder (Sigma fun _ : String => ServerConnSet τ)}

/-- A call says that the list has changed exactly when it has. -/
theorem Bridge.signal_iff {step : BridgeStep τ} {call : BridgeCall} {changed : Bool}
    (turn : (b.step step).2 = some call) (signalled : call.signal = some changed) : changed = true ↔
      (b.step step).1.registry.servers iter' ≠ b.registry.servers iter := by
  cases step with
  | draw id tx url label => cases turn
  | register place =>
    cases under : b.registering[place]? with
    | none =>
      rw [Bridge.step_register_none under] at turn
      cases turn
    | some c =>
      rw [Bridge.step_register_some under] at turn ⊢
      cases turn
      cases signalled
      exact BridgeRegistry.register_changed
  | unregister id generation =>
    cases turn
    cases signalled
    exact BridgeRegistry.unregister_changed
  | rename id label =>
    cases turn
    cases signalled
  | forget id =>
    cases turn
    cases signalled
    exact BridgeRegistry.forget_changed
  | touch id =>
    cases turn
    cases signalled
  | reapStale iter'' delay timeout =>
    cases turn
    cases signalled
    exact BridgeRegistry.reapStale_changed (r := b.registry) iter''
      (fun id => b.now + delay id) timeout
  | elapse duration => cases turn

theorem Recorded.mem_servers_iff (h : Recorded (b, log)) {id : String} :
    id ∈ (b.registry.servers iter).map (fun s => s.id) ↔ Listed id (log.map Prod.snd) := by
  rw [(h.servers id).listed_iff, List.mem_map, Option.isSome_iff_exists]
  constructor
  · rintro ⟨s, shown, rfl⟩
    obtain ⟨c, stored, -⟩ := BridgeRegistry.mem_servers.mp shown
    exact ⟨c, stored⟩
  · rintro ⟨c, stored⟩
    exact ⟨BridgeRegistry.row id c, BridgeRegistry.mem_servers.mpr ⟨c, stored, rfl⟩, rfl⟩

theorem Recorded.conn_iff (h : Recorded (b, log)) {id : String} {generation : Nat} :
    (b.registry.conn id generation).isSome = true ↔
      Registered id generation (log.map Prod.snd) :=
  (h.servers id).conns generation

/-- After a generation is unregistered the servers are there, as they were, that have another. -/
theorem Recorded.mem_unregister (h : Recorded (b, log)) (id : String) (generation : Nat)
    (s : MuxSession) : s ∈ (b.registry.unregister id generation).2.servers iter' ↔
      s ∈ b.registry.servers iter ∧ ∃ g, ¬ (s.id = id ∧ g = generation) ∧
        Registered s.id g (log.map Prod.snd) := by
  rw [BridgeRegistry.mem_servers, BridgeRegistry.mem_servers]
  constructor
  · rintro ⟨c', stays, same⟩
    obtain ⟨c, stored, shown⟩ := BridgeRegistry.row_unregister stays
    refine ⟨⟨c, stored, same.trans shown.symm⟩, ?_⟩
    obtain ⟨conn, rest, conns⟩ := List.exists_cons_of_ne_nil
      (((h.observe (.unregister id generation)).servers s.id).nonempty c' stays)
    have there : ((b.registry.unregister id generation).2.conn s.id conn.1).isSome = true := by
      rw [BridgeRegistry.conn, stays, Option.bind_some, conns, SortedMap.get?_cons, if_pos rfl]
      rfl
    rw [BridgeRegistry.conn_unregister] at there
    split at there
    · cases there
    · rename_i another
      exact ⟨conn.1, another, h.conn_iff.mp there⟩
  · rintro ⟨⟨c, stored, same⟩, g, another, standing⟩
    have there : ((b.registry.unregister id generation).2.conn s.id g).isSome = true := by
      rw [BridgeRegistry.conn_unregister, if_neg another]
      exact h.conn_iff.mpr standing
    cases stays : (b.registry.unregister id generation).2.inner.lookup s.id with
    | none =>
      rw [BridgeRegistry.conn, stays] at there
      cases there
    | some c' =>
      obtain ⟨c'', stored', shown⟩ := BridgeRegistry.row_unregister stays
      cases stored.symm.trans stored'
      exact ⟨c', rfl, same.trans shown⟩

/-- A server heard from within the timeout stays. -/
theorem Recorded.not_mem_reapStale (h : Recorded (b, log)) {id : String} {t : Nat}
    {call : BridgeCall} (logged : (t, call) ∈ log) (heard : call.Hears id)
    {now : String → Nat} {timeout : Nat} (recent : now id - t ≤ timeout) :
    id ∉ (b.registry.reapStale iter now timeout).1 := by
  intro stale
  obtain ⟨c, stored, silent⟩ := BridgeRegistry.mem_reapStale.mp stale
  have later := (h.servers id).heard c stored (t, call) logged heard
  dsimp only at later
  omega

/-- The registry law. After any turns the list has, once and in the order of the ids, the servers
with a generation that has registered and neither gone nor been taken away since, each with the url
of its latest registration and with the name given by the user since it was brought, else the label
last reported. No two registrations have one generation; taking one out leaves every other one and
the rows of the servers that have one; a call says that the list has changed exactly when it has;
and a sweep leaves a server heard from within the timeout. -/
theorem BridgeRegistry.by_history (steps : List (BridgeStep τ)) :
    let s : Bridge τ × List (Nat × BridgeCall) := Bridge.run steps
    let calls := s.2.map Prod.snd
    (s.1.registry.servers iter).Pairwise (fun a b => a.id < b.id) ∧
    (∀ id, id ∈ (s.1.registry.servers iter).map (fun row => row.id) ↔ Listed id calls) ∧
    (∀ row ∈ s.1.registry.servers iter,
      latest (BridgeCall.reportedUrl row.id) calls = some row.url ∧
      ∃ before call after, calls = before ++ call :: after ∧ Created row.id before call after ∧
        labelOf row.id calls after = some row.label) ∧
    (s.2.filterMap (fun e => e.2.generation)).Nodup ∧
    (∀ id generation,
      (∀ id' g, ¬ (id' = id ∧ g = generation) →
        (s.1.registry.unregister id generation).2.conn id' g = s.1.registry.conn id' g) ∧
      ∀ row, row ∈ (s.1.registry.unregister id generation).2.servers iter' ↔
        row ∈ s.1.registry.servers iter ∧ ∃ g, ¬ (row.id = id ∧ g = generation) ∧
          Registered row.id g calls) ∧
    (∀ step call changed, (s.1.step step).2 = some call → call.signal = some changed →
      (changed = true ↔
        (s.1.step step).1.registry.servers iter' ≠ s.1.registry.servers iter)) ∧
    ∀ id t call (delay : String → Nat) timeout, (t, call) ∈ s.2 → call.Hears id →
      s.1.now + delay id - t ≤ timeout →
      id ∉ (s.1.registry.reapStale iter' (fun id => s.1.now + delay id) timeout).1 := by
  intro s calls
  have h : Recorded s := Recorded.run steps
  refine ⟨pairwise_servers, fun id => h.mem_servers_iff, fun row shown => ?_,
    h.apart.of_append_left, fun id generation => ⟨fun id' g another => ?_, h.mem_unregister _ _⟩,
    fun step call changed turn signalled => Bridge.signal_iff turn signalled,
    fun id t call delay timeout logged heard recent => h.not_mem_reapStale logged heard recent⟩
  · obtain ⟨c, stored, same⟩ := mem_servers.mp shown
    obtain ⟨before, call, after, parts, created, label, -⟩ := (h.servers row.id).label c stored
    rw [same]
    exact ⟨(h.servers row.id).url c stored, before, call, after, parts, created, label⟩
  · rw [conn_unregister, if_neg another]

end Law

end VsFleet
