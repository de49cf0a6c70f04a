import VsFleet.Host.PhoneHome
import VsFleet.Host.Proofs.RegistrySteps
import VsFleet.Misc.Runs

/-!
# Only the servers of Fleet get in

Every row of the registry goes back to a hello that carried the token; and the token a server was
started with is the one its hello carries and every later start of Fleet expects, so the server
comes back to the registry of a Fleet that was restarted.
-/

namespace VsFleet

/-! ## The door -/

namespace Bridge

variable {τ : Type} {b : Bridge τ} {ok : String → String → String → Prop}

/-- The url of every row, and its label while the user has not renamed it, go together with its id,
and so do those of the registrations under way. -/
structure Vouched (ok : String → String → String → Prop) (b : Bridge τ) : Prop where
  rows : ∀ id c, b.registry.inner.lookup id = some c →
    ∃ label, ok id c.url label ∧ (c.renamed = false → c.label = label)
  calls : ∀ c ∈ b.registering, ok c.id c.url c.label

theorem Vouched.mono (h : b.Vouched ok) {ok' : String → String → String → Prop}
    (weaker : ∀ id url label, ok id url label → ok' id url label) : b.Vouched ok' := by
  refine ⟨fun id c found => ?_, fun c hc => weaker _ _ _ (h.calls c hc)⟩
  obtain ⟨label, vouched, same⟩ := h.rows id c found
  exact ⟨label, weaker _ _ _ vouched, same⟩

/-- The row was there before with its url, and with its label unless it is renamed. -/
def Kept (r : BridgeRegistry τ) (id : String) (c : ServerConnSet τ) : Prop :=
  ∃ before, r.inner.lookup id = some before ∧ c.url = before.url ∧
    (c.renamed = false → before.renamed = false ∧ c.label = before.label)

theorem Kept.refl {r : BridgeRegistry τ} {id : String} {c : ServerConnSet τ}
    (found : r.inner.lookup id = some c) : Kept r id c :=
  ⟨c, found, rfl, fun unnamed => ⟨unnamed, rfl⟩⟩

/-- Rows that are kept stay vouched for. -/
theorem Vouched.edit (h : b.Vouched ok) {registry : BridgeRegistry τ}
    (kept : ∀ id c, registry.inner.lookup id = some c → Kept b.registry id c) :
    Vouched ok { b with registry } := by
  refine ⟨fun id c found => ?_, h.calls⟩
  obtain ⟨before, held, url, told⟩ := kept id c found
  obtain ⟨label, vouched, same⟩ := h.rows id before held
  refine ⟨label, url ▸ vouched, fun unnamed => ?_⟩
  obtain ⟨unnamed, same'⟩ := told unnamed
  exact same'.trans (same unnamed)

theorem Vouched.draw (h : b.Vouched ok) {id url label : String} (tx : τ)
    (vouched : ok id url label) : (b.step (.draw id tx url label)).1.Vouched ok := by
  refine ⟨h.rows, fun c hc => ?_⟩
  rcases List.mem_append.mp hc with old | new
  · exact h.calls c old
  · rw [List.mem_singleton.mp new]
    exact vouched

theorem Vouched.register (h : b.Vouched ok) (place : Nat) :
    (b.step (.register place)).1.Vouched ok := by
  cases under : b.registering[place]? with
  | none =>
    rw [Bridge.step_register_none under]
    exact h
  | some call =>
    have vouched := h.calls call (List.mem_of_getElem? under)
    rw [Bridge.step_register_some under]
    refine ⟨fun id c found => ?_, fun c hc => h.calls c (List.mem_of_mem_eraseIdx hc)⟩
    simp only [BridgeRegistry.lookup_register] at found
    split at found
    · rename_i own
      subst own
      obtain rfl := Option.some.inj found
      refine ⟨call.label, ?_, ?_⟩
      · cases b.registry.inner.lookup call.id <;> exact vouched
      · cases b.registry.inner.lookup call.id with
        | none => exact fun _ => rfl
        | some before =>
          intro unnamed
          exact if_neg (by simpa [BridgeRegistry.registered] using unnamed)
    · exact h.rows id c found

/-- Every other turn takes rows away, renames one, or touches one. -/
theorem Vouched.turn (h : b.Vouched ok) {step : BridgeStep τ}
    (other : ∀ id tx url label, step ≠ .draw id tx url label) : (b.step step).1.Vouched ok := by
  cases step with
  | draw id tx url label => exact absurd rfl (other id tx url label)
  | register place => exact h.register place
  | unregister id generation =>
    have kept : ∀ id' c, ((b.registry.unregister id generation).2).inner.lookup id' = some c →
        Kept b.registry id' c := by
      intro id' c found
      rw [BridgeRegistry.lookup_unregister] at found
      split at found
      · obtain ⟨before, held, left⟩ := Option.bind_eq_some_iff.mp found
        unfold BridgeRegistry.unregistered at left
        dsimp only at left
        split at left
        · split at left
          · cases left
          · cases left
            exact ⟨before, held, rfl, fun unnamed => ⟨unnamed, rfl⟩⟩
        · cases left
          exact .refl held
      · exact .refl found
    exact h.edit kept
  | rename id label =>
    have kept : ∀ id' c, ((b.registry.rename id label).2).inner.lookup id' = some c →
        Kept b.registry id' c := by
      intro id' c found
      rw [BridgeRegistry.lookup_rename] at found
      split at found
      · obtain ⟨before, held, rfl⟩ := Option.map_eq_some_iff.mp found
        exact ⟨before, held, rfl, nofun⟩
      · exact .refl found
    exact h.edit kept
  | forget id =>
    have kept : ∀ id' c, ((b.registry.forget id).2).inner.lookup id' = some c →
        Kept b.registry id' c := by
      intro id' c found
      rw [BridgeRegistry.lookup_forget] at found
      split at found
      · cases found
      · exact .refl found
    exact h.edit kept
  | touch id =>
    have kept : ∀ id' c, (b.registry.touch b.now id).inner.lookup id' = some c →
        Kept b.registry id' c := by
      intro id' c found
      rw [BridgeRegistry.lookup_touch] at found
      split at found
      · obtain ⟨before, held, rfl⟩ := Option.map_eq_some_iff.mp found
        exact ⟨before, held, rfl, fun unnamed => ⟨unnamed, rfl⟩⟩
      · exact .refl found
    exact h.edit kept
  | reapStale iter delay timeout =>
    have kept : ∀ id' c,
        ((b.registry.reapStale iter (fun id => b.now + delay id) timeout).2).inner.lookup id' =
          some c → Kept b.registry id' c := by
      intro id' c found
      rw [BridgeRegistry.lookup_reapStale] at found
      split at found
      · cases found
      · exact .refl found
    exact h.edit kept
  | elapse duration => exact ⟨h.rows, h.calls⟩

end Bridge

/-- A step of the host that is no hello brings in no registration. -/
theorem BridgeHost.vouched_step {ok : String → String → String → Prop} {host : BridgeHost}
    (h : host.bridge.Vouched ok) {step : BridgeHostStep}
    (other : ∀ id url label, step ≠ .hello id url label) :
    (host.step step).bridge.Vouched ok := by
  cases step with
  | hello id url label => exact absurd rfl (other id url label)
  | register place =>
    rw [BridgeHost.step]
    split
    · exact h
    · exact h.register place
  | inbound n =>
    rw [BridgeHost.step]
    split
    · exact h.turn (by simp)
    · exact h
  | leave n => exact h
  | hangUp n => exact h
  | unregister n =>
    rw [BridgeHost.step]
    split
    · exact h.turn (by simp)
    · exact h
  | rename id label => exact h.turn (by simp)
  | forget id => exact h.turn (by simp)
  | reapStale iter delay timeout => exact h.turn (by simp)
  | elapse duration => exact h.turn (by simp)
  | sendCommand serverId command =>
    rw [BridgeHost.step, BridgeHost.sendCommand]
    split
    · split
      · split <;> exact h
      · exact h
    · exact h

/-- What an accepted hello says. -/
theorem parseHello_accept {v : Json} {expectedToken : String} {hello : Hello}
    (accepts : parseHello v expectedToken = .accept hello) :
    (v.get? "type").bind Json.asString = some "hello" ∧
      (v.get? "server_id").bind Json.asString = some hello.serverId ∧
      (expectedToken ≠ "" → (v.get? "token").bind Json.asString = some expectedToken) ∧
      hello.url = ((v.get? "url").bind Json.asString).getD "" ∧
      hello.label = ((v.get? "label").bind Json.asString).getD hello.serverId := by
  unfold parseHello at accepts
  split at accepts
  · cases accepts
  · rename_i type
    split at accepts
    · cases accepts
    · rename_i id serverId
      dsimp only at accepts
      split at accepts
      · cases accepts
      · rename_i token
        cases accepts
        refine ⟨not_not.mp type, serverId, fun expects => ?_, rfl, rfl⟩
        have same : ((v.get? "token").bind Json.asString).getD "" = expectedToken :=
          not_not.mp (fun differs => token ⟨expects, differs⟩)
        cases sent : (v.get? "token").bind Json.asString with
        | none =>
          rw [sent] at same
          exact absurd same.symm expects
        | some token =>
          rw [sent] at same
          exact congrArg some same

namespace Door

variable {expectedToken : String} {door : Door}

/-- An accepted hello names the id, the url and the label. -/
def Told (expectedToken : String) (door : Door) (id url label : String) : Prop :=
  ∃ v ∈ door.accepted, parseHello v expectedToken = .accept ⟨id, url, label⟩

theorem vouched_step (h : door.host.bridge.Vouched (door.Told expectedToken)) (step : DoorStep) :
    (door.step expectedToken step).host.bridge.Vouched
      ((door.step expectedToken step).Told expectedToken) := by
  cases step with
  | dial => exact h
  | read place frame =>
    simp only [Door.step]
    split
    · split
      · rename_i v
        split
        · rename_i hello accepts
          have told : door.host.bridge.Vouched (fun id url label =>
              ∃ w ∈ door.accepted ++ [v], parseHello w expectedToken = .accept ⟨id, url, label⟩) :=
            h.mono (fun id url label ⟨w, mem, same⟩ => ⟨w, List.mem_append_left _ mem, same⟩)
          exact told.draw _ ⟨v, by simp, accepts⟩
        · exact h
        · exact h
      · exact h
      · exact h
      · exact h
    · exact h
  | inside step =>
    cases step with
    | hello id url label => exact h
    | _ => exact BridgeHost.vouched_step h nofun

/-- The accepted texts were read. -/
theorem accepted_step (door : Door) (step : DoorStep) :
    ∀ v ∈ (door.step expectedToken step).accepted, v ∈ door.accepted ∨
      ∃ place, step = .read place (.text (some v)) := by
  intro v mem
  cases step with
  | dial => exact Or.inl mem
  | read place frame =>
    simp only [Door.step] at mem
    split at mem
    · split at mem
      · rename_i w
        split at mem
        · rcases List.mem_append.mp mem with old | new
          · exact Or.inl old
          · exact Or.inr ⟨place, by rw [List.mem_singleton.mp new]⟩
        · exact Or.inl mem
        · exact Or.inl mem
      · exact Or.inl mem
      · exact Or.inl mem
      · exact Or.inl mem
    · exact Or.inl mem
  | inside step =>
    cases step <;> exact Or.inl mem

theorem accepted_read (steps : List DoorStep) : ∀ {door : Door},
    ∀ v ∈ (steps.foldl (Door.step expectedToken) door).accepted, v ∈ door.accepted ∨
      ∃ place, DoorStep.read place (.text (some v)) ∈ steps := by
  induction steps with
  | nil => exact fun v mem => Or.inl mem
  | cons step steps ih =>
    intro door v mem
    rcases ih v mem with early | ⟨place, later⟩
    · rcases door.accepted_step step v early with before | ⟨place, rfl⟩
      · exact Or.inl before
      · exact Or.inr ⟨place, List.mem_cons_self⟩
    · exact Or.inr ⟨place, List.mem_cons_of_mem _ later⟩

/-- In every interleaving of connections, the host's own steps and foreign texts, each row of the
registry goes back to a text that was read in front of the door: a hello with its id and url, with
the token that is expected, and with its label unless the user renamed it. -/
theorem rows_carry_token (expectedToken : String) (steps : List DoorStep) :
    let door := steps.foldl (Door.step expectedToken) .new
    ∀ id c, door.host.bridge.registry.inner.lookup id = some c →
      ∃ place v, DoorStep.read place (.text (some v)) ∈ steps ∧
        (v.get? "type").bind Json.asString = some "hello" ∧
        (v.get? "server_id").bind Json.asString = some id ∧
        (expectedToken ≠ "" → (v.get? "token").bind Json.asString = some expectedToken) ∧
        c.url = ((v.get? "url").bind Json.asString).getD "" ∧
        (c.renamed = false → c.label = ((v.get? "label").bind Json.asString).getD id) := by
  intro door id c found
  have vouched : door.host.bridge.Vouched (door.Told expectedToken) :=
    foldl_invariant (fun door : Door => door.host.bridge.Vouched (door.Told expectedToken))
      (fun _ step h => vouched_step h step) steps _ ⟨nofun, nofun⟩
  obtain ⟨label, ⟨v, mem, accepts⟩, told⟩ := vouched.rows id c found
  obtain ⟨type, serverId, token, url, same⟩ := parseHello_accept accepts
  rcases accepted_read steps v mem with none | ⟨place, read⟩
  · cases none
  · exact ⟨place, v, read, type, serverId, token, url, fun unnamed => (told unnamed).trans same⟩

end Door

end VsFleet
