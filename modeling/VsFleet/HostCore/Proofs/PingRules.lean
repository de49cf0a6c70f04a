import VsFleet.HostCore.Proofs.FaceSimulation
import VsFleet.HostCore.Proofs.Pings
import VsFleet.Hub.Proofs.SoloExclusive

/-!
# The two rules of who pings

The Hub and a face each decide on their own whether a session pings. They part on a session that is
both muted and soloed: the Hub lets the mute win, the face the solo. Only a session that is new to
the Hub can bring both flags.
-/

namespace VsFleet

namespace StateStore

variable (store : StateStore)

/-- The inbox a face builds from the snapshot of the Hub. -/
def inbox : InboxView := (InboxModel.new.apply (.ofSnapshot store.snapshot)).view

/-- The tab of a session is in the inbox and pings where the session does. -/
def PingsAlike (s : Session) : Prop :=
  (store.inbox.tab s.sessionId).map (fun tab => VsFleet.shouldNotify tab store.inbox.tabs) =
    some (s.shouldNotifySession store.engine.anySoloed)

/-- A session new to the Hub is not both muted and soloed. -/
def UnmixedArrival (arrival : IterOrder Session × ClientMessage) : Prop :=
  match arrival.2 with
  | .sessionUpsert session => store.engine.session session.sessionId = none →
    store.log.faults.headD false = false → ¬ (session.muted = true ∧ session.soloed = true)
  | _ => True

variable {store}

theorem inbox_eq {F : Fleet} (h : Refines store.engine F) : store.inbox = viewOf F.sessions := by
  have snapshot : store.snapshot = F.sessions := h.snapshot
  rw [inbox, snapshot]
  exact (InboxModel.holds_snapshot .new).view

/-- The rules part exactly on a waiting session that is both muted and soloed. -/
theorem pingsAlike_iff {F : Fleet} (h : Refines store.engine F) {s : Session}
    (hs : s ∈ F.sessions) :
    store.PingsAlike s ↔ ¬ (s.rollupState = .waiting ∧ s.muted = true ∧ s.soloed = true) := by
  have tab : (viewOf F.sessions).tab s.sessionId = some (sessionToTab s) :=
    InboxView.tab_of_mem (viewOf_distinct F.distinct) (List.mem_map_of_mem hs)
  have soloed : s.soloed = true → F.anySoloed = true := fun solo =>
    Fleet.anySoloed_eq_true_iff.mpr ⟨s, hs, solo⟩
  unfold PingsAlike
  rw [inbox_eq h, tab, Option.map_some, shouldNotify_sessionToTab, h.anySoloed,
    Option.some.injEq]
  unfold PingKey.notifies Session.pingKey Session.shouldNotifySession
  rw [show F.sessions.any (fun s => s.soloed) = F.anySoloed from rfl]
  cases any : F.anySoloed with
  | false =>
    have silent : s.soloed = false := by
      rw [Bool.eq_false_iff]
      exact fun solo => absurd (any.symm.trans (soloed solo)) Bool.false_ne_true
    simp [silent]
  | true => cases s.muted <;> cases s.soloed <;> simp

theorem receive_apart {F : Fleet} (h : Refines store.engine F) (apart : F.Apart)
    (arrival : IterOrder Session × ClientMessage) (unmixed : store.UnmixedArrival arrival) :
    ∃ F', Refines (store.receive arrival).engine F' ∧ F'.Apart := by
  obtain ⟨iter, msg⟩ := arrival
  by_cases upsert : ∃ session, msg = .sessionUpsert session
  · obtain ⟨session, rfl⟩ := upsert
    change ∃ F', Refines (store.applySessionUpsert session).2.engine F' ∧ F'.Apart
    rw [applySessionUpsert]
    cases fault : store.log.faults.headD false with
    | true =>
      rw [logAndApply_failed store _ fault]
      exact ⟨F, h, apart⟩
    | false =>
      rw [logAndApply_ok store _ fault]
      refine ⟨_, h.upsertSession (store.preserveHubOwnedFields session), apart.upsert ?_⟩
      unfold preserveHubOwnedFields
      cases held : store.engine.session session.sessionId with
      | none =>
        intro muted
        rw [Bool.eq_false_iff]
        exact fun solo => unmixed held fault ⟨muted, solo⟩
      | some existing =>
        rw [h.session] at held
        exact apart existing (Fleet.get?_eq_some_iff.mp held).1
  · rcases (store.applyMessage_did iter msg).refines h with h' | ⟨m, hm, h'⟩
    · exact ⟨F, h', apart⟩
    · refine ⟨_, h', apart.mutate m (fun session put => ?_)⟩
      subst put
      obtain ⟨sent, eq, -⟩ := mutationOf_upsertSession hm
      exact absurd ⟨sent, eq⟩ upsert

end StateStore

/-- In every state of a Hub a session pings alike on both sides exactly unless it is waiting and
both muted and soloed, and no session of a run is, where none that is new to the Hub brings both
flags. -/
theorem pings_alike_iff (log : EventLog) (msgs : List (IterOrder Session × ClientMessage)) :
    let store := msgs.foldl StateStore.receive (.fromLog log)
    (∀ s ∈ store.snapshot, store.PingsAlike s ↔
      ¬ (s.rollupState = .waiting ∧ s.muted = true ∧ s.soloed = true)) ∧
    ((∀ s ∈ (StateStore.fromLog log).snapshot, ¬ (s.muted = true ∧ s.soloed = true)) →
      Along StateStore.receive StateStore.UnmixedArrival (.fromLog log) msgs →
      ∀ s ∈ store.snapshot, store.PingsAlike s) := by
  intro store
  obtain ⟨F, opened⟩ := log.restored_refines
  constructor
  · have step : ∀ (store : StateStore) arrival, (∃ G, Refines store.engine G) →
        ∃ G, Refines (store.receive arrival).engine G := by
      intro store arrival known
      obtain ⟨G, h⟩ := known
      exact StateStore.receive_refines h arrival
    obtain ⟨G, h⟩ : ∃ G, Refines store.engine G := foldl_invariant
      (fun store : StateStore => ∃ G, Refines store.engine G) step msgs _ ⟨F, opened⟩
    intro s hs
    exact StateStore.pingsAlike_iff h (h.snapshot ▸ hs)
  · intro unmixed arrives
    have apart : F.Apart := by
      intro s hs muted
      have there : s ∈ (StateStore.fromLog log).snapshot := by
        rw [StateStore.snapshot]
        exact opened.snapshot.symm ▸ hs
      rw [Bool.eq_false_iff]
      exact fun solo => unmixed s there ⟨muted, solo⟩
    have step : ∀ (store : StateStore) arrival, (∃ G, Refines store.engine G ∧ G.Apart) →
        store.UnmixedArrival arrival → ∃ G, Refines (store.receive arrival).engine G ∧ G.Apart := by
      intro store arrival known fits
      obtain ⟨G, h, apart⟩ := known
      exact StateStore.receive_apart h apart arrival fits
    obtain ⟨G, h, apart⟩ := arrives.invariant
      (P := fun store : StateStore => ∃ G, Refines store.engine G ∧ G.Apart) step msgs _
      ⟨F, opened, apart⟩
    intro s hs
    have there : s ∈ G.sessions := h.snapshot ▸ hs
    refine (StateStore.pingsAlike_iff h there).mpr ?_
    rintro ⟨-, muted, solo⟩
    exact absurd ((apart s there muted).symm.trans solo) Bool.false_ne_true

/-- A waiting session arrives muted and soloed: the Hub is silent, the face pings. -/
theorem muted_solo_arrival :
    ¬ ∀ (log : EventLog) (msgs : List (IterOrder Session × ClientMessage)),
      let store := msgs.foldl StateStore.receive (.fromLog log)
      ∀ s ∈ store.snapshot, store.PingsAlike s := by
  intro alike
  have all := alike (.holding [] []) [(.asStored Session, .sessionUpsert
    { Session.plain "a" [.plain "r" "n" .waiting] with muted := true, soloed := true })]
  revert all
  unfold StateStore.PingsAlike
  decide

end VsFleet
