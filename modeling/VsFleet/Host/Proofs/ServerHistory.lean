import VsFleet.Host.Proofs.RegistrySteps
import VsFleet.Misc.History

/-!
# The history of a server

What the calls that have had their turn say about a server, and that its entry says the same. A call
is about some servers and leaves the history of all others as it is.
-/

namespace VsFleet

/-! ## What a call says about a server -/

namespace BridgeCall

/-- The call has brought the generation to the server. -/
def Registers (id : String) (generation : Nat) : BridgeCall → Prop
  | .register g id' _ _ _ => g = generation ∧ id' = id
  | _ => False

/-- The call has taken the server away. -/
def Removes (id : String) : BridgeCall → Prop
  | .forget id' _ => id' = id
  | .reapStale stale => id ∈ stale
  | _ => False

/-- The call has taken the generation, or the server as a whole, away. -/
def Drops (id : String) (generation : Nat) (call : BridgeCall) : Prop :=
  call.Removes id ∨ ∃ changed, call = .unregister id generation changed

/-- The call has heard from the server. -/
def Hears (id : String) : BridgeCall → Prop
  | .register _ id' _ _ _ => id' = id
  | .touch id' => id' = id
  | _ => False

/-- The url a registration of the server brings. -/
def reportedUrl (id : String) : BridgeCall → Option String
  | .register _ id' url _ _ => if id' = id then some url else none
  | _ => none

/-- The label a registration of the server brings. -/
def reportedLabel (id : String) : BridgeCall → Option String
  | .register _ id' _ label _ => if id' = id then some label else none
  | _ => none

/-- The label the user gives the server. -/
def userLabel (id : String) : BridgeCall → Option String
  | .rename id' label _ => if id' = id then some label else none
  | _ => none

/-- The call is about the server. -/
def Concerns (id : String) : BridgeCall → Prop
  | .register _ id' _ _ _ => id' = id
  | .unregister id' _ _ => id' = id
  | .rename id' _ _ => id' = id
  | .forget id' _ => id' = id
  | .touch id' => id' = id
  | .reapStale stale => id ∈ stale

end BridgeCall

open BridgeCall

/-- The generation has registered for the server and neither it nor the server has gone since. -/
def Registered (id : String) (generation : Nat) (log : List BridgeCall) : Prop :=
  Standing (Registers id generation) (Drops id generation) log

/-- The server has a generation. -/
def Listed (id : String) (log : List BridgeCall) : Prop :=
  ∃ generation, Registered id generation log

/-- The call after `before` brought the server, which has been there throughout `after`. -/
structure Created (id : String) (before : List BridgeCall) (call : BridgeCall)
    (after : List BridgeCall) : Prop where
  fresh : ¬ Listed id before
  brings : ∃ generation, call.Registers id generation
  stays : ∀ mid, mid <+: after → Listed id (before ++ call :: mid)

/-- The label of a server: the last name the user has given it since it was brought, else the label
last reported. -/
def labelOf (id : String) (log after : List BridgeCall) : Option String :=
  (latest (userLabel id) after).or (latest (reportedLabel id) log)

section Log

variable {id : String} {generation : Nat} {log before after : List BridgeCall} {call c : BridgeCall}

theorem registered_concat : Registered id generation (log ++ [call]) ↔
    call.Registers id generation ∨ (Registered id generation log ∧ ¬ call.Drops id generation) :=
  standing_concat

theorem BridgeCall.Registers.concerns (h : call.Registers id generation) : call.Concerns id := by
  cases call <;> first | exact h.2 | exact h.elim

theorem BridgeCall.Drops.concerns (h : call.Drops id generation) : call.Concerns id := by
  rcases h with removes | ⟨changed, rfl⟩
  · cases call <;> first | exact removes | exact removes.elim
  · rfl

theorem registered_concat_of_not_concerns (other : ¬ call.Concerns id) :
    Registered id generation (log ++ [call]) ↔ Registered id generation log := by
  rw [registered_concat]
  constructor
  · rintro (here | ⟨before, -⟩)
    · exact absurd here.concerns other
    · exact before
  · exact fun before => Or.inr ⟨before, fun h => other h.concerns⟩

/-- A server that is there after one more call has been there since it was brought. -/
theorem Created.concat (h : Created id before c after)
    (there : Listed id ((before ++ c :: after) ++ [call])) :
    Created id before c (after ++ [call]) where
  fresh := h.fresh
  brings := h.brings
  stays mid part := by
    rcases List.prefix_concat_iff.mp part with rfl | part
    · simpa using there
    · exact h.stays mid part

theorem Created.start (fresh : ¬ Listed id log) (brings : call.Registers id generation) :
    Created id log call [] where
  fresh := fresh
  brings := ⟨generation, brings⟩
  stays mid part := by
    rw [List.prefix_nil.mp part]
    exact ⟨generation, registered_concat.mpr (Or.inl brings)⟩

end Log

/-! ## The history of a server -/

/-- What the entry of a server says about the calls so far, with their times. -/
structure ServerHistory {τ : Type} (id : String) (entry : Option (ServerConnSet τ))
    (log : List (Nat × BridgeCall)) : Prop where
  conns : ∀ generation, (entry.bind (fun c => SortedMap.get? c.conns generation)).isSome = true ↔
    Registered id generation (log.map Prod.snd)
  nonempty : ∀ c, entry = some c → c.conns ≠ []
  url : ∀ c, entry = some c → latest (reportedUrl id) (log.map Prod.snd) = some c.url
  label : ∀ c, entry = some c → ∃ before call after, log.map Prod.snd = before ++ call :: after ∧
    Created id before call after ∧ labelOf id (log.map Prod.snd) after = some c.label ∧
    c.renamed = (latest (userLabel id) after).isSome
  heard : ∀ c, entry = some c → ∀ e ∈ log, e.2.Hears id → e.1 ≤ c.lastSeen

namespace ServerHistory

variable {τ : Type} {id : String} {entry : Option (ServerConnSet τ)} {c : ServerConnSet τ}
  {log : List (Nat × BridgeCall)} {now : Nat} {call : BridgeCall}

theorem listed_iff (h : ServerHistory id entry log) :
    Listed id (log.map Prod.snd) ↔ entry.isSome = true := by
  constructor
  · rintro ⟨generation, standing⟩
    have here := (h.conns generation).mpr standing
    cases entry with
    | none => cases here
    | some c => rfl
  · intro there
    obtain ⟨c, rfl⟩ := Option.isSome_iff_exists.mp there
    obtain ⟨conn, rest, conns⟩ := List.exists_cons_of_ne_nil (h.nonempty c rfl)
    refine ⟨conn.1, (h.conns conn.1).mp ?_⟩
    rw [Option.bind_some, conns, SortedMap.get?_cons, if_pos rfl]
    rfl

theorem snd_concat : (log ++ [(now, call)]).map Prod.snd = log.map Prod.snd ++ [call] :=
  List.map_append

/-- A server without an entry has no generation. -/
theorem gone (none : ∀ generation, ¬ Registered id generation (log.map Prod.snd)) :
    ServerHistory id (.none : Option (ServerConnSet τ)) log where
  conns generation := iff_of_false Bool.false_ne_true (none generation)
  nonempty c h := by cases h
  url c h := by cases h
  label c h := by cases h
  heard c h := by cases h

/-- A call after which the server is there as it was before it. -/
theorem kept (h : ServerHistory id (some c) log) {c' : ServerConnSet τ}
    (conns : ∀ generation, (SortedMap.get? c'.conns generation).isSome = true ↔
      Registered id generation (log.map Prod.snd ++ [call]))
    (nonempty : c'.conns ≠ [])
    (url : (call.reportedUrl id).or (some c.url) = some c'.url)
    (label : (call.userLabel id).or (if c.renamed then some c.label
      else (call.reportedLabel id).or (some c.label)) = some c'.label)
    (renamed : c'.renamed = ((call.userLabel id).isSome || c.renamed))
    (later : c.lastSeen ≤ c'.lastSeen) (hears : call.Hears id → now ≤ c'.lastSeen) :
    ServerHistory id (some c') (log ++ [(now, call)]) where
  conns generation := by
    rw [snd_concat]
    exact conns generation
  nonempty c'' same := by
    cases same
    exact nonempty
  url c'' same := by
    cases same
    rw [snd_concat, latest_concat, h.url c rfl]
    exact url
  label c'' same := by
    cases same
    obtain ⟨before, first, after, parts, created, told, named⟩ := h.label c rfl
    have there : Listed id ((before ++ first :: after) ++ [call]) := by
      obtain ⟨conn, rest, entries⟩ := List.exists_cons_of_ne_nil nonempty
      refine ⟨conn.1, parts ▸ (conns conn.1).mp ?_⟩
      rw [entries, SortedMap.get?_cons, if_pos rfl]
      rfl
    refine ⟨before, first, after ++ [call], by rw [snd_concat, parts]; simp, created.concat there,
      ?_, ?_⟩
    · rw [← label, snd_concat, labelOf, latest_concat, latest_concat, Option.or_assoc]
      congr 1
      unfold labelOf at told
      -- a name given by the user hides what is reported from then on
      cases given : latest (userLabel id) after with
      | some name =>
        rw [given, Option.some_or] at told
        rw [named, given, Option.isSome_some, if_pos rfl, Option.some_or, told]
      | none =>
        rw [given, Option.none_or] at told
        rw [named, given, Option.isSome_none, if_neg Bool.false_ne_true, Option.none_or, told]
    · rw [renamed, named, latest_concat]
      cases call.userLabel id <;> rfl
  heard c'' same := by
    cases same
    intro e logged heard
    rcases List.mem_append.mp logged with old | new
    · exact (h.heard c rfl e old heard).trans later
    · cases List.mem_singleton.mp new
      exact hears heard

/-- A call that is about other servers. -/
theorem other (h : ServerHistory id entry log) (apart : ¬ call.Concerns id) :
    ServerHistory id entry (log ++ [(now, call)]) := by
  have standing : ∀ generation, Registered id generation (log.map Prod.snd ++ [call]) ↔
      Registered id generation (log.map Prod.snd) := fun _ =>
    registered_concat_of_not_concerns apart
  cases entry with
  | none =>
    refine gone (fun generation there => ?_)
    rw [snd_concat, standing, ← h.conns] at there
    cases there
  | some c =>
    have url : call.reportedUrl id = none := by
      cases call <;> first | exact if_neg apart | rfl
    have label : call.reportedLabel id = none := by
      cases call <;> first | exact if_neg apart | rfl
    have user : call.userLabel id = none := by
      cases call <;> first | exact if_neg apart | rfl
    have hears : ¬ call.Hears id := by
      cases call <;> first | exact apart | exact not_false
    refine h.kept (fun generation => ?_) (h.nonempty c rfl) ?_ ?_ ?_ (Nat.le_refl _)
      (fun heard => absurd heard hears)
    · rw [standing]
      exact h.conns generation
    · rw [url, Option.none_or]
    · rw [user, label, Option.none_or, Option.none_or, ite_self]
    · rw [user]
      rfl

theorem removed (takes : call.Removes id) :
    ServerHistory id (none : Option (ServerConnSet τ)) (log ++ [(now, call)]) := by
  refine gone (fun generation there => ?_)
  rw [snd_concat, registered_concat] at there
  rcases there with here | ⟨-, stays⟩
  · cases call <;> first | exact takes | exact here
  · exact stays (Or.inl takes)

theorem register (h : ServerHistory id entry log) (past : ∀ e ∈ log, e.1 ≤ now)
    (seen : ∀ c, entry = some c → c.lastSeen ≤ now) (generation : Nat) (tx : τ) (url label : String)
    (changed : Bool) : ServerHistory id
      (some (BridgeRegistry.registered now generation tx url label entry))
      (log ++ [(now, .register generation id url label changed)]) := by
  have registers : ∀ g, (BridgeCall.register generation id url label changed).Registers id g ↔
      generation = g := fun g => and_iff_left rfl
  have drops : ∀ g, ¬ (BridgeCall.register generation id url label changed).Drops id g := by
    rintro g (removes | ⟨changed', other⟩)
    · exact removes
    · cases other
  have standing : ∀ g, Registered id g (log.map Prod.snd ++
      [.register generation id url label changed]) ↔
        generation = g ∨ Registered id g (log.map Prod.snd) := fun g => by
    rw [registered_concat, registers, and_iff_left (drops g)]
  cases entry with
  | some c =>
    have nonempty : SortedMap.insert generation tx c.conns ≠ [] := by
      cases c.conns with
      | nil => exact List.cons_ne_nil _ _
      | cons conn conns =>
        unfold SortedMap.insert
        split
        · exact List.cons_ne_nil _ _
        · split <;> exact List.cons_ne_nil _ _
    refine h.kept (fun g => ?_) nonempty ?_ ?_ rfl (seen c rfl) (fun _ => Nat.le_refl _)
    · rw [standing, ← h.conns, BridgeRegistry.registered, SortedMap.get?_insert]
      split <;> simp_all
    · simp [reportedUrl, BridgeRegistry.registered]
    · by_cases named : c.renamed = true <;>
        simp [userLabel, reportedLabel, BridgeRegistry.registered, named]
  | none =>
    refine ⟨fun g => ?_, ?_, ?_, ?_, ?_⟩
    · rw [snd_concat, standing, ← h.conns, BridgeRegistry.registered, Option.bind_some,
        SortedMap.get?_cons]
      split <;> simp_all
    · intro c same
      cases same
      exact List.cons_ne_nil _ _
    · intro c same
      cases same
      rw [snd_concat, latest_concat]
      simp [reportedUrl, BridgeRegistry.registered]
    · intro c same
      cases same
      have fresh : ¬ Listed id (log.map Prod.snd) := by
        rw [h.listed_iff]
        exact Bool.false_ne_true
      refine ⟨log.map Prod.snd, _, [], snd_concat, .start fresh ((registers _).mpr rfl), ?_, rfl⟩
      rw [labelOf, snd_concat, latest_concat]
      simp [latest, reportedLabel, BridgeRegistry.registered]
    · intro c same e logged _
      cases same
      rcases List.mem_append.mp logged with old | new
      · exact past e old
      · cases List.mem_singleton.mp new
        exact Nat.le_refl _

theorem unregister (h : ServerHistory id entry log) (generation : Nat) (changed : Bool) :
    ServerHistory id (entry.bind (BridgeRegistry.unregistered generation))
      (log ++ [(now, .unregister id generation changed)]) := by
  have drops : ∀ g, (BridgeCall.unregister id generation changed).Drops id g ↔ g = generation := by
    intro g
    constructor
    · rintro (removes | ⟨changed', same⟩)
      · exact removes.elim
      · cases same
        rfl
    · rintro rfl
      exact Or.inr ⟨changed, rfl⟩
  have standing : ∀ g, Registered id g (log.map Prod.snd ++ [.unregister id generation changed]) ↔
      Registered id g (log.map Prod.snd) ∧ g ≠ generation := fun g => by
    rw [registered_concat, drops]
    exact or_iff_right (fun here => here)
  have conns : ∀ g, (((entry.bind (BridgeRegistry.unregistered generation)).bind (fun c =>
      SortedMap.get? c.conns g)).isSome = true ↔
        Registered id g (log.map Prod.snd ++ [.unregister id generation changed])) := by
    intro g
    rw [standing, ← h.conns, Option.bind_assoc]
    cases entry with
    | none => simp
    | some c =>
      rw [Option.bind_some, Option.bind_some, BridgeRegistry.get?_unregistered]
      split <;> simp_all
  cases after : entry.bind (BridgeRegistry.unregistered generation) with
  | none =>
    refine gone (fun g there => ?_)
    rw [snd_concat, ← conns, after] at there
    cases there
  | some c' =>
    obtain ⟨c, rfl, left⟩ := Option.bind_eq_some_iff.mp after
    rw [after] at conns
    unfold BridgeRegistry.unregistered at left
    split at left
    · dsimp only at left
      split at left
      · cases left
      · rename_i others
        cases left
        exact h.kept conns (fun none => others (List.isEmpty_iff.mpr none)) rfl
          (by simp [userLabel, reportedLabel]) rfl (Nat.le_refl _) (fun heard => heard.elim)
    · cases left
      exact h.kept conns (h.nonempty c' rfl) rfl (by simp [userLabel, reportedLabel]) rfl
        (Nat.le_refl _) (fun heard => heard.elim)

/-- A call that takes and brings no generation of the server, and changes its entry as told. -/
theorem edit (h : ServerHistory id entry log) (f : ServerConnSet τ → ServerConnSet τ)
    (quiet : ∀ g, ¬ call.Registers id g ∧ ¬ call.Drops id g) (conns : ∀ c, (f c).conns = c.conns)
    (url : ∀ c, (call.reportedUrl id).or (some c.url) = some (f c).url)
    (label : ∀ c, (call.userLabel id).or (if c.renamed then some c.label
      else (call.reportedLabel id).or (some c.label)) = some (f c).label)
    (renamed : ∀ c, (f c).renamed = ((call.userLabel id).isSome || c.renamed))
    (later : ∀ c, entry = some c → c.lastSeen ≤ (f c).lastSeen)
    (hears : ∀ c, call.Hears id → now ≤ (f c).lastSeen) :
    ServerHistory id (entry.map f) (log ++ [(now, call)]) := by
  have standing : ∀ g, Registered id g (log.map Prod.snd ++ [call]) ↔
      Registered id g (log.map Prod.snd) := fun g => by
    rw [registered_concat, or_iff_right (quiet g).1, and_iff_left (quiet g).2]
  cases entry with
  | none =>
    refine gone (fun g there => ?_)
    rw [snd_concat, standing, ← h.conns] at there
    cases there
  | some c =>
    refine h.kept (fun g => ?_) ?_ (url c) (label c) (renamed c) (later c rfl) (hears c)
    · rw [standing, conns]
      exact h.conns g
    · rw [conns]
      exact h.nonempty c rfl

theorem rename (h : ServerHistory id entry log) (label : String) (renamed : Bool) :
    ServerHistory id (entry.map (fun c => { c with label, renamed := true }))
      (log ++ [(now, .rename id label renamed)]) := by
  refine h.edit _ (fun g => ⟨not_false, ?_⟩) (fun _ => rfl) (fun _ => rfl) (fun c => ?_)
    (fun c => ?_) (fun _ _ => Nat.le_refl _) (fun _ heard => heard.elim)
  · rintro (removes | ⟨changed, other⟩)
    · exact removes
    · cases other
  · simp [userLabel]
  · simp [userLabel]

theorem touch (h : ServerHistory id entry log) (seen : ∀ c, entry = some c → c.lastSeen ≤ now) :
    ServerHistory id (entry.map (fun c => { c with lastSeen := now }))
      (log ++ [(now, .touch id)]) := by
  refine h.edit _ (fun g => ⟨not_false, ?_⟩) (fun _ => rfl) (fun _ => rfl) (fun c => ?_)
    (fun _ => rfl) seen (fun _ _ => Nat.le_refl _)
  · rintro (removes | ⟨changed, other⟩)
    · exact removes
    · cases other
  · simp [userLabel, reportedLabel]

end ServerHistory

end VsFleet
