import VsFleet.Host.Optimistic
import VsFleet.Misc.History
import VsFleet.Misc.Runs
import Mathlib.Data.List.DropRight

/-!
# Optimistic rollback

The shown inbox is the last pushed one with the local mutations of the actions started since then
that have not been rolled back. A failed action is rolled back unless there has been another inbox
since its mutation, whether the host pushed it or another action made it.
-/

namespace VsFleet

/-! ## The history of the rail -/

/-- How a call of the backend went: it succeeded, it failed and the inbox from before was put back,
or it failed and the inbox was left. -/
inductive CallOutcome where
  | succeeded
  | rolledBack
  | left
  deriving DecidableEq

/-- What happens to the rail. -/
inductive RailEvent where
  | pushed (inbox : RenderedInbox)
  | started (n : Nat) (localMutate : Rail → Rail)
  | answered (n : Nat) (outcome : CallOutcome)

namespace RailEvent

/-- The inbox that the Hub has pushed. -/
def pushed? : RailEvent → Option RenderedInbox
  | pushed inbox => some inbox
  | _ => none

/-- The call that a click has begun, with its change. -/
def started? : RailEvent → Option (Nat × (Rail → Rail))
  | started n localMutate => some (n, localMutate)
  | _ => none

/-- The outcome of one call. -/
def answered? (n : Nat) : RailEvent → Option CallOutcome
  | answered n' outcome => if n' = n then some outcome else none
  | _ => none

end RailEvent

open RailEvent

/-- The last pushed inbox, or the initial one. -/
def lastPushed (inbox : RenderedInbox) (log : List RailEvent) : RenderedInbox :=
  (latest pushed? log).getD inbox

/-- The actions started since the last push, each with its number and its local mutation. -/
def startedSince (log : List RailEvent) : List (Nat × (Rail → Rail)) :=
  (log.rtakeWhile (fun e => e.pushed?.isNone)).filterMap started?

/-- What has become of a call, as far as it is answered. -/
def outcomeOf (n : Nat) (log : List RailEvent) : Option CallOutcome := latest (answered? n) log

/-- The inbox with local mutations applied, in order. -/
def applied (inbox : RenderedInbox) (actions : List (Nat × (Rail → Rail))) : RenderedInbox :=
  (actions.foldl (fun (rail : Rail) a => a.2 rail) ⟨inbox, 0⟩).inbox

/-- The last pushed inbox with the local mutations of the actions that started since then and
succeeded. -/
def expectedInbox (inbox : RenderedInbox) (log : List RailEvent) : RenderedInbox :=
  applied (lastPushed inbox log)
    ((startedSince log).filter (fun a => outcomeOf a.1 log = some .succeeded))

/-- The actions started since the last push that have not been rolled back. -/
def standing (log : List RailEvent) : List (Nat × (Rail → Rail)) :=
  (startedSince log).filter (fun a => outcomeOf a.1 log ≠ some .rolledBack)

namespace RailApp

/-- An action starts unless it is busy. -/
def starts (app : RailApp) (id action : String) (localMutate : Rail → Rail) : Option RailEvent :=
  if actionKey id action ∈ app.sessionActions then none
  else some (.started app.calls.length localMutate)

/-- What a step does, if anything. -/
def event (app : RailApp) : RailStep → Option RailEvent
  | .setSessionMuted id muted => app.starts id "mute" (fun rail => rail.applyLocalMute id muted)
  | .setSessionSoloed id soloed => app.starts id "solo" (fun rail => rail.applyLocalSolo id soloed)
  | .focusSession id =>
    if app.rail.inbox.connected then app.starts id "focus" (fun rail => rail.applyLocalFocus id)
    else none
  | .resolve n =>
    match app.calls[n]? with
    | some call => if call.awaiting then some (.answered n .succeeded) else none
    | none => none
  | .reject n =>
    match app.calls[n]? with
    | some call =>
      if call.awaiting then
        if app.rail.inboxRevision = call.optimisticRevision then some (.answered n .rolledBack)
        else some (.answered n .left)
      else none
    | none => none
  | .push inbox => some (.pushed inbox)

/-- The rail with the log of what has happened to it. -/
def observe (s : RailApp × List RailEvent) (step : RailStep) : RailApp × List RailEvent :=
  (s.1.step step, s.2 ++ (s.1.event step).toList)

/-- The webview from an initial inbox on. -/
def run (inbox : RenderedInbox) (steps : List RailStep) : RailApp × List RailEvent :=
  steps.foldl observe (start inbox, [])

/-- A failure of an action started since the last push finds the inbox as the local mutation of that
action left it. -/
def FailsFresh (s : RailApp × List RailEvent) : RailStep → Prop
  | .reject n => ∀ call ∈ s.1.calls[n]?, call.awaiting = true →
      n ∈ (startedSince s.2).map Prod.fst → s.1.rail.inboxRevision = call.optimisticRevision
  | _ => True

instance (s : RailApp × List RailEvent) : ∀ step, Decidable (FailsFresh s step)
  | .reject n => inferInstanceAs (Decidable (∀ call ∈ s.1.calls[n]?, call.awaiting = true →
      n ∈ (startedSince s.2).map Prod.fst → s.1.rail.inboxRevision = call.optimisticRevision))
  | .setSessionMuted .. | .setSessionSoloed .. | .focusSession _ | .resolve _ | .push _ =>
    inferInstanceAs (Decidable True)

end RailApp

section Log

variable {log : List RailEvent} {inbox : RenderedInbox} {n m : Nat} {localMutate : Rail → Rail}
  {outcome : CallOutcome}

/-- The last push, with one event more. -/
theorem lastPushed_concat (e : RailEvent) :
    lastPushed inbox (log ++ [e]) = e.pushed?.getD (lastPushed inbox log) := by
  unfold lastPushed
  rw [latest_concat]
  cases e.pushed? <;> rfl

/-- A push leaves no action since. -/
@[simp]
theorem startedSince_concat_pushed (pushed : RenderedInbox) :
    startedSince (log ++ [.pushed pushed]) = [] := by
  rw [startedSince, List.rtakeWhile_concat_neg _ _ _ (by simp [pushed?]), List.filterMap_nil]

/-- Any other event adds its action. -/
theorem startedSince_concat {e : RailEvent} (quiet : e.pushed? = none) :
    startedSince (log ++ [e]) = startedSince log ++ e.started?.toList := by
  rw [startedSince, List.rtakeWhile_concat_pos _ _ _ (by simp [quiet]), List.filterMap_append]
  cases h : e.started? <;> simp [startedSince, h]

@[simp]
theorem startedSince_concat_started : startedSince (log ++ [.started n localMutate]) =
    startedSince log ++ [(n, localMutate)] := startedSince_concat rfl

@[simp]
theorem startedSince_concat_answered :
    startedSince (log ++ [.answered n outcome]) = startedSince log :=
  (startedSince_concat rfl).trans (List.append_nil _)

@[simp]
theorem outcomeOf_concat_pushed (pushed : RenderedInbox) :
    outcomeOf m (log ++ [.pushed pushed]) = outcomeOf m log := latest_concat

@[simp]
theorem outcomeOf_concat_started :
    outcomeOf m (log ++ [.started n localMutate]) = outcomeOf m log := latest_concat

/-- An answer is the outcome of its own call. -/
theorem outcomeOf_concat_answered : outcomeOf m (log ++ [.answered n outcome]) =
    if n = m then some outcome else outcomeOf m log := by
  rw [outcomeOf, latest_concat, answered?]
  by_cases own : n = m
  · rw [if_pos own, if_pos own, Option.some_or]
  · rw [if_neg own, if_neg own, Option.none_or, outcomeOf]

end Log

/-- A local mutation sets the inbox once, to what it makes of the inbox alone. -/
def LocalMutation (localMutate : Rail → Rail) : Prop :=
  ∀ rail, localMutate rail = rail.setInbox (localMutate ⟨rail.inbox, 0⟩).inbox

/-- A change tab by tab is a local mutation. -/
theorem Rail.updateInboxTabs_local (mapper : RenderedTab → RenderedTab) :
    LocalMutation (fun rail => rail.updateInboxTabs mapper) := fun _ => rfl

/-- The last action is applied last. -/
theorem applied_concat {localMutate : Rail → Rail} (mutation : LocalMutation localMutate)
    {inbox : RenderedInbox} {actions : List (Nat × (Rail → Rail))} {n : Nat} (revision : Nat) :
    applied inbox (actions ++ [(n, localMutate)]) =
      (localMutate ⟨applied inbox actions, revision⟩).inbox := by
  rw [applied, List.foldl_append, List.foldl_cons, List.foldl_nil]
  dsimp only
  rw [mutation, mutation ⟨applied inbox actions, revision⟩]
  rfl

/-! ## What a step does -/

/-- What a step makes of the rail and its log. -/
inductive Observed (app : RailApp) (log : List RailEvent) :
    RailStep → RailApp × List RailEvent → Prop where
  | idle {step : RailStep} : Observed app log step (app, log)
  | act {step : RailStep} (key : String) (sessionActions : List String)
      {localMutate : Rail → Rail} (mutation : LocalMutation localMutate) :
      Observed app log step
        (⟨localMutate app.rail, sessionActions, app.calls ++
          [⟨key, app.rail.inbox, (localMutate app.rail).inboxRevision, true⟩]⟩,
        log ++ [.started app.calls.length localMutate])
  | succeed {n : Nat} {call : OptimisticCall} (there : app.calls[n]? = some call)
      (awaiting : call.awaiting = true) :
      Observed app log (.resolve n) (app.settle n call, log ++ [.answered n .succeeded])
  | rollBack {n : Nat} {call : OptimisticCall} (there : app.calls[n]? = some call)
      (awaiting : call.awaiting = true)
      (fresh : app.rail.inboxRevision = call.optimisticRevision) :
      Observed app log (.reject n)
        (RailApp.settle { app with rail := app.rail.setInbox call.previousInbox } n call,
        log ++ [.answered n .rolledBack])
  | leave {n : Nat} {call : OptimisticCall} (there : app.calls[n]? = some call)
      (awaiting : call.awaiting = true)
      (stale : app.rail.inboxRevision ≠ call.optimisticRevision) :
      Observed app log (.reject n) (app.settle n call, log ++ [.answered n .left])
  | push (inbox : RenderedInbox) :
      Observed app log (.push inbox) ({ app with rail := app.rail.setInbox inbox },
        log ++ [.pushed inbox])

namespace Observed

variable {app : RailApp} {log : List RailEvent}

/-- Nothing is logged where nothing happens. -/
theorem none {step : RailStep} :
    Observed app log step (app, log ++ (Option.none : Option RailEvent).toList) := by
  rw [Option.toList_none, List.append_nil]
  exact idle

/-- A click starts a call, or does nothing while one for its key is awaited. -/
theorem runOptimistic (step : RailStep) (id action : String) {localMutate : Rail → Rail}
    (mutation : LocalMutation localMutate) :
    Observed app log step (app.runOptimistic id action localMutate,
      log ++ (app.starts id action localMutate).toList) := by
  unfold RailApp.runOptimistic RailApp.starts
  dsimp only
  by_cases busy : actionKey id action ∈ app.sessionActions
  · rw [if_pos busy, if_pos busy]
    exact none
  · rw [if_neg busy, if_neg busy]
    exact act _ _ mutation

/-- Every step is one of these. -/
theorem of_observe (app : RailApp) (log : List RailEvent) (step : RailStep) :
    Observed app log step (RailApp.observe (app, log) step) := by
  unfold RailApp.observe
  cases step with
  | setSessionMuted id muted => exact runOptimistic _ _ _ (Rail.updateInboxTabs_local _)
  | setSessionSoloed id soloed => exact runOptimistic _ _ _ (Rail.updateInboxTabs_local _)
  | focusSession id =>
    dsimp only [RailApp.step, RailApp.event, RailApp.focusSession]
    by_cases connected : app.rail.inbox.connected = true
    · rw [if_pos connected, if_pos connected]
      exact runOptimistic _ _ _ (Rail.updateInboxTabs_local _)
    · rw [if_neg connected, if_neg connected]
      exact none
  | resolve n =>
    dsimp only [RailApp.step, RailApp.event]
    cases there : app.calls[n]? with
    | none => exact none
    | some call =>
      dsimp only
      by_cases awaiting : call.awaiting = true
      · rw [if_pos awaiting, if_pos awaiting]
        exact succeed there awaiting
      · rw [if_neg awaiting, if_neg awaiting]
        exact none
  | reject n =>
    dsimp only [RailApp.step, RailApp.event, RailApp.rollBack]
    cases there : app.calls[n]? with
    | none => exact none
    | some call =>
      dsimp only
      by_cases awaiting : call.awaiting = true
      · rw [if_pos awaiting, if_pos awaiting]
        by_cases fresh : app.rail.inboxRevision = call.optimisticRevision
        · rw [if_pos fresh, if_pos fresh]
          exact rollBack there awaiting fresh
        · rw [if_neg fresh, if_neg fresh]
          exact leave there awaiting fresh
      · rw [if_neg awaiting, if_neg awaiting]
        exact none
  | push inbox => exact push inbox

end Observed

/-! ## The numbers of the calls -/

/-- The places of the calls are the numbers the log has for them: a call awaits its answer until the
log has one. -/
structure Numbered (calls : List OptimisticCall) (log : List RailEvent) : Prop where
  started : ∀ a ∈ startedSince log, a.1 < calls.length
  apart : ((startedSince log).map Prod.fst).Nodup
  awaiting : ∀ n call, calls[n]? = some call → (call.awaiting = true ↔ outcomeOf n log = none)
  unknown : ∀ n, calls.length ≤ n → outcomeOf n log = none

namespace Numbered

variable {calls : List OptimisticCall} {log : List RailEvent} {call : OptimisticCall} {n : Nat}

theorem nil : Numbered [] [] where
  started a h := absurd h List.not_mem_nil
  apart := List.nodup_nil
  awaiting n call h := by cases h
  unknown n _ := rfl

/-- A push numbers nothing. -/
theorem push (h : Numbered calls log) (pushed : RenderedInbox) :
    Numbered calls (log ++ [.pushed pushed]) where
  started a mem := by
    rw [startedSince_concat_pushed] at mem
    exact absurd mem List.not_mem_nil
  apart := by
    rw [startedSince_concat_pushed]
    exact List.nodup_nil
  awaiting n call there := by
    rw [outcomeOf_concat_pushed]
    exact h.awaiting n call there
  unknown n beyond := by
    rw [outcomeOf_concat_pushed]
    exact h.unknown n beyond

/-- A call of the longer list is an old one or the new one. -/
theorem getElem?_concat {m : Nat} {call' : OptimisticCall}
    (there : (calls ++ [call])[m]? = some call') :
    calls[m]? = some call' ∨ (m = calls.length ∧ call' = call) := by
  by_cases old : m < calls.length
  · rw [List.getElem?_append_left old] at there
    exact Or.inl there
  · obtain ⟨within, rfl⟩ := List.getElem?_eq_some_iff.mp there
    rw [List.length_append, List.length_singleton] at within
    obtain rfl : m = calls.length := by omega
    exact Or.inr ⟨rfl, List.getElem_concat_length rfl _⟩

/-- The call of a click has the next number. -/
theorem act (h : Numbered calls log) (awaiting : call.awaiting = true)
    (localMutate : Rail → Rail) :
    Numbered (calls ++ [call]) (log ++ [.started calls.length localMutate]) where
  started a mem := by
    rw [startedSince_concat_started] at mem
    rw [List.length_append, List.length_singleton]
    rcases List.mem_append.mp mem with old | new
    · exact Nat.lt_succ_of_lt (h.started a old)
    · rw [List.mem_singleton.mp new]
      exact Nat.lt_succ_self _
  apart := by
    rw [startedSince_concat_started, List.map_append, List.nodup_append']
    refine ⟨h.apart, List.nodup_singleton _, ?_⟩
    intro n old new
    obtain ⟨a, mem, rfl⟩ := List.mem_map.mp old
    exact absurd (List.mem_singleton.mp new) (h.started a mem).ne
  awaiting n call' there := by
    rw [outcomeOf_concat_started]
    rcases getElem?_concat there with old | ⟨rfl, rfl⟩
    · exact h.awaiting n call' old
    · exact iff_of_true awaiting (h.unknown _ (Nat.le_refl _))
  unknown n beyond := by
    rw [outcomeOf_concat_started]
    rw [List.length_append] at beyond
    exact h.unknown n (Nat.le_of_add_right_le beyond)

/-- A call of the settled list is settled, or another one. -/
theorem getElem?_set {m : Nat} {call' settled : OptimisticCall}
    (there : (calls.set n settled)[m]? = some call') :
    (n = m ∧ call' = settled) ∨ (n ≠ m ∧ calls[m]? = some call') := by
  rw [List.getElem?_set] at there
  by_cases own : n = m
  · rw [if_pos own] at there
    split at there
    · exact Or.inl ⟨own, (Option.some.inj there).symm⟩
    · cases there
  · rw [if_neg own] at there
    exact Or.inr ⟨own, there⟩

/-- An answer ends the call it is about. -/
theorem answer (h : Numbered calls log) (there : calls[n]? = some call)
    (outcome : CallOutcome) :
    Numbered (calls.set n { call with awaiting := false })
      (log ++ [.answered n outcome]) where
  started a mem := by
    rw [startedSince_concat_answered] at mem
    rw [List.length_set]
    exact h.started a mem
  apart := by
    rw [startedSince_concat_answered]
    exact h.apart
  awaiting m call' there' := by
    rw [outcomeOf_concat_answered]
    rcases getElem?_set there' with ⟨own, rfl⟩ | ⟨other, same⟩
    · rw [if_pos own]
      exact iff_of_false Bool.false_ne_true (Option.some_ne_none _)
    · rw [if_neg other]
      exact h.awaiting m call' same
  unknown m beyond := by
    rw [List.length_set] at beyond
    have within : n < calls.length := (List.getElem?_eq_some_iff.mp there).1
    rw [outcomeOf_concat_answered, if_neg (by omega)]
    exact h.unknown m beyond

end Numbered

section Standing

variable {calls : List OptimisticCall} {log : List RailEvent} {n : Nat}

/-- What is left to stand when one more call has been answered. -/
theorem standing_concat_answered (outcome : CallOutcome) :
    standing (log ++ [.answered n outcome]) = (startedSince log).filter
      (fun a => (if n = a.1 then some outcome else outcomeOf a.1 log) ≠ some .rolledBack) := by
  rw [standing, startedSince_concat_answered]
  simp only [outcomeOf_concat_answered]

/-- An answer that rolls nothing back leaves all actions standing. -/
theorem standing_answered (awaited : outcomeOf n log = none) {outcome : CallOutcome}
    (kept : outcome ≠ .rolledBack) : standing (log ++ [.answered n outcome]) = standing log := by
  rw [standing_concat_answered, standing]
  refine List.filter_congr (fun a _ => ?_)
  by_cases own : n = a.1
  · subst own
    simp [awaited, kept]
  · rw [if_neg own]

/-- A rolled back action stands no longer. -/
theorem standing_rolledBack :
    standing (log ++ [.answered n .rolledBack]) = (standing log).filter (fun a => n ≠ a.1) := by
  rw [standing_concat_answered, standing, List.filter_filter]
  refine List.filter_congr (fun a _ => ?_)
  by_cases own : n = a.1
  · simp [own]
  · simp [own]

end Standing

/-! ## What the rail shows -/

/-- The rail and the log of what has happened to it belong together: it shows the last pushed inbox
with the standing actions applied. While the revision is the one an awaiting action left, that
action is the last of these, and what it has kept is the inbox before it. -/
structure Tells (inbox : RenderedInbox) (s : RailApp × List RailEvent) : Prop where
  numbered : Numbered s.1.calls s.2
  shown : s.1.rail.inbox = applied (lastPushed inbox s.2) (standing s.2)
  revisions : ∀ call ∈ s.1.calls, call.optimisticRevision ≤ s.1.rail.inboxRevision
  snapshot : ∀ n call, s.1.calls[n]? = some call → call.awaiting = true →
    call.optimisticRevision = s.1.rail.inboxRevision →
    ∃ before localMutate, standing s.2 = before ++ [(n, localMutate)] ∧
      call.previousInbox = applied (lastPushed inbox s.2) before

namespace Tells

variable {inbox : RenderedInbox} {app : RailApp} {log : List RailEvent} {call : OptimisticCall}
  {n : Nat}

/-- At the start nothing has happened. -/
theorem start (inbox : RenderedInbox) : Tells inbox (.start inbox, []) where
  numbered := .nil
  shown := rfl
  revisions call h := absurd h List.not_mem_nil
  snapshot n call h := by cases h

/-- After one more inbox no call has the revision. -/
theorem newer (h : Tells inbox (app, log)) :
    ∀ call ∈ app.calls, call.optimisticRevision < app.rail.inboxRevision + 1 :=
  fun call mem => Nat.lt_succ_of_le (h.revisions call mem)

/-- After a push the inbox is the one pushed. -/
theorem push (h : Tells inbox (app, log)) (pushed : RenderedInbox) :
    Tells inbox (app.step (.push pushed), log ++ [.pushed pushed]) where
  numbered := h.numbered.push pushed
  shown := by
    rw [standing, startedSince_concat_pushed, lastPushed_concat]
    rfl
  revisions call mem := (h.newer call mem).le
  snapshot n call there _ revision :=
    absurd revision (h.newer call (List.mem_of_getElem? there)).ne

/-- After a click the inbox has its mutation. -/
theorem act (h : Tells inbox (app, log)) (key : String) (sessionActions : List String)
    {localMutate : Rail → Rail} (mutation : LocalMutation localMutate) :
    Tells inbox (⟨localMutate app.rail, sessionActions, app.calls ++
        [⟨key, app.rail.inbox, (localMutate app.rail).inboxRevision, true⟩]⟩,
      log ++ [.started app.calls.length localMutate]) := by
  have revision : (localMutate app.rail).inboxRevision = app.rail.inboxRevision + 1 :=
    congrArg Rail.inboxRevision (mutation app.rail)
  have base : lastPushed inbox (log ++ [.started app.calls.length localMutate]) =
      lastPushed inbox log := lastPushed_concat _
  have stands : standing (log ++ [.started app.calls.length localMutate]) =
      standing log ++ [(app.calls.length, localMutate)] := by
    have fresh := h.numbered.unknown app.calls.length (Nat.le_refl _)
    dsimp only at fresh
    simp [standing, fresh]
  refine ⟨h.numbered.act rfl localMutate, ?_, ?_, ?_⟩
  · dsimp only
    rw [stands, base, applied_concat mutation app.rail.inboxRevision, ← h.shown]
  · intro call mem
    rcases List.mem_append.mp mem with old | new
    · exact ((h.newer call old).trans_eq revision.symm).le
    · rw [List.mem_singleton.mp new]
  · intro n call there _ same
    rcases Numbered.getElem?_concat there with old | ⟨rfl, rfl⟩
    · exact absurd same ((h.newer call (List.mem_of_getElem? old)).trans_eq revision.symm).ne
    · exact ⟨standing log, localMutate, stands, h.shown.trans (by rw [base])⟩

/-- A call is answered and its action stands. -/
theorem answer (h : Tells inbox (app, log)) (there : app.calls[n]? = some call)
    (awaiting : call.awaiting = true) {outcome : CallOutcome} (kept : outcome ≠ .rolledBack) :
    Tells inbox (app.settle n call, log ++ [.answered n outcome]) := by
  have awaited := (h.numbered.awaiting n call there).mp awaiting
  have base : lastPushed inbox (log ++ [.answered n outcome]) = lastPushed inbox log :=
    lastPushed_concat _
  refine ⟨h.numbered.answer there outcome, ?_, ?_, ?_⟩
  · rw [standing_answered awaited kept, base]
    exact h.shown
  · intro call' mem
    rcases List.mem_or_eq_of_mem_set mem with old | rfl
    · exact h.revisions call' old
    · exact h.revisions call (List.mem_of_getElem? there)
  · intro m call' there' awaiting' same
    rw [standing_answered awaited kept, base]
    rcases Numbered.getElem?_set there' with ⟨-, rfl⟩ | ⟨-, old⟩
    · cases awaiting'
    · exact h.snapshot m call' old awaiting' same

/-- A call fails and its action is rolled back. -/
theorem rollBack (h : Tells inbox (app, log)) (there : app.calls[n]? = some call)
    (awaiting : call.awaiting = true)
    (fresh : app.rail.inboxRevision = call.optimisticRevision) :
    Tells inbox (RailApp.settle { app with rail := app.rail.setInbox call.previousInbox } n call,
      log ++ [.answered n .rolledBack]) := by
  obtain ⟨before, localMutate, stands, previous⟩ := h.snapshot n call there awaiting fresh.symm
  -- no other action has its number
  have apart : ((standing log).map Prod.fst).Nodup :=
    h.numbered.apart.sublist (List.filter_sublist.map _)
  rw [stands, List.map_append, List.nodup_append'] at apart
  have rolled : (standing log).filter (fun a => n ≠ a.1) = before := by
    rw [stands, List.filter_append, List.filter_cons_of_neg (by simp), List.filter_nil,
      List.append_nil, List.filter_eq_self]
    intro a mem
    have other : a.1 ≠ n := fun own =>
      apart.2.2 (List.mem_map.mpr ⟨a, mem, own⟩) (List.mem_singleton_self n)
    simp [other.symm]
  refine ⟨h.numbered.answer there .rolledBack, ?_, ?_, ?_⟩
  · rw [standing_rolledBack, rolled, lastPushed_concat]
    exact previous
  · intro call' mem
    rcases List.mem_or_eq_of_mem_set mem with old | rfl
    · exact (h.newer call' old).le
    · exact (h.newer call (List.mem_of_getElem? there)).le
  · intro m call' there' awaiting' same
    rcases Numbered.getElem?_set there' with ⟨-, rfl⟩ | ⟨-, old⟩
    · cases awaiting'
    · exact absurd same (h.newer call' (List.mem_of_getElem? old)).ne

/-- The rail tells what its log does after every step. -/
theorem observe {s : RailApp × List RailEvent} (h : Tells inbox s) (step : RailStep) :
    Tells inbox (RailApp.observe s step) := by
  obtain ⟨app, log⟩ := s
  have did := Observed.of_observe app log step
  generalize RailApp.observe (app, log) step = next at did ⊢
  cases did with
  | idle => exact h
  | act key sessionActions mutation => exact h.act key sessionActions mutation
  | succeed there awaiting => exact h.answer there awaiting (by decide)
  | rollBack there awaiting fresh => exact h.rollBack there awaiting fresh
  | leave there awaiting stale => exact h.answer there awaiting (by decide)
  | push inbox => exact h.push inbox

end Tells

/-- Whatever happens, the rail shows the last pushed inbox with the standing actions applied. -/
theorem RailApp.run_tells (inbox : RenderedInbox) (steps : List RailStep) :
    Tells inbox (run inbox steps) :=
  foldl_invariant (Tells inbox) (fun _ step h => h.observe step) steps _ (Tells.start inbox)

/-! ## Failed actions -/

/-- No failed action started since the last push has been left. -/
def NoneLeft (log : List RailEvent) : Prop :=
  ∀ a ∈ startedSince log, outcomeOf a.1 log ≠ some .left

namespace NoneLeft

variable {inbox : RenderedInbox} {app : RailApp} {log : List RailEvent} {n : Nat}

theorem push (pushed : RenderedInbox) : NoneLeft (log ++ [.pushed pushed]) := by
  intro a mem
  rw [startedSince_concat_pushed] at mem
  exact absurd mem List.not_mem_nil

/-- A call that has just begun is not left. -/
theorem act (h : NoneLeft log) (unknown : outcomeOf n log = none) (localMutate : Rail → Rail) :
    NoneLeft (log ++ [.started n localMutate]) := by
  intro a mem
  rw [startedSince_concat_started] at mem
  rw [outcomeOf_concat_started]
  rcases List.mem_append.mp mem with old | new
  · exact h a old
  · rw [List.mem_singleton.mp new, unknown]
    exact fun none => by cases none

/-- An answer leaves none if its own call is not left. -/
theorem answer (h : NoneLeft log) {outcome : CallOutcome}
    (kept : n ∈ (startedSince log).map Prod.fst → outcome ≠ .left) :
    NoneLeft (log ++ [.answered n outcome]) := by
  intro a mem
  rw [startedSince_concat_answered] at mem
  rw [outcomeOf_concat_answered]
  by_cases own : n = a.1
  · rw [if_pos own]
    exact fun left => kept (own ▸ List.mem_map_of_mem mem) (Option.some.inj left)
  · rw [if_neg own]
    exact h a mem

/-- A failure that finds the inbox as its action left it leaves nothing. -/
theorem observe {s : RailApp × List RailEvent} (h : NoneLeft s.2) (tells : Tells inbox s)
    {step : RailStep} (fresh : RailApp.FailsFresh s step) :
    NoneLeft (RailApp.observe s step).2 := by
  obtain ⟨app, log⟩ := s
  have did := Observed.of_observe app log step
  generalize RailApp.observe (app, log) step = next at did ⊢
  cases did with
  | idle => exact h
  | act key sessionActions mutation =>
    exact h.act (tells.numbered.unknown _ (Nat.le_refl _)) _
  | succeed there awaiting => exact h.answer (fun _ => by decide)
  | rollBack there awaiting same => exact h.answer (fun _ => by decide)
  | leave there awaiting stale =>
    exact h.answer (fun since => absurd (fresh _ there awaiting since) stale)
  | push inbox => exact push inbox

/-- With nothing in flight and nothing left, the actions that stand are those that succeeded. -/
theorem standing_eq (h : NoneLeft log) (tells : Tells inbox (app, log)) (quiet : app.Quiet) :
    standing log = (startedSince log).filter (fun a => outcomeOf a.1 log = some .succeeded) := by
  refine List.filter_congr (fun a mem => ?_)
  obtain ⟨call, there⟩ : ∃ call, app.calls[a.1]? = some call :=
    ⟨_, List.getElem?_eq_getElem (tells.numbered.started a mem)⟩
  have answered : outcomeOf a.1 log ≠ none := fun none =>
    absurd ((tells.numbered.awaiting a.1 call there).mpr none)
      (ne_true_of_eq_false (quiet call (List.mem_of_getElem? there)))
  have kept := h a mem
  rcases outcome : outcomeOf a.1 log with _ | _ | _ | _
  · exact absurd outcome answered
  · rfl
  · rfl
  · exact absurd outcome kept

end NoneLeft

namespace RailApp

/-- Where every failure, of an action started since the last push, finds the inbox as the local
mutation of the action left it, the inbox shown once nothing is in flight is the last pushed one
with the actions applied that started since then and succeeded. -/
theorem rolls_back (inbox : RenderedInbox) (before after : List RailStep)
    (cleared : before = [] ∨ ∃ pushed, before.getLast? = some (.push pushed))
    (fresh : Along observe FailsFresh (run inbox before) after)
    (quiet : (run inbox (before ++ after)).1.Quiet) :
    (run inbox (before ++ after)).1.rail.inbox =
      expectedInbox inbox (run inbox (before ++ after)).2 := by
  have cut : NoneLeft (run inbox before).2 := by
    rcases cleared with rfl | ⟨pushed, last⟩
    · exact fun a mem => absurd mem List.not_mem_nil
    · obtain ⟨first, rfl⟩ := List.getLast?_eq_some_iff.mp last
      rw [run, List.foldl_append]
      exact NoneLeft.push pushed
  have whole : run inbox (before ++ after) = after.foldl observe (run inbox before) :=
    List.foldl_append
  have kept : Tells inbox (run inbox (before ++ after)) ∧
      NoneLeft (run inbox (before ++ after)).2 := by
    rw [whole]
    exact Along.invariant (P := fun s => Tells inbox s ∧ NoneLeft s.2)
      (fun s step h fresh => ⟨h.1.observe step, h.2.observe h.1 fresh⟩) after _
      ⟨run_tells inbox before, cut⟩ fresh
  rw [kept.1.shown, kept.2.standing_eq kept.1 quiet]
  rfl

/-- A tab that waits for the user. -/
def waitingTab (id : String) : RenderedTab :=
  { sessionId := id, location := .laptop, agent := "codex", title := id, state := "waiting",
    stateGlyph := "⏸", attention := true, pinging := true, pingSuppressed := false, urgency := none,
    confidence := none, waitingSince := none, muted := false, soloed := false, unread := true,
    runCount := 0, lastMessage := none }

/-- Two sessions wait, and the Hub is away. -/
def waitingInbox : RenderedInbox := ⟨[waitingTab "a", waitingTab "b"], 2, 2, false⟩

theorem rolls_back_at_mute :
    (run waitingInbox ([] ++ [.setSessionMuted "a" true, .reject 0])).1.rail.inbox =
      expectedInbox waitingInbox (run waitingInbox
        ([] ++ [.setSessionMuted "a" true, .reject 0])).2 :=
  rolls_back waitingInbox [] [.setSessionMuted "a" true, .reject 0] (Or.inl rfl) (by decide)
    (by decide)

/-- Two sessions are muted at once and both calls fail: the first finds the mutation of the second,
and the second puts back the inbox with that of the first. -/
theorem mute_left : ¬ ∀ (inbox : RenderedInbox) (steps : List RailStep),
    (run inbox steps).1.Quiet →
      (run inbox steps).1.rail.inbox = expectedInbox inbox (run inbox steps).2 := by
  intro all
  have same := all waitingInbox [.setSessionMuted "a" true, .setSessionMuted "b" true, .reject 0,
    .reject 1] (by decide)
  exact absurd (congrArg (fun inbox => inbox.tabs.map (fun tab => tab.muted)) same) (by decide)

end RailApp

end VsFleet
