import VsFleet.HostCore.Proofs.Pings
import VsFleet.HostCore.Sort
import VsFleet.Misc.Runs

/-!
# Alerts while a session keeps notifying

A session that notifies in one view and in the next is alerted of again when its urgency has
changed, be it up or down.
-/

namespace VsFleet

/-- The change from one view to the next alerts of the session. -/
def Alerts (old new : InboxView) (id : String) : Prop :=
  ∃ intent : NotificationIntent, intent.sessionId = id ∧ .fire intent ∈ viewTransition old new

/-- How urgent the session is in the view. -/
def InboxView.rankOf (view : InboxView) (id : String) : Nat := urgencySortRank (view.urgencyOf id)

theorem urgencySortRank_injective : Function.Injective urgencySortRank := by
  intro u v same
  rcases u with _ | (_ | _ | _ | _) <;> rcases v with _ | (_ | _ | _ | _) <;>
    first | rfl | exact absurd same (by decide)

section

variable {old new : InboxView} {id : String}

theorem InboxView.ping_of_notifies {view : InboxView} (pings : view.notifies id = true) :
    view.ping id = some (view.urgencyOf id) := if_pos pings

/-- A session that begins to notify is alerted of. -/
theorem alerts_of_begins (distinct : new.Distinct) (was : old.notifies id = false)
    (is : new.notifies id = true) : Alerts old new id := by
  have quiet : old.ping id = none := InboxView.ping_eq_none_iff.mpr was
  have pings := InboxView.ping_of_notifies is
  refine viewTransition_fires distinct ?_ ?_
  · rw [pings]
    exact Option.some_ne_none _
  · rw [quiet, pings]
    exact (Option.some_ne_none _).symm

/-- A session that goes on notifying is alerted of just where its rank changes. -/
theorem alerts_iff_of_goes_on (distinct' : old.Distinct) (distinct : new.Distinct)
    (was : old.notifies id = true) (is : new.notifies id = true) :
    Alerts old new id ↔ old.rankOf id ≠ new.rankOf id := by
  unfold InboxView.rankOf
  rw [urgencySortRank_injective.ne_iff]
  constructor
  · rintro ⟨intent, rfl, fired⟩
    obtain ⟨-, other⟩ := warranted_fire.mp (viewTransition_warranted distinct' distinct fired)
    rw [InboxView.ping_of_notifies was, InboxView.ping_of_notifies is] at other
    exact fun same => other (congrArg some same)
  · intro other
    refine viewTransition_fires distinct ?_ ?_
    · rw [InboxView.ping_of_notifies is]
      exact Option.some_ne_none _
    · rw [InboxView.ping_of_notifies was, InboxView.ping_of_notifies is]
      exact fun same => other (Option.some.inj same)

/-- Such a change alerts where the rank goes up, and nowhere else, just in case it does not go
down. -/
theorem alerts_rightly_iff (distinct' : old.Distinct) (distinct : new.Distinct)
    (was : old.notifies id = true) (is : new.notifies id = true) :
    (Alerts old new id ↔ old.rankOf id < new.rankOf id) ↔ ¬ new.rankOf id < old.rankOf id := by
  rw [alerts_iff_of_goes_on distinct' distinct was is]
  omega

end

/-- Of a session that begins to notify and keeps on through any views, the change to the first of
them alerts, and a later change alerts exactly where the urgency goes up, just in case it never goes
down. -/
theorem alerts_iff_escalates {before first : InboxView} {views : List InboxView} {id : String}
    (distinct : ∀ view ∈ first :: views, view.Distinct) (quiet : before.notifies id = false)
    (keeps : ∀ view ∈ first :: views, view.notifies id = true) :
    Alerts before first id ∧
      (Along (fun _ view => view)
          (fun old new => Alerts old new id ↔ old.rankOf id < new.rankOf id) first views ↔
        Along (fun _ view => view)
          (fun old new => ¬ new.rankOf id < old.rankOf id) first views) := by
  refine ⟨alerts_of_begins (distinct first List.mem_cons_self) quiet
    (keeps first List.mem_cons_self), ?_⟩
  clear quiet
  induction views generalizing first with
  | nil => rfl
  | cons view views ih =>
    rw [List.forall_mem_cons] at distinct keeps
    rw [Along, Along, ih distinct.2 keeps.2, alerts_rightly_iff distinct.1
      (distinct.2 view List.mem_cons_self) keeps.1 (keeps.2 view List.mem_cons_self)]

/-- A session with a run that waits for an approval or a question. -/
def askingSession (urgency : Urgency) : Session :=
  (Session.plain "a" [{ AgentRun.plain "r" "n" .waiting with urgency := some urgency }])
    |>.recomputeRollups

/-- A question becomes an approval. -/
theorem alerts_iff_escalates_approval :
    Alerts ⟨[]⟩ (viewOf [askingSession .question]) "a" ∧
      (Along (fun _ view => view)
          (fun old new => Alerts old new "a" ↔ old.rankOf "a" < new.rankOf "a")
          (viewOf [askingSession .question]) [viewOf [askingSession .approval]] ↔
        Along (fun _ view => view) (fun old new => ¬ new.rankOf "a" < old.rankOf "a")
          (viewOf [askingSession .question]) [viewOf [askingSession .approval]]) := by
  refine alerts_iff_escalates (fun view mem => ?_) (by decide) (by decide)
  rw [List.mem_pair] at mem
  rcases mem with rfl | rfl
  · exact List.nodup_singleton _
  · exact List.nodup_singleton _

/-- An approval is given and a question is left: the user is alerted of the lesser. -/
theorem alerted_of_less : ¬ ∀ (old new : InboxView) (id : String), old.Distinct → new.Distinct →
    old.notifies id = true → new.notifies id = true →
      (Alerts old new id ↔ old.rankOf id < new.rankOf id) := by
  intro rightly
  have old : (viewOf [askingSession .approval]).Distinct := List.nodup_singleton _
  have new : (viewOf [askingSession .question]).Distinct := List.nodup_singleton _
  have alerts := rightly _ _ "a" old new (by decide) (by decide)
  have less : ¬ (viewOf [askingSession .approval]).rankOf "a" <
      (viewOf [askingSession .question]).rankOf "a" := by decide
  exact less (alerts.mp ⟨_, rfl, List.mem_singleton.mpr rfl⟩)

end VsFleet
