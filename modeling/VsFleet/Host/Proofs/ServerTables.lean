import VsFleet.Host.Proofs.SpawnFailure
import VsFleet.Host.Supervision
import VsFleet.Misc.Runs

/-!
# The list of the servers and the table of their processes

Both tables are the same at rest as long as no row is put on the list after its processes were
dropped, and no group is dropped while its row is on the list for good.
-/

namespace VsFleet

namespace SupervisorCall

/-- The server a call spawns. -/
def spawnId : SupervisorCall → Option String
  | .spawn server _ _ => some server.id
  | _ => none

/-- The processes of the server are still to be put into the table. -/
def inserts (id : String) : SupervisorCall → Bool
  | .spawn server _ .insert => server.id = id
  | _ => false

/-- The server is still to be put on the list. -/
def lists (id : String) : SupervisorCall → Bool
  | .spawn server _ .push => server.id = id
  | _ => false

/-- The processes are dropped, and the server is still to be taken off the list. -/
def holds (id : String) : SupervisorCall → Bool
  | .servers _ (.retain removed) => id ∈ removed
  | _ => false

/-- The server is still to be taken off the list. -/
def unlists (id : String) : SupervisorCall → Bool
  | .close target .retain => target = id
  | call => call.holds id

/-- The server is taken off the list, and its processes are still to be dropped. -/
def untracks (id : String) : SupervisorCall → Bool
  | .close target .containers | .close target .children => target = id
  | _ => false

/-- What had exited when a `servers` began that has looked at the processes and not returned. -/
def looked : SupervisorCall → List Child
  | .servers before (.retain _) | .servers before .clone => before
  | _ => []

/-- The call is done. -/
def Returned : SupervisorCall → Prop
  | .spawn _ _ .returned | .servers _ (.returned _) | .close _ (.returned _) => True
  | _ => False

instance : DecidablePred Returned
  | .spawn _ _ .returned | .servers _ (.returned _) | .close _ (.returned _) => isTrue trivial
  | .spawn _ _ .insert | .spawn _ _ .push | .servers _ .prune | .servers _ (.retain _)
  | .servers _ .clone | .close _ .retain | .close _ .containers | .close _ .children => isFalse id

end SupervisorCall

namespace Supervision

/-! ## The law -/

/-- The server is on the list. -/
def Listed (s : Supervision) (id : String) : Prop := ∃ server ∈ s.supervisor.servers, server.id = id

/-- The processes of the server are in the table. -/
def Tracked (s : Supervision) (id : String) : Prop := id ∈ s.supervisor.children

/-- Some call is still to take the server off the list. -/
def Unlisting (s : Supervision) (id : String) : Prop := ∃ call ∈ s.calls, call.unlists id = true

/-- With no call in progress the servers on the list are those with processes in the table, and no
call of `servers` has returned a server whose primary child had exited when the call began. -/
structure InStep (s : Supervision) : Prop where
  agree : (∀ call ∈ s.calls, call.Returned) → ∀ id, s.Listed id ↔ s.Tracked id
  alive : ∀ before servers, .servers before (.returned servers) ∈ s.calls →
    ∀ server ∈ servers, ⟨server.id, .editor⟩ ∉ before

/-- A row is put on the list while its processes are in the table and no `servers` that has looked
at them began after the exit of the primary child, or while some call is still to take it off; the
processes of a row on the list are dropped by a `close` only while some call is still to take it
off; and the list is read when none is to take off a row whose primary child had exited before. -/
def OrderlySection (s : Supervision) : SupervisorCall → Prop
  | .spawn server _ .push => s.Unlisting server.id ∨
      s.Tracked server.id ∧ ∀ call ∈ s.calls, ⟨server.id, .editor⟩ ∉ call.looked
  | .close id .children => s.Listed id → s.Unlisting id
  | .servers before .clone =>
    ∀ server ∈ s.supervisor.servers, ⟨server.id, .editor⟩ ∈ before → ¬ s.Unlisting server.id
  | _ => True

/-- The locked section that a step takes is an orderly one. -/
def Orderly (s : Supervision) : SupervisionStep → Prop
  | .turn i _ => ∀ call ∈ s.calls[i]?, s.OrderlySection call
  | _ => True

instance (s : Supervision) (id : String) : Decidable (s.Listed id) :=
  inferInstanceAs (Decidable (∃ server ∈ s.supervisor.servers, server.id = id))

instance (s : Supervision) (id : String) : Decidable (s.Tracked id) :=
  inferInstanceAs (Decidable (id ∈ s.supervisor.children))

instance (s : Supervision) (id : String) : Decidable (s.Unlisting id) :=
  inferInstanceAs (Decidable (∃ call ∈ s.calls, call.unlists id = true))

instance (s : Supervision) : DecidablePred s.OrderlySection
  | .spawn server _ .push => inferInstanceAs (Decidable (s.Unlisting server.id ∨
      s.Tracked server.id ∧ ∀ call ∈ s.calls, ⟨server.id, .editor⟩ ∉ call.looked))
  | .close id .children => inferInstanceAs (Decidable (s.Listed id → s.Unlisting id))
  | .servers before .clone => inferInstanceAs (Decidable (∀ server ∈ s.supervisor.servers,
      ⟨server.id, .editor⟩ ∈ before → ¬ s.Unlisting server.id))
  | .spawn _ _ .insert | .spawn _ _ .returned | .servers _ .prune | .servers _ (.retain _)
  | .servers _ (.returned _) | .close _ .retain | .close _ .containers | .close _ (.returned _) =>
    isTrue trivial

instance (s : Supervision) : DecidablePred s.Orderly
  | .turn i _ => inferInstanceAs (Decidable (∀ call ∈ s.calls[i]?, s.OrderlySection call))
  | .spawn .. | .spawnFails | .servers | .close _ | .exit _ => isTrue trivial

end Supervision

/-! ## The tables -/

namespace ServerSupervisor

variable {sup : ServerSupervisor} {ids : List String} {id : String}

/-- Ids that are taken out of the table have no processes in it, and the others theirs. -/
theorem lookup_untrack {children : HashMap String (List Child)} :
    (ids.foldl (fun children id => children.erase id) children).lookup id =
      if id ∈ ids then none else children.lookup id := by
  induction ids generalizing children with
  | nil => simp
  | cons first ids ih =>
    rw [List.foldl_cons, ih]
    by_cases eq : id = first
    · subst eq
      simp [AList.lookup_erase]
    · simp [eq, AList.lookup_erase_ne eq]

/-- The same for whether they are there. -/
theorem mem_untrack : id ∈ (sup.untrack ids).children ↔ id ∈ sup.children ∧ id ∉ ids := by
  rw [← AList.lookup_isSome, ← AList.lookup_isSome, untrack, lookup_untrack]
  split <;> simp_all

/-- An insert adds its own id. -/
theorem mem_track {other : String} {group : List Child} :
    id ∈ (sup.track other group).children ↔ id = other ∨ id ∈ sup.children :=
  AList.mem_insert ..

/-- The ids that are dropped are those of the groups in the table whose primary child is not
alive. -/
theorem mem_deadIds {exited faulty : List Child} :
    id ∈ sup.deadIds exited faulty ↔ ∃ group, sup.children.lookup id = some group ∧
      primaryChildExited exited faulty group ≠ .alive := by
  unfold deadIds
  simp only [List.mem_map, List.mem_filter, decide_eq_true_eq]
  constructor
  · rintro ⟨entry, ⟨mem, dead⟩, rfl⟩
    exact ⟨entry.2, AList.mem_lookup_iff.mpr mem, dead⟩
  · rintro ⟨group, there, dead⟩
    exact ⟨⟨id, group⟩, ⟨AList.mem_lookup_iff.mp there, dead⟩, rfl⟩

/-- Two numbers give two ids. -/
theorem serverId_injective (launchId : String) : Function.Injective (serverId launchId) := by
  intro n m eq
  have digits := congrArg String.toList ((String.append_right_inj _).mp eq)
  have same : Nat.toDigits 10 n = Nat.toDigits 10 m := by simpa using digits
  rw [← Nat.ofDigitChars_ten_toDigits (n := n), same, Nat.ofDigitChars_ten_toDigits]

end ServerSupervisor

/-- A call that is still to insert is a spawn. -/
theorem SupervisorCall.spawnId_of_inserts {call : SupervisorCall} {id : String}
    (inserts : call.inserts id = true) : call.spawnId = some id := by
  cases call with
  | spawn server group stage =>
    cases stage with
    | insert => exact congrArg some (of_decide_eq_true inserts)
    | push | returned => cases inserts
  | servers | close => cases inserts

/-! ## Calls in progress -/

section Calls

variable {α : Type} {l : List α} {i : Nat} {a b : α} {P : α → Prop}

/-- A place is changed in a list of calls: what holds of all stays so if it holds of the new one. -/
theorem forall_mem_set (all : ∀ x ∈ l, P x) (new : P b) : ∀ x ∈ l.set i b, P x := by
  intro x mem
  rcases List.mem_or_eq_of_mem_set mem with mem | rfl
  · exact all x mem
  · exact new

/-- What is left of the calls with a property when one is replaced. -/
theorem exists_mem_set (there : l[i]? = some a) (some : ∃ x ∈ l, P x) :
    P a ∨ ∃ x ∈ l.set i b, P x := by
  obtain ⟨x, mem, holds⟩ := some
  obtain ⟨j, at_j⟩ := List.mem_iff_getElem?.mp mem
  by_cases eq : i = j
  · subst eq
    rw [there] at at_j
    cases at_j
    exact .inl holds
  · refine .inr ⟨x, List.mem_of_getElem? (i := j) ?_, holds⟩
    rw [List.getElem?_set_ne eq, at_j]

theorem mem_set_of_there (there : l[i]? = some a) : b ∈ l.set i b :=
  List.mem_set (List.getElem?_eq_some_iff.mp there).1 b

/-- What holds of some call stays so if the call at the place keeps it. -/
theorem exists_mem_set_of_keeps (there : l[i]? = some a) (some : ∃ x ∈ l, P x) (keeps : P a → P b) :
    ∃ x ∈ l.set i b, P x := by
  rcases exists_mem_set there some with old | new
  · exact ⟨b, mem_set_of_there there, keeps old⟩
  · exact new

theorem exists_mem_append (some : ∃ x ∈ l, P x) : ∃ x ∈ l ++ [b], P x := by
  obtain ⟨x, mem, holds⟩ := some
  exact ⟨x, List.mem_append_left _ mem, holds⟩

/-- A place in a list with one more at its end. -/
theorem getElem?_concat_cases {x : α} (there : (l ++ [b])[i]? = some x) :
    l[i]? = some x ∨ i = l.length ∧ x = b := by
  rcases Nat.lt_or_ge i l.length with lt | ge
  · rw [List.getElem?_append_left lt] at there
    exact .inl there
  · rw [List.getElem?_append_right ge, List.getElem?_singleton] at there
    split at there
    · rename_i zero
      cases there
      exact .inr ⟨by omega, rfl⟩
    · cases there

end Calls

namespace Supervision

variable {s s' : Supervision} {i : Nat} {faulty : List Child} {call call' : SupervisorCall}
  {id : String}

/-- The processes of the server have been put into the table by its only call. -/
structure Placed (s : Supervision) (id : String) : Prop where
  spawned : ∃ call ∈ s.calls, call.spawnId = some id
  inserted : ∀ call ∈ s.calls, call.inserts id = false

/-- The ids have been drawn, each by one call, which has launched the editor last. -/
structure Named (s : Supervision) : Prop where
  drawn : ∀ call ∈ s.calls, ∀ id, call.spawnId = some id →
    ∃ n < s.supervisor.counter, id = ServerSupervisor.serverId s.supervisor.launchId n
  distinct : ∀ (i j : Nat) (call other : SupervisorCall), s.calls[i]? = some call →
    s.calls[j]? = some other → ∀ id, call.spawnId = some id → other.spawnId = some id → i = j
  launched : ∀ server group stage, .spawn server group stage ∈ s.calls →
    group.getLast? = some ⟨server.id, .editor⟩

/-- A server has its row on the list, or is between the two halves of a spawn or a close. -/
def Due (s : Supervision) (id : String) : Prop :=
  s.Listed id ∨ (∃ call ∈ s.calls, call.lists id = true) ∨ ∃ call ∈ s.calls, call.untracks id = true

/-- What every run keeps: a group in the table is that of its server, an id that is held has none,
and a group has its row on the list but between the two halves of a spawn or a close. -/
structure Kept (s : Supervision) : Prop extends s.Named where
  containers : s.supervisor.containers = ∅
  tracked : ∀ id group, s.supervisor.children.lookup id = some group →
    group.getLast? = some ⟨id, .editor⟩ ∧ s.Placed id
  held : ∀ call ∈ s.calls, ∀ id, call.holds id = true → s.Placed id ∧ ¬ s.Tracked id
  due : ∀ id, s.Tracked id → s.Due id
  before : ∀ before stage, .servers before stage ∈ s.calls → before ⊆ s.exited

/-! ### Locked sections -/

/-- What a locked section does: the call after it, the supervisor and the processes that have
exited. -/
inductive Locked (s : Supervision) (faulty : List Child) :
    SupervisorCall → SupervisorCall × ServerSupervisor × List Child → Prop
  | insert (server : MuxSession) (group : List Child) :
    Locked s faulty (.spawn server group .insert)
      (.spawn server group .push, s.supervisor.track server.id group, s.exited)
  | push (server : MuxSession) (group : List Child) :
    Locked s faulty (.spawn server group .push)
      (.spawn server group .returned, s.supervisor.pushServer server, s.exited)
  | prune (before : List Child) (stage : ServersStage)
      (next : stage = .retain (s.supervisor.deadIds s.exited faulty) ∨
        stage = .clone ∧ s.supervisor.deadIds s.exited faulty = []) :
    Locked s faulty (.servers before .prune)
      (.servers before stage, s.supervisor.untrack (s.supervisor.deadIds s.exited faulty),
        s.supervisor.groups (s.supervisor.deadIds s.exited faulty) ++ s.exited)
  | retain (before : List Child) (removed : List String) :
    Locked s faulty (.servers before (.retain removed))
      (.servers before .clone, s.supervisor.unlist removed, s.exited)
  | clone (before : List Child) :
    Locked s faulty (.servers before .clone)
      (.servers before (.returned s.supervisor.servers), s.supervisor, s.exited)
  | unlist (id : String) :
    Locked s faulty (.close id .retain)
      (.close id .containers, s.supervisor.unlist [id], s.exited)
  | container (id : String) (there : id ∈ s.supervisor.containers) :
    Locked s faulty (.close id .containers) (.close id (.returned true),
      { s.supervisor with containers := s.supervisor.containers.erase id }, s.exited)
  | noContainer (id : String) :
    Locked s faulty (.close id .containers) (.close id .children, s.supervisor, s.exited)
  | drop (id : String) (group : List Child)
      (there : s.supervisor.children.lookup id = some group) :
    Locked s faulty (.close id .children)
      (.close id (.returned true), s.supervisor.untrack [id], group ++ s.exited)
  | nothing (id : String) (absent : s.supervisor.children.lookup id = none) :
    Locked s faulty (.close id .children)
      (.close id (.returned false), s.supervisor, s.exited)
  | returned (call : SupervisorCall) (done : call.Returned) :
    Locked s faulty call (call, s.supervisor, s.exited)

/-- Every locked section is of one of these kinds. -/
theorem lockedSection_cases (s : Supervision) (faulty : List Child) (call : SupervisorCall) :
    Locked s faulty call (s.lockedSection faulty call) := by
  cases call with
  | spawn server group stage =>
    cases stage with
    | insert => exact .insert server group
    | push => exact .push server group
    | returned => exact .returned _ trivial
  | servers before stage =>
    cases stage with
    | prune =>
      refine .prune before _ ?_
      cases removed : s.supervisor.deadIds s.exited faulty with
      | nil => exact .inr ⟨rfl, rfl⟩
      | cons id ids => exact .inl rfl
    | retain removed => exact .retain before removed
    | clone => exact .clone before
    | returned servers => exact .returned _ trivial
  | close id stage =>
    cases stage with
    | retain => exact .unlist id
    | containers =>
      simp only [lockedSection]
      split
      · exact .container id ‹_›
      · exact .noContainer id
    | children =>
      simp only [lockedSection]
      split
      · exact .drop id _ ‹_›
      · exact .nothing id ‹_›
    | returned closed => exact .returned _ trivial

/-- A call after a locked section is the same call, at a later stage. -/
inductive Advances : SupervisorCall → SupervisorCall → Prop
  | spawn (server : MuxSession) (group : List Child) (stage stage' : SpawnStage)
      (later : stage' ≠ .insert) :
      Advances (.spawn server group stage) (.spawn server group stage')
  | servers (before : List Child) (stage stage' : ServersStage) :
      Advances (.servers before stage) (.servers before stage')
  | close (id : String) (stage stage' : CloseStage) : Advances (.close id stage) (.close id stage')

/-- What all locked sections have in common. -/
structure Section (s : Supervision) (call : SupervisorCall)
    (after : SupervisorCall × ServerSupervisor × List Child) : Prop where
  advances : Advances call after.1
  counter : after.2.1.counter = s.supervisor.counter
  launchId : after.2.1.launchId = s.supervisor.launchId
  exited : s.exited ⊆ after.2.2
  containers : s.supervisor.containers = ∅ → after.2.1.containers = ∅

/-- What a locked section leaves as it was. -/
theorem Locked.section {after : SupervisorCall × ServerSupervisor × List Child}
    (h : Locked s faulty call after) : Section s call after := by
  cases h with
  | insert | push =>
    exact ⟨.spawn _ _ _ _ (fun h => by cases h), rfl, rfl, List.Subset.refl _, id⟩
  | prune => exact ⟨.servers _ _ _, rfl, rfl, List.subset_append_right _ _, id⟩
  | retain | clone => exact ⟨.servers _ _ _, rfl, rfl, List.Subset.refl _, id⟩
  | unlist | noContainer | nothing => exact ⟨.close _ _ _, rfl, rfl, List.Subset.refl _, id⟩
  | container id there =>
    refine ⟨.close _ _ _, rfl, rfl, List.Subset.refl _, fun empty => ?_⟩
    rw [empty] at there
    exact absurd there (AList.notMem_empty id)
  | drop => exact ⟨.close _ _ _, rfl, rfl, List.subset_append_right _ _, id⟩
  | returned call done =>
    refine ⟨?_, rfl, rfl, List.Subset.refl _, id⟩
    cases call with
    | spawn server group stage =>
      refine .spawn _ _ _ _ (fun h => ?_)
      subst h
      exact done
    | servers => exact .servers _ _ _
    | close => exact .close _ _ _

/-- A call keeps the id it spawns. -/
theorem Advances.spawnId (h : Advances call call') : call'.spawnId = call.spawnId := by
  cases h <;> rfl

/-- A call that has had its next section does not insert any more. -/
theorem Advances.inserts (h : Advances call call') : call'.inserts id = false := by
  cases h with
  | spawn server group stage stage' later =>
    cases stage' with
    | insert => exact absurd rfl later
    | push | returned => rfl
  | servers | close => rfl

/-- A turn does nothing, or it is the locked section of the call at the place. -/
theorem turn_cases (s : Supervision) (i : Nat) (faulty : List Child) :
    s.turn i faulty = s ∨ ∃ call after, s.calls[i]? = some call ∧ Locked s faulty call after ∧
      s.turn i faulty = ⟨after.2.1, after.2.2, s.calls.set i after.1⟩ := by
  unfold turn
  cases there : s.calls[i]? with
  | none => exact .inl rfl
  | some call => exact .inr ⟨call, _, rfl, lockedSection_cases s faulty call, rfl⟩

section Turn

variable {after : SupervisorCall × ServerSupervisor × List Child}

/-- Where a server stands is kept by a turn. -/
theorem Placed.turn (h : s.Placed id) (there : s.calls[i]? = some call)
    (locked : Locked s faulty call after) :
    (⟨after.2.1, after.2.2, s.calls.set i after.1⟩ : Supervision).Placed id where
  spawned := exists_mem_set_of_keeps there h.spawned
    (fun eq => locked.section.advances.spawnId.trans eq)
  inserted := forall_mem_set h.inserted locked.section.advances.inserts

/-- Every id that a turn leaves was drawn. -/
theorem Named.turn (h : s.Named) (there : s.calls[i]? = some call)
    (locked : Locked s faulty call after) :
    (⟨after.2.1, after.2.2, s.calls.set i after.1⟩ : Supervision).Named := by
  obtain ⟨advances, counter, launchId, -, -⟩ := locked.section
  have mem : call ∈ s.calls := List.mem_of_getElem? there
  refine ⟨?_, ?_, ?_⟩
  · simp only [counter, launchId]
    refine forall_mem_set h.drawn (fun id eq => h.drawn call mem id ?_)
    rwa [advances.spawnId] at eq
  · have same : ∀ (j : Nat) other id, (s.calls.set i after.1)[j]? = some other →
        other.spawnId = some id → ∃ old, s.calls[j]? = some old ∧ old.spawnId = some id := by
      intro j other id at_j own
      by_cases eq : i = j
      · subst eq
        rw [List.getElem?_set_self (List.getElem?_eq_some_iff.mp there).1] at at_j
        cases at_j
        exact ⟨call, there, advances.spawnId.symm.trans own⟩
      · rw [List.getElem?_set_ne eq] at at_j
        exact ⟨other, at_j, own⟩
    intro j k one other at_j at_k id own own'
    obtain ⟨old, at_j, own⟩ := same j one id at_j own
    obtain ⟨old', at_k, own'⟩ := same k other id at_k own'
    exact h.distinct j k old old' at_j at_k id own own'
  · intro server group stage mem'
    rcases List.mem_or_eq_of_mem_set mem' with old | eq
    · exact h.launched server group stage old
    · rw [← eq] at advances
      cases advances
      exact h.launched server group _ mem

/-- A group in the table was there before or was inserted by this section. -/
theorem Locked.lookup (locked : Locked s faulty call after) {group : List Child}
    (found : after.2.1.children.lookup id = some group) :
    s.supervisor.children.lookup id = some group ∨
      ∃ server, call = .spawn server group .insert ∧ server.id = id := by
  cases locked with
  | insert server group' =>
    by_cases eq : id = server.id
    · subst eq
      have found : (s.supervisor.children.insert server.id group').lookup server.id =
          some group := found
      rw [AList.lookup_insert] at found
      cases found
      exact .inr ⟨server, rfl, rfl⟩
    · have found : (s.supervisor.children.insert server.id group').lookup id = some group := found
      rw [AList.lookup_insert_ne eq] at found
      exact .inl found
  | prune | drop =>
    have found : (ServerSupervisor.untrack _ _).children.lookup id = some group := found
    rw [ServerSupervisor.untrack, ServerSupervisor.lookup_untrack] at found
    split at found
    · cases found
    · exact .inl found
  | push | retain | clone | unlist | container | noContainer | nothing | returned =>
    exact .inl found

/-- Only a look at the processes holds ids, and their groups are dropped. -/
theorem Locked.holds (locked : Locked s faulty call after) (holds : after.1.holds id = true) :
    s.Tracked id ∧ id ∉ after.2.1.children ∨ call.holds id = true := by
  cases locked with
  | prune before stage next =>
    rcases next with rfl | ⟨rfl, -⟩
    · have mem : id ∈ s.supervisor.deadIds s.exited faulty := by
        simpa [SupervisorCall.holds] using holds
      obtain ⟨group, there, -⟩ := ServerSupervisor.mem_deadIds.mp mem
      exact .inl ⟨AList.lookup_isSome.mp (by rw [there]; rfl),
        fun there => (ServerSupervisor.mem_untrack.mp there).2 mem⟩
    · cases holds
  | returned => exact .inr holds
  | insert | push | retain | clone | unlist | container | noContainer | drop | nothing =>
    cases holds

/-- What is due of a server stays due, or the turn has done it. -/
theorem Due.turn {supervisor : ServerSupervisor} {exited : List Child} (h : s.Due id)
    (there : s.calls[i]? = some call)
    (row : s.Listed id → (⟨supervisor, exited, s.calls.set i call'⟩ : Supervision).Due id)
    (lists : call.lists id = true →
      (⟨supervisor, exited, s.calls.set i call'⟩ : Supervision).Due id)
    (untracks : call.untracks id = true →
      (⟨supervisor, exited, s.calls.set i call'⟩ : Supervision).Due id) :
    (⟨supervisor, exited, s.calls.set i call'⟩ : Supervision).Due id := by
  rcases h with listed | listing | closing
  · exact row listed
  · rcases exists_mem_set there listing with own | other
    · exact lists own
    · exact .inr (.inl other)
  · rcases exists_mem_set there closing with own | other
    · exact untracks own
    · exact .inr (.inr other)

/-- A server whose processes are in the table has its row or is due to get one. -/
theorem Kept.due_turn (h : s.Kept) (there : s.calls[i]? = some call)
    (locked : Locked s faulty call after) (tracked : id ∈ after.2.1.children) :
    (⟨after.2.1, after.2.2, s.calls.set i after.1⟩ : Supervision).Due id := by
  have mem : call ∈ s.calls := List.mem_of_getElem? there
  have mem' : ∀ call', call' ∈ s.calls.set i call' := fun call' => mem_set_of_there there
  cases locked with
  | insert server group =>
    rcases ServerSupervisor.mem_track.mp tracked with rfl | tracked
    · exact .inr (.inl ⟨_, mem' _, decide_eq_true rfl⟩)
    · exact (h.due id tracked).turn there .inl (fun h => by cases h) (fun h => by cases h)
  | push server group =>
    refine (h.due id tracked).turn there (fun ⟨row, mem, eq⟩ => ?_) (fun own => ?_)
      (fun h => by cases h)
    · exact .inl ⟨row, List.mem_append_left _ mem, eq⟩
    · exact .inl ⟨server, List.mem_append_right _ (List.mem_singleton.mpr rfl),
        of_decide_eq_true own⟩
  | prune =>
    exact (h.due id (ServerSupervisor.mem_untrack.mp tracked).1).turn there .inl
      (fun h => by cases h) (fun h => by cases h)
  | retain before removed =>
    refine (h.due id tracked).turn there (fun ⟨row, listed, eq⟩ => ?_) (fun h => by cases h)
      (fun h => by cases h)
    -- the ids it takes off the list have no processes
    have other : id ∉ removed := fun held => (h.held _ mem id (decide_eq_true held)).2 tracked
    exact .inl ⟨row, List.mem_filter.mpr ⟨listed, decide_eq_true (eq ▸ other)⟩, eq⟩
  | clone =>
    exact (h.due id tracked).turn there .inl (fun h => by cases h) (fun h => by cases h)
  | unlist target =>
    refine (h.due id tracked).turn there (fun ⟨row, listed, eq⟩ => ?_) (fun h => by cases h)
      (fun h => by cases h)
    by_cases own : id = target
    · exact .inr (.inr ⟨_, mem' _, decide_eq_true own.symm⟩)
    · refine .inl ⟨row, List.mem_filter.mpr ⟨listed, decide_eq_true ?_⟩, eq⟩
      rw [eq]
      exact fun mem => own (List.mem_singleton.mp mem)
  | container target there' =>
    rw [h.containers] at there'
    exact absurd there' (AList.notMem_empty target)
  | noContainer target =>
    refine (h.due id tracked).turn there .inl (fun h => by cases h) (fun own => ?_)
    exact .inr (.inr ⟨_, mem' _, own⟩)
  | drop target =>
    obtain ⟨tracked, other⟩ := ServerSupervisor.mem_untrack.mp tracked
    refine (h.due id tracked).turn there .inl (fun h => by cases h) (fun own => ?_)
    exact absurd (List.mem_singleton.mpr (of_decide_eq_true own).symm) other
  | nothing target absent =>
    refine (h.due id tracked).turn there .inl (fun h => by cases h) (fun own => ?_)
    have none : s.supervisor.children.lookup id = none := of_decide_eq_true own ▸ absent
    exact absurd tracked (AList.lookup_eq_none.mp none)
  | returned done =>
    refine (h.due id tracked).turn there .inl (fun own => ?_) (fun own => ?_)
    · exact .inr (.inl ⟨_, mem' _, own⟩)
    · exact .inr (.inr ⟨_, mem' _, own⟩)

/-- A server whose processes are put into the table is placed: no other call has drawn its id. -/
theorem Named.placed (h : s.Named) (there : s.calls[i]? = some call)
    (own : call.spawnId = some id) (locked : Locked s faulty call after) :
    (⟨after.2.1, after.2.2, s.calls.set i after.1⟩ : Supervision).Placed id where
  spawned := ⟨after.1, mem_set_of_there there, locked.section.advances.spawnId.trans own⟩
  inserted := by
    intro other mem
    obtain ⟨j, at_j⟩ := List.mem_iff_getElem?.mp mem
    by_cases eq : i = j
    · subst eq
      rw [List.getElem?_set_self (List.getElem?_eq_some_iff.mp there).1] at at_j
      cases at_j
      exact locked.section.advances.inserts
    · have at_j : s.calls[j]? = some other := by rwa [List.getElem?_set_ne eq] at at_j
      rw [← Bool.not_eq_true]
      intro inserts
      exact eq (h.distinct i j call other there at_j id own
        (SupervisorCall.spawnId_of_inserts inserts))

/-- A turn keeps the tables in order. -/
theorem Kept.turn (h : s.Kept) (i : Nat) (faulty : List Child) : (s.turn i faulty).Kept := by
  rcases turn_cases s i faulty with eq | ⟨call, after, there, locked, eq⟩
  · rwa [eq]
  rw [eq]
  have mem : call ∈ s.calls := List.mem_of_getElem? there
  refine ⟨h.toNamed.turn there locked, locked.section.containers h.containers, ?_, ?_,
    fun id => h.due_turn there locked, ?_⟩
  · intro id group found
    rcases locked.lookup found with old | ⟨server, rfl, rfl⟩
    · exact ⟨(h.tracked id group old).1, (h.tracked id group old).2.turn there locked⟩
    · exact ⟨h.launched server group _ mem, h.toNamed.placed there rfl locked⟩
  · have absent : ∀ id, s.Placed id → ¬ s.Tracked id → id ∉ after.2.1.children := by
      intro id placed absent present
      obtain ⟨group, found⟩ := Option.isSome_iff_exists.mp (AList.lookup_isSome.mpr present)
      rcases locked.lookup found with old | ⟨server, rfl, rfl⟩
      · exact absent (AList.lookup_isSome.mp (by rw [old]; rfl))
      · exact absurd (placed.inserted _ mem) (by simp [SupervisorCall.inserts])
    have stays : ∀ id, s.Placed id ∧ ¬ s.Tracked id →
        (⟨after.2.1, after.2.2, s.calls.set i after.1⟩ : Supervision).Placed id ∧
          id ∉ after.2.1.children :=
      fun id ⟨placed, dropped⟩ => ⟨placed.turn there locked, absent id placed dropped⟩
    refine forall_mem_set (fun call mem id held => stays id (h.held call mem id held)) ?_
    intro id held
    rcases locked.holds held with ⟨tracked, dropped⟩ | held
    · obtain ⟨group, found⟩ := Option.isSome_iff_exists.mp (AList.lookup_isSome.mpr tracked)
      exact ⟨(h.tracked id group found).2.turn there locked, dropped⟩
    · exact stays id (h.held call mem id held)
  · intro before stage mem'
    refine List.Subset.trans ?_ locked.section.exited
    rcases List.mem_or_eq_of_mem_set mem' with old | eq
    · exact h.before before stage old
    · have advances := locked.section.advances
      rw [← eq] at advances
      cases advances
      exact h.before before _ mem

end Turn

/-! ### Beginnings -/

/-- A call that begins changes nothing for the servers that are there. -/
theorem Placed.append {supervisor : ServerSupervisor} {exited : List Child} (h : s.Placed id)
    (other : call.inserts id = false) :
    (⟨supervisor, exited, s.calls ++ [call]⟩ : Supervision).Placed id where
  spawned := exists_mem_append h.spawned
  inserted := by
    intro call' mem
    rcases List.mem_append.mp mem with old | new
    · exact h.inserted call' old
    · rw [List.mem_singleton.mp new]
      exact other

theorem Due.append {supervisor : ServerSupervisor} {exited : List Child} (h : s.Due id)
    (servers : supervisor.servers = s.supervisor.servers) :
    (⟨supervisor, exited, s.calls ++ [call]⟩ : Supervision).Due id := by
  rcases h with ⟨row, mem, eq⟩ | listing | closing
  · exact .inl ⟨row, servers ▸ mem, eq⟩
  · exact .inr (.inl (exists_mem_append listing))
  · exact .inr (.inr (exists_mem_append closing))

/-- A call that begins holds no id, and draws a new one if it spawns. -/
structure Begins (s : Supervision) (counter : Nat) (call : SupervisorCall) : Prop where
  draws : s.supervisor.counter ≤ counter
  drawn : ∀ id, call.spawnId = some id → ∃ n, s.supervisor.counter ≤ n ∧ n < counter ∧
    id = ServerSupervisor.serverId s.supervisor.launchId n
  launched : ∀ server group stage, call = .spawn server group stage →
    group.getLast? = some ⟨server.id, .editor⟩
  holds : ∀ id, call.holds id = false
  before : ∀ before stage, call = .servers before stage → before ⊆ s.exited

/-- The id of a call that begins is new. -/
theorem Named.fresh (h : s.Named) {counter : Nat} (begins : s.Begins counter call)
    (own : call.spawnId = some id) (other : SupervisorCall) (mem : other ∈ s.calls) :
    other.spawnId ≠ some id := by
  intro same
  obtain ⟨n, le, -, rfl⟩ := begins.drawn id own
  obtain ⟨m, lt, eq⟩ := h.drawn other mem _ same
  have := ServerSupervisor.serverId_injective _ eq
  omega

/-- The beginning of a call keeps the tables in order. -/
theorem Kept.begins (h : s.Kept) (counter : Nat) (begins : s.Begins counter call) :
    (⟨{ s.supervisor with counter }, s.exited, s.calls ++ [call]⟩ : Supervision).Kept := by
  have placed : ∀ id, s.Placed id →
      (⟨{ s.supervisor with counter }, s.exited, s.calls ++ [call]⟩ : Supervision).Placed id := by
    intro id placed
    refine placed.append ?_
    rw [← Bool.not_eq_true]
    intro inserts
    obtain ⟨other, mem, same⟩ := placed.spawned
    exact h.toNamed.fresh begins (SupervisorCall.spawnId_of_inserts inserts) other mem same
  have split : ∀ {call'}, call' ∈ s.calls ++ [call] → call' ∈ s.calls ∨ call' = call := by
    intro call' mem
    simpa using mem
  refine ⟨⟨?_, ?_, ?_⟩, h.containers, ?_, ?_, fun id tracked => (h.due id tracked).append rfl, ?_⟩
  · intro call' mem id own
    rcases split mem with old | rfl
    · obtain ⟨n, lt, eq⟩ := h.drawn call' old id own
      exact ⟨n, Nat.lt_of_lt_of_le lt begins.draws, eq⟩
    · obtain ⟨n, -, lt, eq⟩ := begins.drawn id own
      exact ⟨n, lt, eq⟩
  · have fresh : ∀ (k : Nat) other id, s.calls[k]? = some other → call.spawnId = some id →
        other.spawnId ≠ some id :=
      fun k other id at_k own => h.toNamed.fresh begins own other (List.mem_of_getElem? at_k)
    intro i j one other at_i at_j id own own'
    rcases getElem?_concat_cases at_i with old | ⟨rfl, rfl⟩
    · rcases getElem?_concat_cases at_j with old' | ⟨rfl, rfl⟩
      · exact h.distinct i j one other old old' id own own'
      · exact absurd own (fresh i one id old own')
    · rcases getElem?_concat_cases at_j with old' | ⟨rfl, rfl⟩
      · exact absurd own' (fresh j other id old' own)
      · rfl
  · intro server group stage mem
    rcases split mem with old | new
    · exact h.launched server group stage old
    · exact begins.launched server group stage new.symm
  · exact fun id group found =>
      ⟨(h.tracked id group found).1, placed id (h.tracked id group found).2⟩
  · intro call' mem id held
    rcases split mem with old | rfl
    · exact ⟨placed id (h.held call' old id held).1, (h.held call' old id held).2⟩
    · rw [begins.holds id] at held
      cases held
  · intro before stage mem
    rcases split mem with old | new
    · exact h.before before stage old
    · exact begins.before before stage new.symm

/-- So does every step. -/
theorem Kept.step (h : s.Kept) (step : SupervisionStep) : (s.step step).Kept := by
  cases step with
  | spawn reporter port folder =>
    refine h.begins (s.supervisor.counter + 1) ⟨Nat.le_succ _, ?_, ?_, fun id => rfl, ?_⟩
    · rintro id eq
      cases eq
      exact ⟨s.supervisor.counter, Nat.le_refl _, Nat.lt_succ_self _, rfl⟩
    · intro server group stage eq
      cases eq
      cases reporter <;> rfl
    · intro before stage eq
      cases eq
  | spawnFails =>
    refine ⟨⟨fun call mem id own => ?_, h.distinct, h.launched⟩, h.containers, fun id group found =>
      ⟨(h.tracked id group found).1, ?_⟩, fun call mem id held => ⟨?_, (h.held call mem id held).2⟩,
      h.due, h.before⟩
    · obtain ⟨n, lt, eq⟩ := h.drawn call mem id own
      exact ⟨n, Nat.lt_succ_of_lt lt, eq⟩
    · exact ⟨(h.tracked id group found).2.spawned, (h.tracked id group found).2.inserted⟩
    · exact ⟨(h.held call mem id held).1.spawned, (h.held call mem id held).1.inserted⟩
  | servers =>
    refine h.begins s.supervisor.counter ⟨Nat.le_refl _, ?_, ?_, fun id => rfl, ?_⟩
    · intro id eq
      cases eq
    · intro server group stage eq
      cases eq
    · intro before stage eq
      cases eq
      exact List.Subset.refl _
  | close target =>
    refine h.begins s.supervisor.counter ⟨Nat.le_refl _, ?_, ?_, fun id => rfl, ?_⟩
    · intro id eq
      cases eq
    · intro server group stage eq
      cases eq
    · intro before stage eq
      cases eq
  | turn i faulty => exact h.turn i faulty
  | exit child =>
    simp only [Supervision.step]
    split
    · refine ⟨⟨h.drawn, h.distinct, h.launched⟩, h.containers, fun id group found =>
        ⟨(h.tracked id group found).1, ?_⟩,
        fun call mem id held => ⟨?_, (h.held call mem id held).2⟩, h.due,
        fun before stage mem => List.subset_cons_of_subset _ (h.before before stage mem)⟩
      · exact ⟨(h.tracked id group found).2.spawned, (h.tracked id group found).2.inserted⟩
      · exact ⟨(h.held call mem id held).1.spawned, (h.held call mem id held).1.inserted⟩
    · exact h

/-- At the start there is nothing. -/
theorem kept_new (launchId : String) : (new launchId).Kept where
  drawn _ mem := by cases mem
  distinct i j call other there := by cases there
  launched _ _ _ mem := by cases mem
  containers := rfl
  tracked _ _ found := by cases found
  held _ mem := by cases mem
  due _ tracked := absurd tracked (AList.notMem_empty _)
  before _ _ mem := by cases mem

/-! ### The list -/

/-- What an orderly run keeps besides: a row on the list has its processes in the table, or some
call is still to take it off, as it is where its primary child had exited when a `servers` began
that has looked at the processes; and no such row has been returned. -/
structure Ordered (s : Supervision) : Prop where
  listed : ∀ id, s.Listed id → s.Tracked id ∨ s.Unlisting id
  looked : ∀ call ∈ s.calls, ∀ id, ⟨id, .editor⟩ ∈ call.looked → s.Listed id → s.Unlisting id
  alive : ∀ before servers, .servers before (.returned servers) ∈ s.calls →
    ∀ server ∈ servers, ⟨server.id, .editor⟩ ∉ before

section Turn

variable {after : SupervisorCall × ServerSupervisor × List Child}

/-- A call that is to take a row off stays so, or the turn has done it. -/
theorem Unlisting.turn {supervisor : ServerSupervisor} {exited : List Child} (h : s.Unlisting id)
    (there : s.calls[i]? = some call)
    (own : call.unlists id = true →
      (⟨supervisor, exited, s.calls.set i call'⟩ : Supervision).Unlisting id) :
    (⟨supervisor, exited, s.calls.set i call'⟩ : Supervision).Unlisting id := by
  rcases exists_mem_set there h with old | other
  · exact own old
  · exact other

/-- A row on the list was there before, and no call has just taken it off, or it was just put on. -/
theorem Locked.row (locked : Locked s faulty call after) (there : s.calls[i]? = some call)
    (row : (⟨after.2.1, after.2.2, s.calls.set i after.1⟩ : Supervision).Listed id) :
    (s.Listed id ∧ (s.Unlisting id →
      (⟨after.2.1, after.2.2, s.calls.set i after.1⟩ : Supervision).Unlisting id)) ∨
    ∃ server group, call = .spawn server group .push ∧ server.id = id := by
  cases locked with
  | push server group =>
    obtain ⟨row, mem, eq⟩ := row
    rcases List.mem_append.mp mem with old | new
    · exact .inl ⟨⟨row, old, eq⟩, fun h => h.turn there (fun own => by cases own)⟩
    · rw [List.mem_singleton.mp new] at eq
      exact .inr ⟨server, group, rfl, eq⟩
  | retain before removed =>
    obtain ⟨row, mem, eq⟩ := row
    obtain ⟨mem, other⟩ := List.mem_filter.mp mem
    refine .inl ⟨⟨row, mem, eq⟩, fun h => h.turn there (fun own => ?_)⟩
    rw [eq] at other
    exact absurd (of_decide_eq_true own) (of_decide_eq_true other)
  | unlist target =>
    obtain ⟨row, mem, eq⟩ := row
    obtain ⟨mem, other⟩ := List.mem_filter.mp mem
    refine .inl ⟨⟨row, mem, eq⟩, fun h => h.turn there (fun own => ?_)⟩
    rw [eq] at other
    exact absurd (List.mem_singleton.mpr (of_decide_eq_true own).symm) (of_decide_eq_true other)
  | insert | prune | clone | container | noContainer | drop | nothing =>
    exact .inl ⟨row, fun h => h.turn there (fun own => by cases own)⟩
  | returned done =>
    exact .inl ⟨row, fun h => h.turn there (fun own => ⟨_, mem_set_of_there there, own⟩)⟩

/-- A group stays in the table, or the call that drops it is still to take its row off, or it is a
`close`. -/
theorem Locked.stays (locked : Locked s faulty call after) (there : s.calls[i]? = some call)
    (tracked : s.Tracked id) :
    id ∈ after.2.1.children ∨
      (⟨after.2.1, after.2.2, s.calls.set i after.1⟩ : Supervision).Unlisting id ∨
      call = .close id .children := by
  cases locked with
  | insert server group => exact .inl (ServerSupervisor.mem_track.mpr (.inr tracked))
  | prune before stage next =>
    by_cases dead : id ∈ s.supervisor.deadIds s.exited faulty
    · rcases next with rfl | ⟨rfl, none⟩
      · exact .inr (.inl ⟨_, mem_set_of_there there, decide_eq_true dead⟩)
      · rw [none] at dead
        cases dead
    · exact .inl (ServerSupervisor.mem_untrack.mpr ⟨tracked, dead⟩)
  | drop target group =>
    by_cases eq : id = target
    · exact .inr (.inr (by rw [eq]))
    · exact .inl (ServerSupervisor.mem_untrack.mpr
        ⟨tracked, fun mem => eq (List.mem_singleton.mp mem)⟩)
  | push | retain | clone | unlist | container | noContainer | nothing | returned =>
    exact .inl tracked

/-- A look at the processes drops the groups whose primary child has exited. -/
theorem Kept.mem_deadIds (h : s.Kept) (tracked : s.Tracked id) (exited : ⟨id, .editor⟩ ∈ s.exited) :
    id ∈ s.supervisor.deadIds s.exited faulty := by
  obtain ⟨group, found⟩ := Option.isSome_iff_exists.mp (AList.lookup_isSome.mpr tracked)
  refine ServerSupervisor.mem_deadIds.mpr ⟨group, found, ?_⟩
  rw [primaryChildExited, (h.tracked id group found).1]
  simp only [exited, if_true]
  split <;> exact fun h => by cases h

/-- What a section has seen exited had exited before, or when the call began. -/
theorem Locked.looked (locked : Locked s faulty call after) {child : Child}
    (looked : child ∈ after.1.looked) :
    child ∈ call.looked ∨ ∃ before, call = .servers before .prune ∧ child ∈ before := by
  cases locked with
  | prune before stage next =>
    rcases next with rfl | ⟨rfl, -⟩ <;> exact .inr ⟨before, rfl, looked⟩
  | retain | returned => exact .inl looked
  | insert | push | clone | unlist | container | noContainer | drop | nothing => cases looked

/-- An id whose group a look at the processes drops is to be taken off the list. -/
theorem Locked.prunes {before : List Child} (locked : Locked s faulty (.servers before .prune) after)
    (there : s.calls[i]? = some (.servers before .prune))
    (dead : id ∈ s.supervisor.deadIds s.exited faulty) :
    (⟨after.2.1, after.2.2, s.calls.set i after.1⟩ : Supervision).Unlisting id := by
  cases locked with
  | prune _ stage next =>
    rcases next with rfl | ⟨rfl, none⟩
    · exact ⟨_, mem_set_of_there there, decide_eq_true dead⟩
    · rw [none] at dead
      cases dead
  | returned _ done => exact absurd done (fun h => h)

/-- An orderly turn keeps the order of the two tables. -/
theorem Ordered.turn (o : s.Ordered) (h : s.Kept) (orderly : s.Orderly (.turn i faulty)) :
    (s.turn i faulty).Ordered := by
  rcases turn_cases s i faulty with eq | ⟨call, after, there, locked, eq⟩
  · rwa [eq]
  rw [eq]
  have mem : call ∈ s.calls := List.mem_of_getElem? there
  have orderly : s.OrderlySection call := orderly call there
  -- what an earlier look at the processes has seen exited
  have seen : ∀ other ∈ s.calls, ∀ id, ⟨id, .editor⟩ ∈ other.looked →
      (⟨after.2.1, after.2.2, s.calls.set i after.1⟩ : Supervision).Listed id →
        (⟨after.2.1, after.2.2, s.calls.set i after.1⟩ : Supervision).Unlisting id := by
    intro other mem' id looked row
    rcases locked.row there row with ⟨listed, carry⟩ | ⟨server, group, rfl, rfl⟩
    · exact carry (o.looked other mem' id looked listed)
    · rcases orderly with unlisting | ⟨-, unseen⟩
      · exact unlisting.turn there (fun own => by cases own)
      · exact absurd looked (unseen other mem')
  refine ⟨?_, ?_, ?_⟩
  · intro id row
    rcases locked.row there row with ⟨listed, carry⟩ | ⟨server, group, rfl, rfl⟩
    · rcases o.listed id listed with tracked | unlisting
      · rcases locked.stays there tracked with stays | unlisting | rfl
        · exact .inl stays
        · exact .inr unlisting
        · exact .inr (carry (orderly listed))
      · exact .inr (carry unlisting)
    · rcases orderly with unlisting | ⟨tracked, -⟩
      · exact .inr (unlisting.turn there (fun own => by cases own))
      · rcases locked.stays there tracked with stays | unlisting | close
        · exact .inl stays
        · exact .inr unlisting
        · cases close
  · intro call' mem' id looked row
    rcases List.mem_or_eq_of_mem_set mem' with old | rfl
    · exact seen call' old id looked row
    rcases locked.looked looked with looked | ⟨before, rfl, exited⟩
    · exact seen call mem id looked row
    · rcases locked.row there row with ⟨listed, carry⟩ | ⟨server, group, other, -⟩
      · rcases o.listed id listed with tracked | unlisting
        · exact locked.prunes there (h.mem_deadIds tracked (h.before before .prune mem exited))
        · exact carry unlisting
      · cases other
  · intro before servers mem'
    rcases List.mem_or_eq_of_mem_set mem' with old | eq
    · exact o.alive before servers old
    · cases locked with
      | clone =>
        cases eq
        intro server listed exited
        exact orderly server listed exited (o.looked _ mem server.id exited ⟨server, listed, rfl⟩)
      | returned =>
        have eq : .servers before (.returned servers) = call := eq
        rw [← eq] at mem
        exact o.alive before servers mem
      | prune before' stage next => rcases next with rfl | ⟨rfl, -⟩ <;> cases eq
      | insert | push | retain | unlist | container | noContainer | drop | nothing => cases eq

end Turn

/-- The beginning of a call keeps it. -/
theorem Ordered.begins (o : s.Ordered) (counter : Nat) (looked : call.looked = [])
    (notReturned : ∀ before servers, call ≠ .servers before (.returned servers)) :
    (⟨{ s.supervisor with counter }, s.exited, s.calls ++ [call]⟩ : Supervision).Ordered := by
  have split : ∀ {call'}, call' ∈ s.calls ++ [call] → call' ∈ s.calls ∨ call' = call := by
    intro call' mem
    simpa using mem
  refine ⟨fun id row => (o.listed id row).imp_right exists_mem_append, ?_, ?_⟩
  · intro call' mem id seen row
    rcases split mem with old | rfl
    · exact exists_mem_append (o.looked call' old id seen row)
    · rw [looked] at seen
      cases seen
  · intro before servers mem
    rcases split mem with old | new
    · exact o.alive before servers old
    · exact absurd new.symm (notReturned before servers)

/-- Every orderly step keeps it. -/
theorem Ordered.step (o : s.Ordered) (h : s.Kept) (step : SupervisionStep)
    (orderly : s.Orderly step) : (s.step step).Ordered := by
  cases step with
  | spawn reporter port folder =>
    exact o.begins (s.supervisor.counter + 1) rfl (fun _ _ eq => by cases eq)
  | spawnFails => exact ⟨o.listed, o.looked, o.alive⟩
  | servers => exact o.begins s.supervisor.counter rfl (fun _ _ eq => by cases eq)
  | close target => exact o.begins s.supervisor.counter rfl (fun _ _ eq => by cases eq)
  | turn i faulty => exact o.turn h orderly
  | exit child =>
    simp only [Supervision.step]
    split
    · exact ⟨o.listed, o.looked, o.alive⟩
    · exact o

theorem ordered_new (launchId : String) : (new launchId).Ordered where
  listed _ row := by
    obtain ⟨_, mem, _⟩ := row
    cases mem
  looked _ mem := by cases mem
  alive _ _ mem := by cases mem

/-! ## A spawn on its own -/

/-- The newest call has its next section. -/
theorem turn_concat {supervisor : ServerSupervisor} {exited : List Child}
    {calls : List SupervisorCall} :
    (⟨supervisor, exited, calls ++ [call]⟩ : Supervision).turn calls.length faulty =
      ⟨((⟨supervisor, exited, calls ++ [call]⟩ : Supervision).lockedSection faulty call).2.1,
        ((⟨supervisor, exited, calls ++ [call]⟩ : Supervision).lockedSection faulty call).2.2,
        calls ++ [((⟨supervisor, exited, calls ++ [call]⟩ :
          Supervision).lockedSection faulty call).1]⟩ := by
  rw [turn, List.getElem?_concat_length]
  simp

/-- The steps of a call of `spawn_local` that nothing comes between. -/
def spawnLocalSteps (s : Supervision) (env : SpawnEnv) (o : SpawnOutcomes)
    (folderOverride : Option String) : List SupervisionStep :=
  match (spawnLocal env o folderOverride ⟨s.supervisor, []⟩).1, o.freePort with
  | .ok _, .ok port =>
    [.spawn (o.spawnReporter matches .ok ()) port (o.folder env s.supervisor.nextId folderOverride),
      .turn s.calls.length [], .turn s.calls.length []]
  | _, _ => [.spawnFails]

/-- Such a call leaves the tables as its two last inserts do, and one that fails only draws its
number. -/
theorem spawnLocal_turns (s : Supervision) (env : SpawnEnv) (o : SpawnOutcomes)
    (folderOverride : Option String) :
    (spawnLocal env o folderOverride ⟨s.supervisor, []⟩).2.supervisor =
      ((s.spawnLocalSteps env o folderOverride).foldl step s).supervisor := by
  unfold spawnLocalSteps
  rcases spawnLocal_cases env o folderOverride s.supervisor with ⟨e, -, eq⟩ | ⟨e, -, -, eq⟩ |
    ⟨port, free, -, eq⟩
  · rw [eq]
    rfl
  · rw [eq]
    rfl
  · rw [eq, free]
    simp only [List.foldl_cons, List.foldl_nil, step, beginSpawn]
    rw [turn_concat, lockedSection, turn_concat, lockedSection]
    unfold SpawnOutcomes.reporters
    cases o.spawnReporter <;> rfl

/-! ## Whole runs -/

/-- A call that has returned has nothing left to do. -/
theorem idle_of_returned (returned : call.Returned) :
    call.lists id = false ∧ call.unlists id = false ∧ call.untracks id = false := by
  cases call with
  | spawn server group stage => cases stage <;> first | exact ⟨rfl, rfl, rfl⟩ | cases returned
  | servers before stage => cases stage <;> first | exact ⟨rfl, rfl, rfl⟩ | cases returned
  | close target stage => cases stage <;> first | exact ⟨rfl, rfl, rfl⟩ | cases returned

/-- At rest no server is between two halves. -/
theorem Ordered.inStep (o : s.Ordered) (h : s.Kept) : s.InStep where
  agree rest id := by
    constructor
    · intro listed
      rcases o.listed id listed with tracked | ⟨call, mem, unlists⟩
      · exact tracked
      · rw [(idle_of_returned (rest call mem)).2.1] at unlists
        cases unlists
    · intro tracked
      rcases h.due id tracked with listed | ⟨call, mem, lists⟩ | ⟨call, mem, untracks⟩
      · exact listed
      · rw [(idle_of_returned (rest call mem)).1] at lists
        cases lists
      · rw [(idle_of_returned (rest call mem)).2.2] at untracks
        cases untracks
  alive := o.alive

/-- In every state of an orderly run the list of the servers is in step with their processes. -/
theorem run_inStep (launchId : String) (steps : List SupervisionStep)
    (orderly : Along step Orderly (new launchId) steps) (k : Nat) :
    (run launchId (steps.take k)).InStep := by
  have orderly : Along step Orderly (new launchId) (steps.take k) := by
    rw [← List.take_append_drop k steps] at orderly
    exact (Along.append.mp orderly).1
  have kept := Along.invariant (P := fun s : Supervision => s.Kept ∧ s.Ordered)
    (fun s step h orderly => ⟨h.1.step step, h.2.step h.1 step orderly⟩) (steps.take k)
    (new launchId) ⟨kept_new launchId, ordered_new launchId⟩ orderly
  exact kept.2.inStep kept.1

/-- Every step of the spawn succeeds. -/
def editorStarts : SpawnOutcomes := { editorMissing with editorResolved := true }

/-- A server is spawned and its editor exits. Then a list of the servers, a second spawn and a close
of the first server overlap: the list has dropped the processes when the second spawn is between its
inserts, and the close takes the row off before the list gets to it. -/
def overlapping : List SupervisionStep :=
  [.spawn true 49152 "/home/u", .turn 0 [], .turn 0 [], .exit ⟨"server-1f-2a-1", .editor⟩,
    .servers, .spawn false 49153 "/srv", .turn 1 [], .turn 2 [], .close "server-1f-2a-1",
    .turn 3 [], .turn 1 [], .turn 2 [], .turn 3 [], .turn 1 [], .turn 3 []]

/-- At its end, when every call has returned, the run is in step, and its first three steps are a
call of `spawn_local`. -/
theorem run_inStep_overlapping :
    (run "1f-2a" (overlapping.take 15)).InStep ∧
    (∀ call ∈ (run "1f-2a" overlapping).calls, call.Returned) ∧
    (run "1f-2a" (overlapping.take 3)).supervisor =
      (spawnLocal ⟨"/home/u/.fleet/mux", none, "/home/u", "code"⟩ editorStarts none
        ⟨.new "1f-2a", []⟩).2.supervisor :=
  ⟨run_inStep "1f-2a" overlapping (by decide +kernel) 15, by decide +kernel,
    (spawnLocal_turns (new "1f-2a") ⟨"/home/u/.fleet/mux", none, "/home/u", "code"⟩ editorStarts
      none).symm⟩

/-- The editor exits between the two inserts of its spawn, and a list of the servers that began
thereafter drops its processes before its row is there. -/
def exitBetweenInserts : List SupervisionStep :=
  [.spawn true 49152 "/home/u", .turn 0 [], .exit ⟨"server-1f-2a-1", .editor⟩, .servers, .turn 1 [],
    .turn 1 [], .turn 0 [], .turn 1 []]

/-- The row stays on the list without its processes, and is in what the call has returned. -/
theorem exitBetweenInserts_outOfStep : ¬ (run "1f-2a" exitBetweenInserts).InStep := by
  intro law
  have rest : ∀ call ∈ (run "1f-2a" exitBetweenInserts).calls, call.Returned := by decide +kernel
  have listed : (run "1f-2a" exitBetweenInserts).Listed "server-1f-2a-1" := by decide +kernel
  have untracked : ¬ (run "1f-2a" exitBetweenInserts).Tracked "server-1f-2a-1" := by decide +kernel
  exact untracked ((law.agree rest _).mp listed)

end Supervision

end VsFleet
