import VsFleet.Hub.Lockfile
import VsFleet.Misc.Runs

/-!
# One Hub at a time

A takeover reads the pid of a lock file, finds the process dead and removes what stands at the path
by then, which may be the file of a process that has taken the lock in between. What a step of a
process does to the lock is said once; the invariants are read off that.
-/

namespace VsFleet

/-- The file a process has read and not yet decided upon. -/
def LockPhase.seen : LockPhase → Option LockFile
  | .checking _ seen | .removing seen => seen
  | _ => none

theorem LockPhase.live_of_uses {phase : LockPhase} {n : Nat} (h : phase.uses = some n) :
    phase.live = true := by
  cases phase <;> simp_all [uses, live]

theorem LockPhase.uses_of_holds {phase : LockPhase} (h : phase.holds = true) :
    ∃ n, phase.uses = some n := by
  cases phase <;> simp_all [uses, holds]

namespace Lockfile

variable {pid : Nat → Nat} {m m' : Lockfile} {s : Step}

@[simp] theorem move_phase (m : Lockfile) (p q : Nat) (phase : LockPhase) :
    (m.move p phase).phase q = if q = p then phase else m.phase q := by
  simp [move, Function.update_apply]

/-- A file at the path, or one a process has read there. -/
def Shown (m : Lockfile) (f : LockFile) : Prop :=
  f ∈ m.file ∨ ∃ q, f ∈ (m.phase q).seen

/-- All that a step can do. -/
inductive Effect (pid : Nat → Nat) (m : Lockfile) : Step → Lockfile → Prop
  | stay {t} : Effect pid m t m
  | start {p} (real : pid p ≠ 0) :
    Effect pid m (.start p) { m.move p .idle with started := p :: m.started }
  | go {t p phase} (live : (m.phase p).live = true)
    (uses : ∀ n ∈ phase.uses, (m.phase p).uses = some n)
    (shown : ∀ f ∈ phase.seen, m.Shown f)
    (stale : ∀ f, phase = .removing (some f) → ∀ k ∈ f.recorded, m.pidIsAlive pid k = false) :
    Effect pid m t (m.move p phase)
  | create {t p again} (place : m.phase p = .creating again) (free : m.file = none) :
    Effect pid m t
      { m.move p (.writing m.serial) with
        file := some ⟨m.serial, p, none⟩
        serial := m.serial + 1 }
  | write {t p n phase content} (place : m.phase p = .writing n)
    (uses : ∀ k ∈ phase.uses, k = n ∧ content = some (pid p)) (seen : phase.seen = none) :
    Effect pid m t { m.move p phase with file := m.file.map (LockFile.write n content) }
  | remove {p seen} (place : m.phase p = .removing seen) :
    Effect pid m (.next p) { m.move p (.creating true) with file := none }
  | unlink {t p n} (place : m.phase p = .unlinking n) :
    Effect pid m t { m.move p .idle with file := none }

/-- A process goes on without a file of its own or one it has read. -/
theorem Effect.leave {p : Nat} {phase : LockPhase} (live : (m.phase p).live = true)
    (uses : phase.uses = none) (seen : phase.seen = none) : Effect pid m s (m.move p phase) := by
  refine .go live (by simp [uses]) (by simp [seen]) ?_
  rintro f rfl
  cases seen

/-- A process goes on with the file it has. -/
theorem Effect.keep {p : Nat} {phase : LockPhase} {n : Nat} (old : (m.phase p).uses = some n)
    (uses : phase.uses = some n) (seen : phase.seen = none) : Effect pid m s (m.move p phase) := by
  refine .go (LockPhase.live_of_uses old) (fun k hk => ?_) (by simp [seen]) ?_
  · rw [old, ← uses]
    exact hk
  · rintro f rfl
    cases seen

theorem effect_reclaim {p : Nat} {again : Bool} {seen : Option LockFile}
    (place : m.phase p = .checking again seen)
    (stale : ∀ k ∈ readPid seen, m.pidIsAlive pid k = false) :
    Effect pid m s (m.reclaim p seen again) := by
  have live : (m.phase p).live = true := by rw [place]; rfl
  cases again with
  | true => exact .leave live rfl rfl
  | false =>
    refine .go live (by simp [LockPhase.uses]) (fun f hf => .inr ⟨p, ?_⟩) ?_
    · rw [place]
      exact hf
    · intro f same k recorded
      cases same
      exact stale k recorded

theorem effect_next (p : Nat) : Effect pid m (.next p) (m.next pid p) := by
  unfold next
  split
  case h_1 again place =>
    have live : (m.phase p).live = true := by rw [place]; rfl
    split
    · next free => exact .create place free
    · exact .leave live rfl rfl
  case h_2 again place =>
    refine .go (by rw [place]; rfl) (by simp [LockPhase.uses]) (fun f hf => .inl hf) ?_
    intro f same
    cases same
  case h_3 again seen place =>
    have live : (m.phase p).live = true := by rw [place]; rfl
    split
    · next k recorded =>
      split
      · exact .leave live rfl rfl
      · next gone => exact effect_reclaim place (by simpa [recorded] using gone)
    · next unreadable => exact effect_reclaim place (by simp [unreadable])
  case h_4 seen place => exact .remove place
  case h_5 place => exact .leave (by rw [place]; rfl) rfl rfl
  case h_6 n place => exact .write place (by simp [LockPhase.uses]) rfl
  case h_7 n place =>
    split
    · exact .keep (by rw [place]; rfl) rfl rfl
    · exact .leave (by rw [place]; rfl) rfl rfl
  case h_8 n place => exact .unlink place
  all_goals exact .stay

theorem effect_ioError (p : Nat) (content : Option Nat) :
    Effect pid m (.ioError p content) (m.ioError p content) := by
  unfold ioError
  split
  case h_2 again place =>
    refine .go (by rw [place]; rfl) (by simp [LockPhase.uses]) (by simp [LockPhase.seen]) ?_
    intro f same
    cases same
  case h_5 n place => exact .write place (by simp [LockPhase.uses]) rfl
  all_goals first
    | exact .stay
    | next place => exact .leave (by rw [place]; rfl) rfl rfl

theorem effect (s : Step) : Effect pid m s (m.step pid s) := by
  cases s with
  | start p =>
    simp only [step]
    split
    · next guard => exact .start guard.2.1
    · exact .stay
  | acquire p =>
    simp only [step]
    split
    · next place => exact .leave (by rw [place]; rfl) rfl rfl
    · next place => exact .leave (by rw [place]; rfl) rfl rfl
    · exact .stay
  | next p => exact effect_next p
  | ioError p content => exact effect_ioError p content
  | drop p =>
    simp only [step]
    split
    · next n place => exact .keep (by rw [place]; rfl) rfl rfl
    · exact .stay
  | crash p =>
    simp only [step]
    split
    · next live => exact .leave live rfl rfl
    · exact .stay

/-- Every live process has been started, with an id that is not 0. -/
def Started (pid : Nat → Nat) (m : Lockfile) : Prop :=
  ∀ q, (m.phase q).live = true → q ∈ m.started ∧ pid q ≠ 0

theorem Started.new : new.Started pid := fun q live => by cases live

theorem Started.isAlive (h : m.Started pid) {q : Nat} (live : (m.phase q).live = true) :
    m.pidIsAlive pid (pid q) = true := by
  obtain ⟨mem, real⟩ := h q live
  simp only [pidIsAlive, Bool.and_eq_true, bne_iff_ne, List.any_eq_true, beq_iff_eq]
  exact ⟨real, q, mem, live, rfl⟩

theorem Started.effect (h : m.Started pid) (effect : Effect pid m s m') : m'.Started pid := by
  intro q live
  cases effect with
  | stay => exact h q live
  | @start p real =>
    by_cases own : q = p
    · subst own
      exact ⟨List.mem_cons_self .., real⟩
    · obtain ⟨mem, real⟩ := h q (by simpa [own] using live)
      exact ⟨List.mem_cons_of_mem p mem, real⟩
  | @go _ p _ before =>
    by_cases own : q = p
    · exact own ▸ h p before
    · exact h q (by simpa [own] using live)
  | @create _ p _ place | @write _ p _ _ _ place | @remove p _ place | @unlink _ p _ place =>
    by_cases own : q = p
    · exact own ▸ h p (by rw [place]; rfl)
    · exact h q (by simpa [own] using live)

theorem uses_of_move {p : Nat} {phase : LockPhase}
    (uses : ∀ n ∈ phase.uses, (m.phase p).uses = some n) (q n : Nat)
    (used : ((m.move p phase).phase q).uses = some n) : (m.phase q).uses = some n := by
  by_cases own : q = p
  · subst own
    exact uses n (by simpa using used)
  · simpa [own] using used

/-- Every file in use is at the path, and its creator uses it. -/
def Sole (m : Lockfile) : Prop :=
  ∀ q n, (m.phase q).uses = some n → ∃ f ∈ m.file, f.serial = n ∧ f.creator = q

theorem Sole.new : new.Sole := fun q n used => by cases used

theorem Sole.exclusive (h : m.Sole) : m.Exclusive := by
  intro p q hp hq
  obtain ⟨k, useK⟩ := LockPhase.uses_of_holds hp
  obtain ⟨n, useN⟩ := LockPhase.uses_of_holds hq
  obtain ⟨f, atF, -, byP⟩ := h p k useK
  obtain ⟨g, atG, -, byQ⟩ := h q n useN
  rw [← byP, ← byQ, Option.mem_unique atF atG]

@[simp] theorem write_serial (n : Nat) (content : Option Nat) (f : LockFile) :
    (f.write n content).serial = f.serial := by
  unfold LockFile.write
  split <;> rfl

@[simp] theorem write_creator (n : Nat) (content : Option Nat) (f : LockFile) :
    (f.write n content).creator = f.creator := by
  unfold LockFile.write
  split <;> rfl

theorem Sole.effect (h : m.Sole) (started : m.Started pid) (spares : m.Spares s)
    (effect : Effect pid m s m') : m'.Sole := by
  intro q n used
  cases effect with
  | stay => exact h q n used
  | @start p real => exact h q n (uses_of_move (by simp [LockPhase.uses]) q n used)
  | @go _ p phase live uses => exact h q n (uses_of_move uses q n used)
  | @create _ p _ place free =>
    by_cases own : q = p
    · subst own
      exact ⟨_, rfl, by simpa [LockPhase.uses] using used, rfl⟩
    · obtain ⟨f, atPath, -⟩ := h q n (by simpa [own] using used)
      rw [free] at atPath
      cases atPath
  | @write _ p k phase content place uses =>
    have before := uses_of_move (fun j hj => by rw [place, (uses j hj).1]; rfl) q n used
    obtain ⟨f, atPath, serial, creator⟩ := h q n before
    exact ⟨_, Option.mem_map_of_mem _ atPath, by simpa using serial, by simpa using creator⟩
  | @remove p seen place =>
    have before := uses_of_move (by simp [LockPhase.uses]) q n used
    obtain ⟨f, atPath, serial, -⟩ := h q n before
    have mem := (started q (LockPhase.live_of_uses before)).1
    exact absurd (serial ▸ before) (spares (by rw [place]; rfl) f atPath q mem)
  | @unlink _ p k place =>
    by_cases own : q = p
    · simp [own, LockPhase.uses] at used
    · -- the file at the path is the one of the process that drops its lock
      obtain ⟨f, atPath, -, byQ⟩ := h q n (by simpa [own] using used)
      obtain ⟨g, atPath', -, byP⟩ := h p k (by rw [place]; rfl)
      rw [Option.mem_unique atPath atPath', byP] at byQ
      exact absurd byQ.symm own

/-- A takeover removes the file it has read a pid in. -/
def Intact (m : Lockfile) : Step → Prop
  | .next p => ∀ seen, m.phase p = .removing seen →
    ∀ f ∈ m.file, ∃ g ∈ seen, g.serial = f.serial ∧ g.recorded ≠ none
  | _ => True

instance (m : Lockfile) : DecidablePred m.Intact
  | .next p =>
    match place : m.phase p with
    | .removing seen => decidable_of_iff
        (∀ f ∈ m.file, ∃ g ∈ seen, g.serial = f.serial ∧ g.recorded ≠ none)
        (by simp [Intact, place])
    | .unborn | .idle | .failed _ | .creating _ | .reading _ | .checking .. | .rereading | .writing _
    | .holding _ | .releasing _ | .unlinking _ | .dead => isTrue (by simp [Intact, place])
  | .start _ | .acquire _ | .drop _ | .crash _ | .ioError .. => isTrue trivial

/-- No two processes use one file. A pid in a file is the one of the process that uses it, and a
file that was read and found stale has no user. -/
structure Signed (pid : Nat → Nat) (m : Lockfile) : Prop where
  alone : ∀ p q n, (m.phase p).uses = some n → (m.phase q).uses = some n → p = q
  fresh : ∀ q n, (m.phase q).uses = some n → n < m.serial
  shown : ∀ f, m.Shown f → f.serial < m.serial
  signed : ∀ f, m.Shown f → ∀ q, (m.phase q).uses = some f.serial → ∀ k ∈ f.recorded, k = pid q
  stale : ∀ p f, m.phase p = .removing (some f) → f.recorded ≠ none →
    ∀ q, (m.phase q).uses ≠ some f.serial

theorem Signed.new : new.Signed pid where
  alone p q n used := by cases used
  fresh q n used := by cases used
  shown f shown := by
    obtain atPath | ⟨q, read⟩ := shown
    · cases atPath
    · cases read
  signed f _ q used := by cases used
  stale p f place := by cases place

theorem shown_of_move {p : Nat} {phase : LockPhase} {f : LockFile}
    (shown : ∀ g ∈ phase.seen, m.Shown g) (known : ∃ q, f ∈ ((m.move p phase).phase q).seen) :
    m.Shown f := by
  obtain ⟨q, read⟩ := known
  by_cases own : q = p
  · subst own
    exact shown f (by simpa using read)
  · exact .inr ⟨q, by simpa [own] using read⟩

/-- A step that makes no file and takes none into use keeps what is known: a pid that is found dead
is not the one of a user of the file, for that one lives. -/
theorem Signed.of_move (h : m.Signed pid) (started : m.Started pid) {p : Nat} {phase : LockPhase}
    (phases : m'.phase = (m.move p phase).phase) (serial : m'.serial = m.serial)
    (file : ∀ f ∈ m'.file, f ∈ m.file) (uses : ∀ n ∈ phase.uses, (m.phase p).uses = some n)
    (shown : ∀ f ∈ phase.seen, m.Shown f)
    (stale : ∀ f, phase = .removing (some f) → ∀ k ∈ f.recorded, m.pidIsAlive pid k = false) :
    m'.Signed pid := by
  have kept : ∀ q n, (m'.phase q).uses = some n → (m.phase q).uses = some n := by
    rw [phases]
    exact uses_of_move uses
  have known : ∀ f, m'.Shown f → m.Shown f := by
    rintro f (atPath | read)
    · exact .inl (file f atPath)
    · exact shown_of_move shown (phases ▸ read)
  refine ⟨fun k q n useK useQ => h.alone k q n (kept k n useK) (kept q n useQ),
    fun q n used => serial ▸ h.fresh q n (kept q n used),
    fun f known' => serial ▸ h.shown f (known f known'),
    fun f known' q used => h.signed f (known f known') q (kept q _ used),
    fun k f place recorded q used => ?_⟩
  by_cases own : k = p
  · subst own
    have place' : phase = .removing (some f) := by simpa [phases] using place
    have known' : m.Shown f := shown f (by rw [place']; rfl)
    obtain ⟨j, written⟩ := Option.ne_none_iff_exists'.mp recorded
    have before := kept q _ used
    have alive := started.isAlive (LockPhase.live_of_uses before)
    rw [← h.signed f known' q before j written, stale f place' j written] at alive
    cases alive
  · exact h.stale k f (by simpa [phases, own] using place) recorded q (kept q _ used)

theorem Signed.create (h : m.Signed pid) (p : Nat) :
    Signed pid { m.move p (.writing m.serial) with
      file := some ⟨m.serial, p, none⟩
      serial := m.serial + 1 } := by
  have shown : ∀ f, Shown { m.move p (.writing m.serial) with
      file := some ⟨m.serial, p, none⟩
      serial := m.serial + 1 } f → f = ⟨m.serial, p, none⟩ ∨ m.Shown f := by
    rintro f (atPath | known)
    · exact .inl (Option.some.inj atPath).symm
    · exact .inr (shown_of_move (by simp [LockPhase.seen]) known)
  have uses : ∀ q n, ((m.move p (.writing m.serial)).phase q).uses = some n →
      (q = p ∧ n = m.serial) ∨ (m.phase q).uses = some n := by
    intro q n used
    by_cases own : q = p
    · exact .inl ⟨own, by simpa [own, LockPhase.uses, eq_comm] using used⟩
    · exact .inr (by simpa [own] using used)
  refine ⟨fun k q n useK useQ => ?_, fun q n used => ?_, fun f known => ?_,
    fun f known q used k recorded => ?_, fun k f place recorded q used => ?_⟩
  · obtain ⟨own, serial⟩ | oldK := uses k n useK
    · obtain ⟨own', -⟩ | oldQ := uses q n useQ
      · rw [own, own']
      · exact absurd (h.fresh q n oldQ) (by omega)
    · obtain ⟨-, serial⟩ | oldQ := uses q n useQ
      · exact absurd (h.fresh k n oldK) (by omega)
      · exact h.alone k q n oldK oldQ
  · obtain ⟨-, rfl⟩ | old := uses q n used
    · exact Nat.lt_succ_self _
    · exact Nat.lt_succ_of_lt (h.fresh q n old)
  · obtain rfl | old := shown f known
    · exact Nat.lt_succ_self _
    · exact Nat.lt_succ_of_lt (h.shown f old)
  · obtain rfl | old := shown f known
    · cases recorded
    · obtain ⟨-, serial⟩ | before := uses q _ used
      · exact absurd (h.shown f old) (by omega)
      · exact h.signed f old q before k recorded
  · by_cases own : k = p
    · simp [own] at place
    · have before : m.phase k = .removing (some f) := by simpa [own] using place
      have old : m.Shown f := .inr ⟨k, by rw [before]; rfl⟩
      obtain ⟨-, serial⟩ | same := uses q _ used
      · exact absurd (h.shown f old) (by omega)
      · exact h.stale k f before recorded q same

theorem Signed.write (h : m.Signed pid) {p n : Nat} {phase : LockPhase} {content : Option Nat}
    (place : m.phase p = .writing n)
    (uses : ∀ k ∈ phase.uses, k = n ∧ content = some (pid p)) (seen : phase.seen = none) :
    Signed pid { m.move p phase with file := m.file.map (LockFile.write n content) } := by
  have own : (m.phase p).uses = some n := by rw [place]; rfl
  have kept : ∀ q k, ((m.move p phase).phase q).uses = some k → (m.phase q).uses = some k :=
    uses_of_move (fun k used => by rw [(uses k used).1, own])
  have shown : ∀ f, Shown { m.move p phase with file := m.file.map (LockFile.write n content) } f →
      (∃ g, m.Shown g ∧ f = g.write n content) ∨ m.Shown f := by
    rintro f (atPath | known)
    · obtain ⟨g, before, rfl⟩ := Option.map_eq_some_iff.mp atPath
      exact .inl ⟨g, .inl before, rfl⟩
    · exact .inr (shown_of_move (by simp [seen]) known)
  refine ⟨fun k q j useK useQ => h.alone k q j (kept k j useK) (kept q j useQ),
    fun q j used => h.fresh q j (kept q j used), fun f known => ?_,
    fun f known q used k recorded => ?_, fun k f place' recorded q used => ?_⟩
  · obtain ⟨g, old, rfl⟩ | old := shown f known
    · rw [write_serial]
      exact h.shown g old
    · exact h.shown f old
  · obtain ⟨g, old, rfl⟩ | old := shown f known
    · rw [write_serial] at used
      have before := kept q _ used
      by_cases mine : g.serial = n
      · -- the one user of the file is the process that writes
        obtain rfl := h.alone q p n (mine ▸ before) own
        have signed := (uses n (by simpa [mine] using used)).2
        rw [LockFile.write, if_pos mine, signed] at recorded
        exact (Option.some.inj recorded).symm
      · rw [LockFile.write, if_neg mine] at recorded
        exact h.signed g old q before k recorded
    · exact h.signed f old q (kept q _ used) k recorded
  · by_cases writer : k = p
    · subst writer
      rw [show phase = .removing (some f) by simpa using place'] at seen
      cases seen
    · exact h.stale k f (by simpa [writer] using place') recorded q (kept q _ used)

theorem Signed.effect (h : m.Signed pid) (started : m.Started pid) (effect : Effect pid m s m') :
    m'.Signed pid := by
  cases effect with
  | stay => exact h
  | @start p real =>
    exact h.of_move started rfl rfl (fun _ atPath => atPath) (by simp [LockPhase.uses])
      (by simp [LockPhase.seen]) (by simp)
  | @go _ p phase live uses shown stale =>
    exact h.of_move started rfl rfl (fun _ atPath => atPath) uses shown stale
  | @create _ p => exact h.create p
  | @write _ p n phase content place uses seen => exact h.write place uses seen
  | @remove p seen place =>
    exact h.of_move started rfl rfl (by simp) (by simp [LockPhase.uses])
      (by simp [LockPhase.seen]) (by simp)
  | @unlink _ p n place =>
    exact h.of_move started rfl rfl (by simp) (by simp [LockPhase.uses])
      (by simp [LockPhase.seen]) (by simp)

theorem Signed.spares (h : m.Signed pid) (intact : m.Intact s) : m.Spares s := by
  cases s with
  | next p =>
    intro takes f atPath q _ used
    cases place : m.phase p with
    | removing seen =>
      obtain ⟨g, rfl, same, recorded⟩ := intact seen place f atPath
      exact h.stale p g place recorded q (same ▸ used)
    | _ => simp [place, LockPhase.takesOver] at takes
  | _ => trivial

/-- With an exact liveness check a takeover spares the files in use when the file at the path is
still the one it read, and a pid had been written to it by then. -/
theorem spares_of_intact (steps : List Step) (intact : Along (step pid) Intact new steps) :
    Along (step pid) Spares new steps := by
  have gives : ∀ (m : Lockfile) s, m.Started pid ∧ m.Signed pid → m.Intact s → m.Spares s :=
    fun m s h intact => h.2.spares intact
  refine Along.of_invariant gives (fun m s _ h _ => ?_) steps (fun _ _ => trivial)
    ⟨Started.new, Signed.new⟩ intact
  exact ⟨h.1.effect (effect s), h.2.effect h.1 (effect s)⟩

/-! ## The sole holder -/

/-- Where no takeover removes the lock file of a live process, at most one live process has the
lock. -/
theorem exclusive_of_spares (steps : List Step) (spares : Along (step pid) Spares new steps) :
    (steps.foldl (step pid) new).Exclusive := by
  have stays : ∀ (m : Lockfile) s, m.Started pid ∧ m.Sole → m.Spares s →
      (m.step pid s).Started pid ∧ (m.step pid s).Sole :=
    fun m s h spares => ⟨h.1.effect (effect s), h.2.effect h.1 spares (effect s)⟩
  exact (Along.invariant stays steps new ⟨Started.new, Sole.new⟩ spares).2.exclusive

/-- A process crashes with the lock and another one takes it over. -/
theorem exclusive_of_spares_takeover :
    ([Step.start 0, .acquire 0, .next 0, .next 0, .crash 0, .start 1, .acquire 1, .next 1, .next 1,
      .next 1, .next 1, .next 1, .next 1].foldl (step Nat.succ) new).Exclusive :=
  exclusive_of_spares _ (spares_of_intact _ (by decide))

/-- A process reads the file of another one that has yet to write its pid. Or two processes find the
file of a dead one: one takes the lock over, and the other removes the file of that one. -/
theorem second_launch_not_refused :
    ¬ ([Step.start 0, .start 1, .acquire 0, .acquire 1, .next 0, .next 1, .next 1, .next 1, .next 0,
      .next 1, .next 1, .next 1].foldl (step Nat.succ) new).Exclusive ∧
    ¬ ([Step.start 0, .acquire 0, .next 0, .next 0, .crash 0, .start 1, .start 2, .acquire 1,
      .acquire 2, .next 1, .next 2, .next 1, .next 2, .next 1, .next 2, .next 1, .next 1, .next 1,
      .next 2, .next 2, .next 2].foldl (step Nat.succ) new).Exclusive :=
  ⟨fun exclusive => absurd (exclusive 0 1 (by decide) (by decide)) (by decide),
    fun exclusive => absurd (exclusive 1 2 (by decide) (by decide)) (by decide)⟩

/-- A takeover while another process acquires or holds the lock leads to two processes with it. -/
theorem takeover_not_exclusive {p q n : Nat} {seen : Option LockFile}
    (place : m.phase p = .removing seen) (used : m.phase q = .writing n ∨ m.phase q = .holding n) :
    ¬ ([Step.next p, .next p, .next p, .next q].foldl (step pid) m).Exclusive := by
  have other : q ≠ p := by
    rintro rfl
    simp [place] at used
  intro exclusive
  refine other (exclusive q p ?_ ?_)
  · rcases used with used | used <;>
      simp [step, next, place, used, other, LockPhase.holds]
  · rcases used with used | used <;>
      simp [step, next, place, used, other, other.symm, LockPhase.holds]

end Lockfile

end VsFleet
