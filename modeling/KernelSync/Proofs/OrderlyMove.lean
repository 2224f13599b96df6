import KernelSync.Proofs.OrderlyStretch

/-!
All moves keep a system orderly (`Moved.orderly`), so all states of all runs are
(`Reachable.orderly`). Apart from the stretches of calls, moves come between calls: they change no
place where a thread waits for a lock, and the permits of locks go on agreeing with the holders.
-/

namespace KernelSync.System

open ThreadTable Lock

variable {s s' : System} {t u : ThreadId} {move : Move}

/-! ### Moves between calls -/

/-- Between calls every permit agrees with the holder. -/
theorem Orderly.permit_free (orderly : Orderly s) (free : s.phase = .free) {l : Lock}
    (mem : l ∈ s.locks) :
    (s.kernel.semaphore l.semaphore).count = if s.table.holder? l.id = none then 1 else 0 :=
  orderly.balanced.permit l mem fun u here =>
    nomatch free.symm.trans (orderly.balanced.raising u l mem here).1

/-- A move that takes no thread through a stretch. Frames that it gives to a thread stand outside
all sections, and the thread waits for nothing. -/
structure Aside (s s' : System) : Prop where
  ext : Extends s s'
  phase : s'.phase = s.phase
  frames : ∀ u, (s'.activity u).frames = (s.activity u).frames ∨
    s.table.waits u = none ∧ s'.Outside (s'.activity u).frames
  absent : ∀ u, ¬ s'.Live u → s'.activity u = {}
  waits : ∀ u, s'.table.waits u = s.table.waits u
  holder_lock : ∀ id u, s'.table.holder? id = some u → ∃ l ∈ s'.locks, l.id = id
  permit : ∀ l ∈ s'.locks,
    (s'.kernel.semaphore l.semaphore).count = if s'.table.holder? l.id = none then 1 else 0

section Aside

variable (aside : Aside s s') (orderly : Orderly s) (free : s.phase = .free)
include aside

/-- To a telling place a thread comes by a stretch alone. -/
theorem Aside.at?_eq {frame : Frame} (telling : frame.telling = true)
    (here : s'.at? u = some frame) : s.at? u = some frame := by
  rcases aside.frames u with same | ⟨-, outside⟩
  · unfold at? at here ⊢
    rwa [same] at here
  · exact nomatch telling.symm.trans (not_telling_of_outside outside here)

include orderly free

/-- A thread is nowhere where only a section in progress has it. -/
theorem Aside.not_inside {l : Lock} : s'.at? u ≠ some (.acquire l) := fun here =>
  nomatch free.symm.trans (orderly.placed.inside u l (aside.at?_eq rfl here))

theorem Aside.placed : Placed s' where
  absent := aside.absent
  proper := by
    intro u
    rcases aside.frames u with same | ⟨-, outside⟩
    · rw [same]
      exact aside.ext.proper (orderly.placed.proper u)
    · exact proper_of_outside outside
  holder_lock := aside.holder_lock
  waits_at := by
    intro u id waiting
    rw [aside.waits] at waiting
    obtain ⟨l, mem, is, here⟩ := orderly.placed.waits_at u id waiting
    refine ⟨l, aside.ext.locks l mem, is, ?_⟩
    rcases aside.frames u with same | ⟨idle, -⟩
    · unfold at? at here ⊢
      rwa [same]
    · exact nomatch idle.symm.trans waiting
  queued_waits := by
    intro u l here
    rw [aside.waits]
    exact orderly.placed.queued_waits u l (aside.at?_eq rfl here)
  inside := fun u l here => absurd here (aside.not_inside orderly free)

theorem Aside.balanced : Balanced s' where
  raising := by
    intro u l mem here
    have before := aside.at?_eq rfl here
    rcases aside.ext.fresh l mem with old | new
    · exact nomatch free.symm.trans (orderly.balanced.raising u l old before).1
    · -- nobody can have been about to raise a semaphore that was not there
      have proper := orderly.placed.proper u
      cases frames : (s.activity u).frames with
      | nil => simp [at?, frames] at before
      | cons head rest =>
        rw [at?_of_frames frames] at before
        obtain rfl := Option.some.inj before
        have small : l.semaphore.index < s.kernel.semaphores.length := by
          rcases (fine_of_busy orderly frames rfl).1 with spare | ⟨k, old, same⟩
          · exact spare.1
          · exact same ▸ orderly.furnished.lock_index k old
        exact absurd small (Nat.not_lt.mpr new)
  permit := fun l mem _ => aside.permit l mem

theorem Aside.keeps (quiet : s'.kernel.Quiet) (sound : Sound s'.table)
    (furnished : Furnished s') : Orderly s' :=
  ⟨quiet, sound, furnished, aside.placed orderly free, aside.balanced orderly free⟩

end Aside

section Kept

variable (orderly : Orderly s) (free : s.phase = .free) (locks : s'.locks = s.locks)
  (grown : s.kernel.semaphores.length ≤ s'.kernel.semaphores.length)

include locks grown in
theorem extends_of_locks : Extends s s' where
  locks := fun _ mem => locks ▸ mem
  fresh := fun _ mem => Or.inl (locks ▸ mem)
  semaphores := grown

include orderly free locks grown in
/-- A move aside that leaves the locks, their holders and their permits. -/
theorem aside_of_kept (phase : s'.phase = s.phase)
    (frames : ∀ u, (s'.activity u).frames = (s.activity u).frames ∨
      s.table.waits u = none ∧ s'.Outside (s'.activity u).frames)
    (absent : ∀ u, ¬ s'.Live u → s'.activity u = {})
    (waits : ∀ u, s'.table.waits u = s.table.waits u)
    (holders : ∀ id, s'.table.holder? id = s.table.holder? id)
    (counts : ∀ l ∈ s.locks, (s'.kernel.semaphore l.semaphore).count =
      (s.kernel.semaphore l.semaphore).count) : Aside s s' where
  ext := extends_of_locks locks grown
  phase := phase
  frames := frames
  absent := absent
  waits := waits
  holder_lock := by
    intro id u held
    rw [holders] at held
    obtain ⟨l, mem, is⟩ := orderly.placed.holder_lock id u held
    exact ⟨l, locks ▸ mem, is⟩
  permit := by
    intro l mem
    have old : l ∈ s.locks := locks ▸ mem
    rw [counts l old, holders]
    exact orderly.permit_free free old

end Kept

/-- Locks that are kept stay apart. -/
theorem Furnished.of_kept (furnished : Furnished s) (locks : s'.locks = s.locks)
    (grown : s.kernel.semaphores.length ≤ s'.kernel.semaphores.length)
    (standalone : ∀ x ∈ s'.standalone, x ∈ s.standalone ∨ s'.Spare x)
    (registered : ∀ c, ∀ w ∈ s'.kernel.waiters c, w ∈ s.kernel.waiters c) : Furnished s' where
  lock_id := by
    rw [locks]
    exact furnished.lock_id
  lock_semaphore := by
    rw [locks]
    exact furnished.lock_semaphore
  lock_number := by
    rw [locks]
    exact furnished.lock_number
  lock_index := by
    intro l mem
    rw [locks] at mem
    exact Nat.lt_of_lt_of_le (furnished.lock_index l mem) grown
  standalone := by
    intro x mem
    rcases standalone x mem with old | spare
    · exact (extends_of_locks locks grown).spare (furnished.standalone x old)
    · exact spare
  registered := by
    intro c w mem
    exact (extends_of_locks locks grown).spare (furnished.registered c w (registered c w mem))

/-! ### Objects that are added -/

/-- The system with one more semaphore that stands alone. -/
def withSemaphore (s : System) (count : Nat) : System :=
  { s with
    kernel := s.kernel.addSemaphore count
    standalone := s.standalone ++ [s.kernel.nextSemaphore] }

/-- The lock that comes next. -/
def nextLock (s : System) : Lock := ⟨⟨s.locks.length + 1⟩, s.kernel.nextSemaphore⟩

/-- The system with one more lock. -/
def withLock (s : System) : System :=
  { s with
    kernel := s.kernel.addSemaphore 1
    locks := s.locks ++ [s.nextLock] }

theorem length_withSemaphore {count : Nat} :
    (s.withSemaphore count).kernel.semaphores.length = s.kernel.semaphores.length + 1 :=
  Kernel.length_addSemaphore

theorem length_withLock : s.withLock.kernel.semaphores.length = s.kernel.semaphores.length + 1 :=
  Kernel.length_addSemaphore

theorem mem_withLock {l : Lock} : l ∈ s.withLock.locks ↔ l ∈ s.locks ∨ l = s.nextLock := by
  simp [withLock]

section Added

variable (orderly : Orderly s) (free : s.phase = .free)

include orderly free in
theorem orderly_withSemaphore {count : Nat} : Orderly (s.withSemaphore count) := by
  have grown : s.kernel.semaphores.length < (s.withSemaphore count).kernel.semaphores.length := by
    rw [length_withSemaphore]
    exact Nat.lt_succ_self _
  have furnished : Furnished (s.withSemaphore count) := by
    refine orderly.furnished.of_kept rfl (Nat.le_of_lt grown) ?_ fun _ _ mem => mem
    intro x mem
    refine (List.mem_append.mp mem).imp id fun new => ?_
    rw [List.mem_singleton.mp new]
    exact spare_next orderly.furnished rfl grown
  have aside : Aside s (s.withSemaphore count) := by
    refine aside_of_kept orderly free rfl (Nat.le_of_lt grown) rfl (fun _ => Or.inl rfl)
      orderly.placed.absent (fun _ => rfl) (fun _ => rfl) ?_
    intro l mem
    exact congrArg Semaphore.count
      (Kernel.semaphore_addSemaphore_of_lt (orderly.furnished.lock_index l mem))
  exact aside.keeps orderly free (orderly.quiet.addSemaphore count) orderly.sound furnished

/-- A new lock is unlike all others. -/
theorem extends_withLock : Extends s s.withLock where
  locks := fun _ mem => mem_withLock.mpr (Or.inl mem)
  fresh := by
    intro l mem
    refine (mem_withLock.mp mem).imp id ?_
    rintro rfl
    exact Nat.le_refl _
  semaphores := by
    rw [length_withLock]
    exact Nat.le_succ _

theorem Furnished.withLock (furnished : Furnished s) : Furnished s.withLock := by
  have numbers : ∀ l ∈ s.locks, l.id ≠ s.nextLock.id := by
    intro l mem same
    have small := furnished.lock_number l mem
    rw [same] at small
    exact Nat.lt_irrefl _ small
  have indices : ∀ l ∈ s.locks, l.semaphore ≠ s.nextLock.semaphore := by
    intro l mem same
    have small := furnished.lock_index l mem
    rw [same] at small
    exact Nat.lt_irrefl _ small
  refine ⟨?_, ?_, ?_, ?_, ?_, ?_⟩
  · intro l meml m memm same
    rcases mem_withLock.mp meml with oldl | rfl <;> rcases mem_withLock.mp memm with oldm | rfl
    · exact furnished.lock_id l oldl m oldm same
    · exact absurd same (numbers l oldl)
    · exact absurd same.symm (numbers m oldm)
    · rfl
  · intro l meml m memm same
    rcases mem_withLock.mp meml with oldl | rfl <;> rcases mem_withLock.mp memm with oldm | rfl
    · exact furnished.lock_semaphore l oldl m oldm same
    · exact absurd same (indices l oldl)
    · exact absurd same.symm (indices m oldm)
    · rfl
  · intro l mem
    have length : s.withLock.locks.length = s.locks.length + 1 := by simp [System.withLock]
    rw [length]
    rcases mem_withLock.mp mem with old | rfl
    · exact Nat.le_succ_of_le (furnished.lock_number l old)
    · exact Nat.le_refl _
  · intro l mem
    rw [length_withLock]
    rcases mem_withLock.mp mem with old | rfl
    · exact Nat.lt_succ_of_lt (furnished.lock_index l old)
    · exact Nat.lt_succ_self _
  · intro x mem
    exact extends_withLock.spare (furnished.standalone x mem)
  · intro c w mem
    exact extends_withLock.spare (furnished.registered c w mem)

include orderly free in
theorem orderly_withLock : Orderly s.withLock := by
  have unheld : s.table.holder? s.nextLock.id = none := by
    cases held : s.table.holder? s.nextLock.id with
    | none => rfl
    | some holder =>
      obtain ⟨l, mem, same⟩ := orderly.placed.holder_lock _ holder held
      have small := orderly.furnished.lock_number l mem
      rw [same] at small
      exact absurd small (Nat.lt_irrefl _)
  have aside : Aside s s.withLock := by
    refine ⟨extends_withLock, rfl, fun _ => Or.inl rfl, orderly.placed.absent, fun _ => rfl, ?_, ?_⟩
    · intro id u held
      obtain ⟨l, mem, is⟩ := orderly.placed.holder_lock id u held
      exact ⟨l, mem_withLock.mpr (Or.inl mem), is⟩
    · intro l mem
      rcases mem_withLock.mp mem with old | rfl
      · refine Eq.trans ?_ (orderly.permit_free free old)
        exact congrArg Semaphore.count
          (Kernel.semaphore_addSemaphore_of_lt (orderly.furnished.lock_index l old))
      · exact (congrArg Semaphore.count Kernel.semaphore_addSemaphore_next).trans
          (if_pos unheld).symm
  exact aside.keeps orderly free (orderly.quiet.addSemaphore 1) orderly.sound
    orderly.furnished.withLock

end Added

/-! ### What moves do to the thread table -/

theorem at?_of_idle (idle : s.Idle t) : s.at? t = none := by
  unfold at?
  rw [idle.2]
  rfl

/-- What the grant of a lock without a wait makes of the kernel. -/
def granted (s : System) (lock : Lock) (t : ThreadId) : Kernel :=
  ((s.kernelAt t).permitTaken lock.semaphore).setTable
    (takeOwnership lock.id t s.kernel.mode.donates s.table).state

/-- A lock that has its permit has no holder. -/
theorem Orderly.unheld_of_permit (orderly : Orderly s) (free : s.phase = .free) {lock : Lock}
    (mem : lock ∈ s.locks) (permit : 0 < (s.kernel.semaphore lock.semaphore).count) :
    s.table.holder? lock.id = none := by
  have agrees := orderly.permit_free free mem
  by_contra held
  rw [if_neg held] at agrees
  exact Nat.lt_irrefl 0 (agrees ▸ permit)

/-- A lock that is granted without a wait is claimed. -/
theorem change_of_grant (orderly : Orderly s) (free : s.phase = .free) (idle : s.Idle t)
    {lock : Lock} (mem : lock ∈ s.locks)
    (permit : 0 < (s.kernel.semaphore lock.semaphore).count) :
    Change s.kernel.mode s.table (.claim lock.id t)
      (takeOwnership lock.id t s.kernel.mode.donates s.table).state := by
  have quits := orderly.placed.waits_of_idle idle.2
  rw [← claim_of_idle idle.1 quits]
  exact .claim idle.1 (orderly.unheld_of_permit free mem permit) (Or.inl quits)

section Moved

variable (orderly : Orderly s) (allowed : s.Allowed move) (moved : Moved s move s')
include orderly allowed moved

/-- A move takes the thread table through at most one change; handles are issued for new threads
alone, effective priorities are set by the move for that alone, and a lock is given up only by the
stretch for that. -/
theorem Moved.change : ∃ deed, Change s.kernel.mode s.table deed s'.table ∧
    (steady s move → deed.Steady s.table) ∧ s'.issued = deed.issued s.issued ∧
    (∀ id priority, deed = .setEffective id priority → move = .setEffective id priority) ∧
    ∀ id u, deed = .giveUp id u →
      move = .go u ∧ ∃ l ∈ s.locks, l.id = id ∧ s.at? u = some (.giveUp l) := by
  cases moved with
  | newSemaphore | newLock | newCondvar | full | interrupt | called =>
    exact ⟨.rest, .rest, fun _ => trivial, rfl, nofun, nofun⟩
  | spawned gains => exact ⟨_, .spawn gains, fun _ => trivial, rfl, nofun, nofun⟩
  | removed loses live idle unheld =>
    exact ⟨_, .remove loses idle unheld, fun _ => trivial, rfl, nofun, nofun⟩
  | rebased live => exact ⟨_, .setBase live, fun steady => steady, rfl, nofun, nofun⟩
  | reranked live =>
    refine ⟨_, .setEffective, fun steady => steady, rfl, fun id priority is => ?_, nofun⟩
    cases is
    rfl
  | @answered t call kernel answer answers =>
    obtain ⟨free, idle, names⟩ := allowed
    cases answers with
    | takes | refuses | denies | looks =>
      exact ⟨.rest, .rest, fun _ => trivial, rfl, nofun, nofun⟩
    | acquires notMine permit claims =>
      exact ⟨_, change_of_grant orderly free idle names permit, fun _ => trivial, rfl, nofun,
        nofun⟩
  | @went t head rest kernel progress busy advances =>
    obtain ⟨mayGo, live, -⟩ := allowed
    refine ⟨_, change_after orderly busy mayGo live advances, fun _ => ?_, ?_, fun id p is => ?_,
      fun id u is => ?_⟩
    · unfold Frame.deed
      split <;> trivial
    · unfold Frame.deed
      split <;> rfl
    · unfold Frame.deed at is
      split at is <;> exact nomatch is
    · unfold Frame.deed at is
      split at is
      · exact nomatch is
      · exact nomatch is
      · cases is
        exact ⟨rfl, _, (fine_of_busy orderly busy rfl).1, rfl, at?_of_frames busy⟩
      · exact nomatch is

theorem Moved.sound : Sound s'.table := by
  obtain ⟨deed, change, -⟩ := moved.change orderly allowed
  exact change.sound orderly.sound

end Moved

/-! ### All moves -/

section Between

variable (orderly : Orderly s) (free : s.phase = .free)

theorem waiters_withCondvar {c : CondvarId} :
    ({ s.kernel with condvars := s.kernel.condvars ++ [⟨[], false⟩] } : Kernel).waiters c =
      s.kernel.waiters c := by
  unfold Kernel.waiters Kernel.condvarCell
  simp only [List.getD_eq_getElem?_getD, List.getElem?_append, List.getElem?_singleton]
  split
  · rfl
  · rename_i outside
    rw [List.getElem?_eq_none (Nat.le_of_not_lt outside)]
    split <;> rfl

include orderly free in
theorem orderly_newCondvar : Orderly
    { s with kernel := { s.kernel with condvars := s.kernel.condvars ++ [⟨[], false⟩] } } := by
  have aside : Aside s
      { s with kernel := { s.kernel with condvars := s.kernel.condvars ++ [⟨[], false⟩] } } :=
    aside_of_kept orderly free rfl (Nat.le_refl _) rfl (fun _ => Or.inl rfl) orderly.placed.absent
      (fun _ => rfl) (fun _ => rfl) fun _ _ => rfl
  refine aside.keeps orderly free ⟨orderly.quiet.threads, orderly.quiet.semaphores, ?_⟩
    orderly.sound (orderly.furnished.of_kept rfl (Nat.le_refl _) (fun _ => Or.inl) ?_)
  · intro cell mem
    rcases List.mem_append.mp mem with old | new
    · exact orderly.quiet.condvars cell old
    · rw [List.mem_singleton.mp new]
  · intro c w mem
    exact waiters_withCondvar ▸ mem

include orderly free in
theorem orderly_interrupt {on : Bool} :
    Orderly { s with kernel := { s.kernel with inInterrupt := on } } := by
  have aside : Aside s { s with kernel := { s.kernel with inInterrupt := on } } :=
    aside_of_kept orderly free rfl (Nat.le_refl _) rfl (fun _ => Or.inl rfl) orderly.placed.absent
      (fun _ => rfl) (fun _ => rfl) fun _ _ => rfl
  have quiet := orderly.quiet
  exact aside.keeps orderly free ⟨quiet.threads, quiet.semaphores, quiet.condvars⟩ orderly.sound
    (orderly.furnished.of_kept rfl (Nat.le_refl _) (fun _ => Or.inl) fun _ _ mem => mem)

include orderly free in
/-- A change of the thread table that leaves waits and holders, and after which the threads that
are gone do nothing. -/
theorem orderly_table {activity : ThreadId → Activity} {table : ThreadTable}
    {issued : List ThreadId}
    (sound : Sound table)
    (frames : ∀ u, (activity u).frames = (s.activity u).frames ∨
      s.table.waits u = none ∧ (activity u).frames = [])
    (absent : ∀ u, ¬ table.contains u = true → activity u = {})
    (waits : ∀ u, table.waits u = s.table.waits u)
    (holders : ∀ id, table.holder? id = s.table.holder? id) :
    Orderly { s.withTable table with activity, issued } := by
  have aside : Aside s { s.withTable table with activity, issued } := by
    refine aside_of_kept orderly free rfl (Nat.le_refl _) rfl (fun u => ?_) absent waits holders
      fun _ _ => rfl
    refine (frames u).imp id fun ⟨idle, bare⟩ => ⟨idle, ?_⟩
    intro frame mem
    exact nomatch (bare ▸ mem : frame ∈ [])
  exact aside.keeps orderly free (orderly.quiet.setTable table) sound
    (orderly.furnished.of_kept rfl (Nat.le_refl _) (fun _ => Or.inl) fun _ _ mem => mem)

theorem fine_of_names (furnished : Furnished s) {call : Call} (names : s.Names call) :
    s.Fine (.call call) := by
  cases call with
  | down | up => exact furnished.standalone _ names
  | acquire | release => exact names
  | wait | signal | broadcast => exact names.2

include orderly free in
/-- A thread between calls that takes up a call. -/
theorem orderly_called {call : Call} (idle : s.Idle t) (names : s.Names call) :
    Orderly (s.become t { s.activity t with frames := [.call call] }) := by
  have same : ∀ u, u ≠ t →
      (s.become t { s.activity t with frames := [.call call] }).activity u = s.activity u :=
    fun u apart => if_neg apart
  have ext : Extends s (s.become t { s.activity t with frames := [.call call] }) :=
    extends_of_locks rfl (Nat.le_refl _)
  have aside : Aside s (s.become t { s.activity t with frames := [.call call] }) := by
    refine aside_of_kept orderly free rfl (Nat.le_refl _) rfl ?_ ?_ (fun _ => rfl) (fun _ => rfl)
      fun _ _ => rfl
    · intro u
      by_cases here : u = t
      · subst here
        refine Or.inr ⟨orderly.placed.waits_of_idle idle.2, fun frame mem => ?_⟩
        simp only [become, if_pos, List.mem_singleton] at mem
        rw [mem]
        exact ⟨rfl, ext.fine (fine_of_names orderly.furnished names)⟩
      · rw [same u here]
        exact Or.inl rfl
    · intro u gone
      have apart : u ≠ t := fun here => gone (here ▸ idle.1)
      rw [same u apart]
      exact orderly.placed.absent u gone
  exact aside.keeps orderly free orderly.quiet orderly.sound
    (orderly.furnished.of_kept rfl (Nat.le_refl _) (fun _ => Or.inl) fun _ _ mem => mem)

include orderly free in
/-- A lock that is granted without a wait: the permit goes as the caller becomes the holder. -/
theorem aside_granted (idle : s.Idle t) {lock : Lock} (mem : lock ∈ s.locks)
    (permit : 0 < (s.kernel.semaphore lock.semaphore).count)
    (grown : s.kernel.semaphores.length ≤ (s.granted lock t).semaphores.length) :
    Aside s { s with kernel := s.granted lock t } := by
  have change := change_of_grant orderly free idle mem permit
  have holds := change.holder? orderly.sound
  refine ⟨extends_of_locks rfl grown, rfl, fun _ => Or.inl rfl, ?_, ?_, ?_, ?_⟩
  · intro u gone
    exact orderly.placed.absent u fun alive => gone ((change.contains orderly.sound u).mpr alive)
  · intro u
    refine (change.waits orderly.sound u).trans ?_
    by_cases here : u = t
    · subst here
      exact (if_pos rfl).trans (orderly.placed.waits_of_idle idle.2).symm
    · exact if_neg here
  · intro id u held
    by_cases this : id = lock.id
    · exact ⟨lock, mem, this.symm⟩
    · have holds := (if_neg this).symm.trans ((holds id).symm.trans held)
      exact orderly.placed.holder_lock id u holds
  · intro l meml
    have agrees := orderly.permit_free free meml
    by_cases same : l = lock
    · subst same
      exact permit_claimed (orderly.furnished.lock_index l meml) agrees change.free_of_claim
        ((holds l.id).trans (if_pos rfl))
    · have apart : l.semaphore ≠ lock.semaphore := fun is =>
        same (orderly.furnished.lock_semaphore l meml lock mem is)
      have differ : l.id ≠ lock.id := fun is =>
        same (orderly.furnished.lock_id l meml lock mem is)
      have kept := (holds l.id).trans (if_neg differ)
      refine Eq.trans ((congrArg Semaphore.count
        (Kernel.semaphore_setSemaphore_of_ne apart)).trans agrees) ?_
      exact if_congr (by rw [← kept]; rfl) rfl rfl

include orderly free in
/-- A call without a wait keeps a system orderly. -/
theorem orderly_answered {call : ShortCall} {kernel : Kernel} {answer : Bool} (idle : s.Idle t)
    (names : s.NamesShort call) (answers : Answers t (s.kernelAt t) call kernel answer) :
    Orderly { s with kernel } := by
  have quiet : kernel.Quiet := answers.quiet (orderly.quiet.withDepth _)
  have furnished : ∀ k : Kernel, s.kernel.semaphores.length ≤ k.semaphores.length →
      (∀ c, k.waiters c = s.kernel.waiters c) → Furnished { s with kernel := k } :=
    fun k grown same => orderly.furnished.of_kept rfl grown (fun _ => Or.inl) fun c w mem =>
      same c ▸ mem
  have grown : ∀ x, s.kernel.semaphores.length ≤
      ((s.kernelAt t).permitTaken x).semaphores.length := by
    intro x
    rw [Kernel.permitTaken, Kernel.length_setSemaphore]
    exact Nat.le_refl _
  cases answers with
  | refuses | denies | looks =>
    have aside : Aside s { s with kernel := s.kernelAt t } :=
      aside_of_kept orderly free rfl (Nat.le_refl _) rfl (fun _ => Or.inl rfl)
        orderly.placed.absent (fun _ => rfl) (fun _ => rfl) fun _ _ => rfl
    exact aside.keeps orderly free quiet orderly.sound
      (furnished _ (Nat.le_refl _) fun _ => rfl)
  | @takes x permit =>
    have aside : Aside s { s with kernel := (s.kernelAt t).permitTaken x } := by
      refine aside_of_kept orderly free rfl (grown x) rfl (fun _ => Or.inl rfl)
        orderly.placed.absent (fun _ => rfl) (fun _ => rfl) fun l mem => ?_
      exact congrArg Semaphore.count (Kernel.semaphore_setSemaphore_of_ne
        ((orderly.furnished.standalone x names).2 l mem))
    exact aside.keeps orderly free quiet orderly.sound (furnished _ (grown x) fun _ => rfl)
  | @acquires lock notMine permit claims =>
    have change := change_of_grant orderly free idle names permit
    have aside := aside_granted orderly free idle names permit (grown lock.semaphore)
    exact aside.keeps orderly free quiet (change.sound orderly.sound)
      (furnished _ (grown lock.semaphore) fun _ => rfl)

end Between

/-- Every move keeps a system orderly. -/
theorem Moved.orderly (moved : Moved s move s') (orderly : Orderly s) (allowed : s.Allowed move) :
    Orderly s' := by
  have same : ∀ u, (s.activity u).frames = (s.activity u).frames ∨
      s.table.waits u = none ∧ (s.activity u).frames = [] := fun _ => Or.inl rfl
  have sound := moved.sound orderly allowed
  cases moved with
  | newSemaphore => exact orderly_withSemaphore orderly allowed.1
  | newLock => exact orderly_withLock orderly allowed
  | newCondvar => exact orderly_newCondvar orderly allowed
  | @spawned name priority id table gains =>
    refine orderly_table orderly allowed sound same (fun u gone => ?_) (fun u => gains.waits rfl)
      fun id => gains.holder?
    exact orderly.placed.absent u fun alive => gone (gains.contains.mpr (Or.inr alive))
  | full => exact orderly
  | @removed t table loses live idle unheld =>
    refine orderly_table orderly allowed sound (fun u => ?_) (fun u gone => ?_)
      (fun u => loses.waits idle) fun id => loses.holder?
    · by_cases here : u = t
      · exact Or.inr ⟨here ▸ idle, congrArg Activity.frames (if_pos here)⟩
      · exact Or.inl (congrArg Activity.frames (if_neg here))
    · by_cases here : u = t
      · exact if_pos here
      · refine (if_neg here).trans (orderly.placed.absent u fun alive => ?_)
        exact gone (loses.contains.mpr ⟨here, alive⟩)
  | @rebased t base live =>
    have graph : SameGraph s.table
        (Donation.changeBasePriority t base s.kernel.mode s.table).state :=
      Donation.changeBase_sameGraph orderly.sound.accounted
    refine orderly_table orderly allowed sound same (fun u gone => ?_) graph.waits graph.holder?
    exact orderly.placed.absent u fun alive => gone ((graph.contains u).trans alive)
  | @reranked t priority live =>
    have graph : SameGraph s.table (s.table.modify t ({ · with priority })) :=
      (Donation.reranks_modify priority).sameGraph
    refine orderly_table orderly allowed sound same (fun u gone => ?_) graph.waits graph.holder?
    exact orderly.placed.absent u fun alive => gone ((graph.contains u).trans alive)
  | interrupt =>
    exact orderly_interrupt orderly allowed
  | called => exact orderly_called orderly allowed.1 allowed.2.1 allowed.2.2
  | answered answers =>
    exact orderly_answered orderly allowed.1 allowed.2.1 allowed.2.2 answers
  | went busy advances => exact orderly_after orderly busy allowed.1 allowed.2.1 advances

/-- Every state of every run is orderly. -/
theorem Reachable.orderly {rule : Rule} (reachable : Reachable rule s) : Orderly s := by
  induction reachable with
  | start small => exact orderly_start small
  | move before allowed obeys ends ih =>
    exact (moved_of_ok ih.quiet ih.sound.arena allowed ends).orderly ih allowed

/-- The list of what a move can do is complete for the states of runs. -/
theorem Reachable.moved {rule : Rule} {events : List Event} (reachable : Reachable rule s)
    (allowed : s.Allowed move) (ends : perform move s = ⟨.ok (), s', events⟩) :
    Moved s move s' :=
  moved_of_ok reachable.orderly.quiet reachable.orderly.sound.arena allowed ends

end KernelSync.System
