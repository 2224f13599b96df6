import KernelSync.Proofs.Orderly

/-!
A stretch of a call keeps a system orderly. The thread that it belongs to comes to a proper place;
the thread table goes through at most one change, which the frame determines; and a permit of a lock
is taken or given back just when the lock gets or has lost its holder.
-/

namespace KernelSync

/-- What the stretch from a place does to the thread table. -/
def Frame.deed (t : ThreadId) : Frame → Request → Deed
  | .acquire lock, .block => .register lock.id t
  | .acquire lock, _ => .claim lock.id t
  | .giveUp lock, _ => .giveUp lock.id t
  | _, _ => .rest

namespace System

open ThreadTable Lock

variable {s s' : System} {t u : ThreadId} {head : Frame} {rest frames : List Frame}
  {kernel : Kernel} {progress : Progress}

/-- The system after a stretch of `t` with `rest` below it. -/
def after (s : System) (t : ThreadId) (rest : List Frame) (kernel : Kernel) (progress : Progress) :
    System :=
  settle t { progress with frames := progress.frames ++ rest } { s with kernel }

theorem frames_after_self :
    ((after s t rest kernel progress).activity t).frames = progress.frames ++ rest := by
  simp [after, settle]

theorem frames_after_of_ne (apart : u ≠ t) :
    ((after s t rest kernel progress).activity u).frames = (s.activity u).frames := by
  unfold after settle
  simp only [apart, if_false]
  split <;> rfl

theorem at?_after_of_ne (apart : u ≠ t) :
    (after s t rest kernel progress).at? u = s.at? u := by
  unfold at?
  rw [frames_after_of_ne apart]

theorem at?_after_self :
    (after s t rest kernel progress).at? t = (progress.frames ++ rest).head? := by
  unfold at?
  rw [frames_after_self]

/-- In the middle of a section the thread is the only one to move. -/
theorem phase_after (proceeds : progress.request = .proceed)
    (inside : ∃ saved, Frame.leave saved ∈ progress.frames ++ rest) :
    (after s t rest kernel progress).phase = .within t := by
  obtain ⟨saved, mem⟩ := inside
  unfold after settle phaseAfter
  rw [proceeds]
  exact if_pos (List.any_eq_true.mpr ⟨_, mem, rfl⟩)

theorem at?_of_frames (busy : (s.activity t).frames = head :: rest) : s.at? t = some head := by
  unfold at?
  rw [busy]
  rfl

theorem busy_of_at? {frame : Frame} (here : s.at? t = some frame) :
    ∃ rest, (s.activity t).frames = frame :: rest := by
  unfold at? at here
  exact List.head?_eq_some_iff.mp here

/-- A new semaphore serves no lock. -/
theorem spare_next (furnished : Furnished s) (same : s'.locks = s.locks)
    (grown : s.kernel.semaphores.length < s'.kernel.semaphores.length) :
    s'.Spare s.kernel.nextSemaphore := by
  refine ⟨grown, fun l mem here => ?_⟩
  have index := furnished.lock_index l (same ▸ mem)
  rw [here] at index
  exact Nat.lt_irrefl _ index

/-- The permit of a lock goes as the lock gets a holder. -/
theorem permit_claimed {k : Kernel} {table : ThreadTable} {l : Lock}
    (present : l.semaphore.index < k.semaphores.length)
    (agrees : (k.semaphore l.semaphore).count = if s.table.holder? l.id = none then 1 else 0)
    (free : s.table.holder? l.id = none) (held : table.holder? l.id = some t) :
    ((k.permitTaken l.semaphore).semaphore l.semaphore).count =
      if table.holder? l.id = none then 1 else 0 := by
  rw [Kernel.permitTaken, Kernel.semaphore_setSemaphore_self present, agrees, if_pos free,
    if_neg (by rw [held]; simp)]

/-- Whoever is next to be signaled waits on a semaphore of its own, and so do those after it. -/
theorem spare_of_sorted (furnished : Furnished s) {c : CondvarId} {order : List Waiter} {w : Waiter}
    (sorted : Condvar.sortedByRank (s.kernelAt t).table ((s.kernelAt t).waiters c) = order)
    (mem : w ∈ order) : s.Spare w.semaphore := by
  have perm := Condvar.sortedByRank_perm (s.kernelAt t).table ((s.kernelAt t).waiters c)
  rw [sorted] at perm
  exact furnished.registered c w (perm.mem_iff.mp mem)

section Stretch

variable (orderly : Orderly s) (busy : (s.activity t).frames = head :: rest)
  (mayGo : s.phase = .free ∨ s.phase = .within t ∨ s.phase = .calling t)
  (live : s.Live t) (advances : Advances t (s.kernelAt t) head kernel progress)

include mayGo in
theorem eq_of_within (inside : s.phase = .within u) : u = t := by
  rw [inside] at mayGo
  simpa using mayGo

include orderly mayGo in
/-- Nobody else is about to give back the permit of a lock. -/
theorem not_raising_of_ne (apart : u ≠ t) {l : Lock} (mem : l ∈ s.locks) :
    s.at? u ≠ some (.up l.semaphore) := fun here =>
  apart (eq_of_within mayGo (orderly.balanced.raising u l mem here).1)

include orderly mayGo in
/-- Unless the thread itself is about to give back the permit of a lock, the permit agrees with the
holder. -/
theorem permit_of_not_up {l : Lock} (mem : l ∈ s.locks)
    (notUp : s.at? t ≠ some (.up l.semaphore)) :
    (s.kernel.semaphore l.semaphore).count = if s.table.holder? l.id = none then 1 else 0 := by
  refine orderly.balanced.permit l mem fun u => ?_
  by_cases here : u = t
  · exact here ▸ notUp
  · exact not_raising_of_ne orderly mayGo here mem

include busy orderly in
theorem fine_of_busy (goesOn : head.closes = false) :
    s.Fine head ∧ if head.outside then s.Outside rest else s.Inside rest := by
  have proper := orderly.placed.proper t
  rw [busy] at proper
  match head, proper with
  | .leave _, _ => exact absurd goesOn (by simp [Frame.closes])
  | .call _, proper | .signaled _, proper | .down _, proper | .downQueued _, proper
  | .acquire _, proper | .acquireQueued _, proper | .up _, proper | .check, proper
  | .giveUp _, proper | .claim _ _, proper | .signal _, proper | .broadcast _, proper =>
    exact proper

include advances in
theorem length_le_of_advances : s.kernel.semaphores.length ≤ kernel.semaphores.length := by
  cases advances with
  | waits => exact Nat.le_of_lt (by simp [Kernel.addSemaphore, Kernel.setWaiters, kernelAt])
  | takes | queues | acquires | registers | raises | wakes =>
    simp [Kernel.permitTaken, Kernel.permitAdded, Kernel.queued, Kernel.setSemaphore,
      Kernel.setTable, kernelAt]
  | opens | retries | reacquires | checks | givesUp | holds | signalsNobody | signals
  | broadcastsNobody | broadcasts | returns | leaves => exact Nat.le_refl _

include advances in
theorem extends_after : Extends s (after s t rest kernel progress) where
  locks := fun _ mem => mem
  fresh := fun _ mem => Or.inl mem
  semaphores := length_le_of_advances advances

include orderly busy advances in
/-- A stretch brings the thread to a proper place. -/
theorem proper_after :
    (after s t rest kernel progress).Proper (progress.frames ++ rest) := by
  have ext : Extends s (after s t rest kernel progress) := extends_after advances
  cases advances with
  | @opens call frames opening allowed =>
    obtain ⟨fine, below⟩ := fine_of_busy orderly busy rfl
    cases call with
    | up x =>
      cases opening
      exact ⟨Or.inl (ext.spare fine), ext.outside below⟩
    | down | acquire | release | signal | broadcast =>
      cases opening
      exact ⟨ext.fine fine, ext.outside below⟩
    | wait c lock => cases opening
  | @waits c lock held allowed =>
    obtain ⟨fine, below⟩ := fine_of_busy orderly busy rfl
    refine proper_of_outside fun frame mem => ?_
    rcases List.mem_append.mp mem with mem | mem
    · rcases List.mem_cons.mp mem with rfl | mem
      · exact ⟨rfl, ext.locks lock fine⟩
      rcases List.mem_cons.mp mem with rfl | mem
      · refine ⟨rfl, spare_next orderly.furnished rfl ?_⟩
        simp [after, settle, Kernel.setWaiters, Kernel.addSemaphore, kernelAt]
      · rw [List.mem_singleton.mp mem]
        exact ⟨rfl, ext.locks lock fine⟩
    · exact ext.outside below frame mem
  | takes | acquires | holds | signalsNobody | broadcastsNobody | checks =>
    obtain ⟨fine, below⟩ := fine_of_busy orderly busy rfl
    exact proper_of_inside (ext.inside below)
  | queues | retries | registers | reacquires =>
    obtain ⟨fine, below⟩ := fine_of_busy orderly busy rfl
    exact ⟨ext.fine fine, ext.inside below⟩
  | raises | wakes =>
    obtain ⟨fine, below⟩ := fine_of_busy orderly busy rfl
    exact ⟨trivial, ext.inside below⟩
  | @givesUp lock gives =>
    obtain ⟨fine, below⟩ := fine_of_busy orderly busy rfl
    exact ⟨Or.inr ⟨lock, fine, rfl⟩, ext.inside below⟩
  | @signals c first others sorted | @broadcasts c first others sorted =>
    obtain ⟨fine, below⟩ := fine_of_busy orderly busy rfl
    have spare := spare_of_sorted orderly.furnished sorted List.mem_cons_self
    exact ⟨Or.inl (ext.spare spare), ext.inside below⟩
  | returns =>
    obtain ⟨fine, below⟩ := fine_of_busy orderly busy rfl
    exact ⟨ext.fine fine, ext.outside below⟩
  | leaves =>
    have proper := orderly.placed.proper t
    rw [busy] at proper
    exact proper_of_outside (ext.outside proper)

include orderly busy mayGo live advances in
/-- A stretch changes the thread table as its frame says. -/
theorem change_after :
    Change s.kernel.mode s.table (head.deed t progress.request) kernel.table := by
  have here := at?_of_frames busy
  cases advances with
  | @acquires lock registers permit claims =>
    have mine : lock ∈ s.locks := (fine_of_busy orderly busy rfl).1
    have agrees := permit_of_not_up orderly mayGo mine (by rw [here]; simp)
    have free : s.table.holder? lock.id = none := by
      by_contra held
      rw [if_neg held] at agrees
      exact Nat.lt_irrefl 0 (agrees ▸ permit)
    have unchanged : (s.kernelAt t).registered t lock = s.table := by
      unfold Kernel.registered
      rw [register_run_unheld (by exact free)]
      rfl
    rw [unchanged]
    exact .claim live free (orderly.mayRegister here)
  | @registers lock registers empty =>
    have mine : lock ∈ s.locks := (fine_of_busy orderly busy rfl).1
    have agrees := permit_of_not_up orderly mayGo mine (by rw [here]; simp)
    have may := orderly.mayRegister here
    cases held : s.table.holder? lock.id with
    | none =>
      rw [if_pos held] at agrees
      exact nomatch agrees.symm.trans empty
    | some holder =>
      have apart : holder ≠ t := by
        rintro rfl
        have own := register_run_own held s.kernel.mode.donates
        exact nomatch (congrArg Run.outcome own).symm.trans registers
      exact .register live held apart may registers
  | @givesUp lock gives =>
    have idle : s.table.waits t = none := by
      cases waiting : s.table.waits t with
      | none => rfl
      | some id =>
        obtain ⟨l, -, -, there | there⟩ := orderly.placed.waits_at t id waiting
        · exact nomatch here.symm.trans there
        · exact nomatch here.symm.trans there
    have held : s.table.holder? lock.id = some t := by
      by_contra notMine
      have fails := giveUp_run_of_not notMine s.kernel.mode.donates
      exact nomatch (congrArg Run.outcome fails).symm.trans gives
    exact .giveUp live held idle
  | opens | waits | takes | queues | retries | reacquires | raises | wakes | checks | holds
  | signalsNobody | signals | broadcastsNobody | broadcasts | returns | leaves => exact .rest

/-! ### What stays and what comes -/

include orderly busy in
theorem below_of_busy : s.Outside rest ∨ s.Inside rest := by
  have proper := orderly.placed.proper t
  rw [busy] at proper
  match head, proper with
  | .leave _, proper => exact Or.inl proper
  | .call _, proper | .signaled _, proper => exact Or.inl proper.2
  | .down _, proper | .downQueued _, proper | .acquire _, proper | .acquireQueued _, proper
  | .up _, proper | .check, proper | .giveUp _, proper | .claim _ _, proper | .signal _, proper
  | .broadcast _, proper =>
    exact Or.inr proper.2

include orderly busy in
/-- If a thread comes to a telling place, its stretch has brought it there. -/
theorem head_of_telling {frame : Frame} (telling : frame.telling = true)
    (here : (progress.frames ++ rest).head? = some frame) :
    progress.frames.head? = some frame := by
  cases brought : progress.frames with
  | cons first others =>
    rw [brought] at here
    exact here
  | nil =>
    rw [brought] at here
    rcases below_of_busy orderly busy with outside | inside
    · exact nomatch telling.symm.trans (not_telling_of_outside outside here)
    · exact nomatch telling.symm.trans (not_telling_of_inside inside here)

include orderly busy advances in
theorem furnished_after : Furnished (after s t rest kernel progress) := by
  have ext : Extends s (after s t rest kernel progress) := extends_after advances
  have old := orderly.furnished
  refine ⟨old.lock_id, old.lock_semaphore, old.lock_number, ?_, ?_, ?_⟩
  · intro l mem
    exact Nat.lt_of_lt_of_le (old.lock_index l mem) ext.semaphores
  · intro x mem
    exact ext.spare (old.standalone x mem)
  · intro c w mem
    have kept : w ∈ s.kernel.waiters c →
        (after s t rest kernel progress).Spare w.semaphore :=
      fun mem => ext.spare (old.registered c w mem)
    cases advances with
    | @waits d lock held allowed =>
      rcases Kernel.mem_setWaiters mem with mem | mem
      · exact kept mem
      · rcases List.mem_append.mp mem with mem | mem
        · exact ext.spare (old.registered d w mem)
        · rw [List.mem_singleton.mp mem]
          refine spare_next old rfl ?_
          simp [after, settle, Kernel.setWaiters, Kernel.addSemaphore, kernelAt]
    | @signals d first others sorted | @broadcasts d first others sorted =>
      rcases Kernel.mem_setWaiters mem with mem | mem
      · exact kept mem
      · exact ext.spare (spare_of_sorted old sorted (List.mem_cons_of_mem _ mem))
    | opens | takes | queues | retries | acquires | registers | reacquires | raises | wakes
    | checks | givesUp | holds | signalsNobody | broadcastsNobody | returns | leaves =>
      exact kept mem

include orderly busy mayGo live advances

theorem waits_after (u : ThreadId) :
    kernel.table.waits u = (head.deed t progress.request).waits s.table u :=
  (change_after orderly busy mayGo live advances).waits orderly.sound u

theorem holder_after (id : LockId) :
    kernel.table.holder? id = (head.deed t progress.request).holder? s.table id :=
  (change_after orderly busy mayGo live advances).holder? orderly.sound id

theorem live_after (u : ThreadId) : kernel.table.contains u = true ↔ s.Live u := by
  rw [(change_after orderly busy mayGo live advances).contains orderly.sound u]
  unfold Frame.deed
  split <;> rfl

theorem waits_after_of_ne (apart : u ≠ t) : kernel.table.waits u = s.table.waits u := by
  rw [waits_after orderly busy mayGo live advances]
  unfold Frame.deed
  split
  · exact if_neg apart
  · exact if_neg apart
  · rfl
  · rfl

theorem absent_after (gone : ¬ (after s t rest kernel progress).Live u) :
    (after s t rest kernel progress).activity u = {} := by
  have goneBefore : ¬ s.Live u := fun alive =>
    gone ((live_after orderly busy mayGo live advances u).mpr alive)
  have apart : u ≠ t := fun same => goneBefore (same ▸ live)
  have vacant := orderly.placed.absent u goneBefore
  simp only [after, settle, if_neg apart, vacant]
  split <;> rfl

theorem holder_lock_after {id : LockId} (held : kernel.table.holder? id = some u) :
    ∃ l ∈ s.locks, l.id = id := by
  have old := orderly.placed
  have holds := (holder_after orderly busy mayGo live advances id).symm.trans held
  cases advances with
  | @acquires lock _ _ _ =>
    have mine : lock ∈ s.locks := (fine_of_busy orderly busy rfl).1
    by_cases this : id = lock.id
    · exact ⟨lock, mine, this.symm⟩
    · exact old.holder_lock id u ((if_neg this).symm.trans holds)
  | @givesUp lock _ =>
    by_cases this : id = lock.id
    · exact nomatch (if_pos this).symm.trans holds
    · exact old.holder_lock id u ((if_neg this).symm.trans holds)
  | opens | waits | takes | queues | retries | registers | reacquires | raises | wakes | checks
  | holds | signalsNobody | signals | broadcastsNobody | broadcasts | returns | leaves =>
    exact old.holder_lock id u holds

/-- A thread that waits for a lock after its stretch has come to queue for it, or to try it
again. -/
theorem waits_at_after_self {id : LockId} (waiting : kernel.table.waits t = some id) :
    ∃ l ∈ s.locks, l.id = id ∧ ((progress.frames ++ rest).head? = some (.acquireQueued l) ∨
      (progress.frames ++ rest).head? = some (.acquire l)) := by
  have here := at?_of_frames busy
  have waits := (waits_after orderly busy mayGo live advances t).symm.trans waiting
  have before : s.table.waits t = some id → ∃ l ∈ s.locks, l.id = id ∧
      (head = .acquireQueued l ∨ head = .acquire l) := by
    intro waited
    obtain ⟨l, mem, is, there⟩ := orderly.placed.waits_at t id waited
    rw [here] at there
    exact ⟨l, mem, is, there.imp Option.some.inj Option.some.inj⟩
  cases advances with
  | @registers lock _ _ =>
    have mine : lock ∈ s.locks := (fine_of_busy orderly busy rfl).1
    exact ⟨lock, mine, Option.some.inj ((if_pos rfl).symm.trans waits), Or.inl rfl⟩
  | @acquires lock _ _ _ => exact nomatch (if_pos rfl).symm.trans waits
  | @reacquires lock =>
    obtain ⟨l, mem, is, there | there⟩ := before waits
    · cases there
      exact ⟨lock, mem, is, Or.inr rfl⟩
    · exact nomatch there
  | opens | waits | takes | queues | retries | raises | wakes | checks | givesUp | holds
  | signalsNobody | signals | broadcastsNobody | broadcasts | returns | leaves =>
    obtain ⟨l, -, -, there | there⟩ := before waits
    · exact nomatch there
    · exact nomatch there

/-- A thread that has come to queue for a lock waits for it. -/
theorem queued_waits_after_self {l : Lock}
    (there : (progress.frames ++ rest).head? = some (.acquireQueued l)) :
    kernel.table.waits t = some l.id := by
  have waits := waits_after orderly busy mayGo live advances t
  have brought := head_of_telling orderly busy rfl there
  cases advances with
  | @opens call _ opening _ => cases call <;> cases opening <;> exact nomatch brought
  | @registers lock _ _ =>
    cases brought
    exact waits.trans (if_pos rfl)
  | waits | takes | queues | acquires | retries | reacquires | raises | wakes | checks | givesUp
  | holds | signalsNobody | signals | broadcastsNobody | broadcasts | returns | leaves =>
    exact nomatch brought

omit mayGo live in
/-- A thread that has come to try a lock is in the middle of a section. -/
theorem inside_after_self {l : Lock}
    (there : (progress.frames ++ rest).head? = some (.acquire l)) :
    (after s t rest kernel progress).phase = .within t := by
  have brought := head_of_telling orderly busy rfl there
  cases advances with
  | opens => exact phase_after rfl ⟨(s.kernelAt t).depth, by simp⟩
  | reacquires =>
    have inside : s.Inside rest := (fine_of_busy orderly busy rfl).2
    obtain ⟨saved, mem⟩ := leaves_of_inside inside
    exact phase_after rfl ⟨saved, List.mem_cons_of_mem _ mem⟩
  | waits | takes | queues | acquires | retries | registers | raises | wakes | checks | givesUp
  | holds | signalsNobody | signals | broadcastsNobody | broadcasts | returns | leaves =>
    exact nomatch brought

theorem placed_after : Placed (after s t rest kernel progress) where
  absent := fun u => absent_after orderly busy mayGo live advances
  proper := by
    intro u
    by_cases same : u = t
    · rw [same, frames_after_self]
      exact proper_after orderly busy advances
    · have ext : Extends s (after s t rest kernel progress) := extends_after advances
      rw [frames_after_of_ne same]
      exact ext.proper (orderly.placed.proper u)
  holder_lock := fun id u => holder_lock_after orderly busy mayGo live advances
  waits_at := by
    intro u id waiting
    by_cases same : u = t
    · subst same
      rw [at?_after_self]
      exact waits_at_after_self orderly busy mayGo live advances waiting
    · have kept := waits_after_of_ne orderly busy mayGo live advances same
      rw [at?_after_of_ne same]
      exact orderly.placed.waits_at u id (kept.symm.trans waiting)
  queued_waits := by
    intro u l there
    by_cases same : u = t
    · subst same
      rw [at?_after_self] at there
      exact queued_waits_after_self orderly busy mayGo live advances there
    · have kept := waits_after_of_ne orderly busy mayGo live advances same
      rw [at?_after_of_ne same] at there
      exact kept.trans (orderly.placed.queued_waits u l there)
  inside := by
    intro u l there
    by_cases same : u = t
    · subst same
      rw [at?_after_self] at there
      exact inside_after_self orderly busy advances there
    · rw [at?_after_of_ne same] at there
      exact absurd (eq_of_within mayGo (orderly.placed.inside u l there)) same

omit mayGo live in
/-- The permit of a lock is given back by the frame for that alone, and taken by a try alone. -/
theorem count_after {l : Lock} (mem : l ∈ s.locks) (notRaised : head ≠ .up l.semaphore)
    (notTried : head = .acquire l → progress.request = .block) :
    (kernel.semaphore l.semaphore).count = (s.kernel.semaphore l.semaphore).count := by
  cases advances with
  | @takes x permit =>
    have spare : s.Spare x := (fine_of_busy orderly busy rfl).1
    rw [Kernel.permitTaken, Kernel.semaphore_setSemaphore_of_ne (spare.2 l mem)]
    rfl
  | @waits c lock held allowed =>
    have old : l.semaphore.index < (s.kernelAt t).semaphores.length :=
      orderly.furnished.lock_index l mem
    rw [Kernel.semaphore_setWaiters, Kernel.semaphore_addSemaphore_of_lt old]
    rfl
  | queues => exact Kernel.view_setSemaphore Semaphore.count rfl
  | registers =>
    rw [Kernel.queued]
    exact Kernel.view_setSemaphore Semaphore.count rfl
  | @acquires lock _ _ _ =>
    have mine : lock ∈ s.locks := (fine_of_busy orderly busy rfl).1
    have apart : l.semaphore ≠ lock.semaphore := by
      intro same
      obtain rfl := orderly.furnished.lock_semaphore l mem lock mine same
      cases notTried rfl
    rw [Kernel.semaphore_setTable, Kernel.permitTaken, Kernel.semaphore_setSemaphore_of_ne apart]
    rfl
  | @raises x _ _ | @wakes x _ _ _ _ =>
    have apart : l.semaphore ≠ x := by
      rintro rfl
      exact notRaised rfl
    rw [Kernel.permitAdded, Kernel.semaphore_setSemaphore_of_ne apart]
    rfl
  | opens | retries | reacquires | checks | givesUp | holds | signalsNobody | signals
  | broadcastsNobody | broadcasts | returns | leaves => rfl

/-- A thread that is about to add a permit of a lock has just given up that lock. -/
theorem raising_after_self {l : Lock} (mem : l ∈ s.locks)
    (there : (progress.frames ++ rest).head? = some (.up l.semaphore)) :
    (after s t rest kernel progress).phase = .within t ∧ kernel.table.holder? l.id = none ∧
      (kernel.semaphore l.semaphore).count = 0 := by
  have here := at?_of_frames busy
  have change := change_after orderly busy mayGo live advances
  have holds := change.holder? orderly.sound l.id
  have brought := head_of_telling orderly busy rfl there
  cases advances with
  | @opens call _ opening _ =>
    have fine := (fine_of_busy orderly busy rfl).1
    cases call with
    | up x =>
      cases opening
      cases brought
      exact absurd rfl (And.right fine l mem)
    | down | acquire | release | wait | signal | broadcast =>
      cases opening <;> exact nomatch brought
  | @givesUp lock gives =>
    have mine : lock ∈ s.locks := (fine_of_busy orderly busy rfl).1
    have inside : s.Inside rest := (fine_of_busy orderly busy rfl).2
    have raised : lock.semaphore = l.semaphore := Frame.up.inj (Option.some.inj brought)
    obtain rfl := orderly.furnished.lock_semaphore lock mine l mem raised
    obtain ⟨saved, leaves⟩ := leaves_of_inside inside
    have agrees := permit_of_not_up orderly mayGo mem (by rw [here]; simp)
    refine ⟨phase_after rfl ⟨saved, List.mem_cons_of_mem _ leaves⟩, holds.trans (if_pos rfl), ?_⟩
    exact agrees.trans (if_neg (by rw [change.held_of_giveUp]; simp))
  | @signals c first others sorted | @broadcasts c first others sorted =>
    have spare := spare_of_sorted orderly.furnished sorted List.mem_cons_self
    exact absurd (Frame.up.inj (Option.some.inj brought)).symm (spare.2 l mem)
  | waits | takes | queues | acquires | retries | registers | reacquires | raises | wakes
  | checks | holds | signalsNobody | broadcastsNobody | returns | leaves =>
    exact nomatch brought

/-- The permit of a lock comes back when nobody holds the lock any more. -/
theorem permit_raised {l : Lock} (mem : l ∈ s.locks) (raised : head = .up l.semaphore) :
    (kernel.semaphore l.semaphore).count = if kernel.table.holder? l.id = none then 1 else 0 := by
  subst raised
  obtain ⟨-, free, empty⟩ := orderly.balanced.raising t l mem (at?_of_frames busy)
  have present := orderly.furnished.lock_index l mem
  have holds := holder_after orderly busy mayGo live advances l.id
  have added : ∀ waiters, ((s.kernelAt t).permitAdded l.semaphore waiters).semaphore l.semaphore =
      ⟨(s.kernel.semaphore l.semaphore).count + 1, waiters⟩ :=
    fun waiters => Kernel.semaphore_setSemaphore_self present
  rw [if_pos (holds.trans free)]
  cases advances with
  | raises room nobody | wakes room sorted =>
    exact (congrArg Semaphore.count (added _)).trans (congrArg (· + 1) empty)

/-- The permit of a lock goes when the lock gets a holder, and stays as it is in all stretches but
those that take the lock, give it up, or give back the permit. -/
theorem permit_after {l : Lock} (mem : l ∈ s.locks) (notRaised : head ≠ .up l.semaphore)
    (notUp : (after s t rest kernel progress).at? t ≠ some (.up l.semaphore)) :
    (kernel.semaphore l.semaphore).count = if kernel.table.holder? l.id = none then 1 else 0 := by
  have here := at?_of_frames busy
  have change := change_after orderly busy mayGo live advances
  have holds := holder_after orderly busy mayGo live advances l.id
  have agrees := permit_of_not_up orderly mayGo mem (by rw [here]; simpa using notRaised)
  have count := count_after orderly busy advances mem notRaised
  have kept : kernel.table.holder? l.id = s.table.holder? l.id →
      (head = .acquire l → progress.request = .block) →
      (kernel.semaphore l.semaphore).count =
        if kernel.table.holder? l.id = none then 1 else 0 := by
    intro sameHolder notTried
    rw [count notTried, sameHolder]
    exact agrees
  cases advances with
  | @acquires lock _ permit _ =>
    by_cases same : l = lock
    · subst same
      exact permit_claimed (orderly.furnished.lock_index l mem) agrees change.free_of_claim
        (holds.trans (if_pos rfl))
    · have mine : lock ∈ s.locks := (fine_of_busy orderly busy rfl).1
      have differ : l.id ≠ lock.id := fun is =>
        same (orderly.furnished.lock_id l mem lock mine is)
      exact kept (holds.trans (if_neg differ)) fun is => absurd (Frame.acquire.inj is).symm same
  | @givesUp lock _ =>
    have mine : lock ∈ s.locks := (fine_of_busy orderly busy rfl).1
    have differ : l.id ≠ lock.id := by
      intro is
      obtain rfl := orderly.furnished.lock_id l mem lock mine is
      exact notUp at?_after_self
    exact kept (holds.trans (if_neg differ)) nofun
  | registers => exact kept holds fun _ => rfl
  | opens | waits | takes | queues | retries | reacquires | raises | wakes | checks | holds
  | signalsNobody | signals | broadcastsNobody | broadcasts | returns | leaves =>
    exact kept holds nofun

theorem balanced_after : Balanced (after s t rest kernel progress) where
  raising := by
    intro u l mem there
    by_cases same : u = t
    · subst same
      rw [at?_after_self] at there
      exact raising_after_self orderly busy mayGo live advances mem there
    · rw [at?_after_of_ne same] at there
      exact absurd there (not_raising_of_ne orderly mayGo same mem)
  permit := by
    intro l mem notUp
    by_cases raised : head = .up l.semaphore
    · exact permit_raised orderly busy mayGo live advances mem raised
    · exact permit_after orderly busy mayGo live advances mem raised (notUp t)

/-- A stretch keeps a system orderly. -/
theorem orderly_after : Orderly (after s t rest kernel progress) where
  quiet := advances.quiet (orderly.quiet.withDepth _)
  sound := (change_after orderly busy mayGo live advances).sound orderly.sound
  furnished := furnished_after orderly busy advances
  placed := placed_after orderly busy mayGo live advances
  balanced := balanced_after orderly busy mayGo live advances

end Stretch

end System

end KernelSync
