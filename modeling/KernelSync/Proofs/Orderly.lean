import KernelSync.Proofs.Moves

/-!
The invariant of all runs. A state is `Orderly` if its objects are told apart (`Furnished`), if
every thread is at a place where the primitives can have brought it and waits for a lock exactly at
the places for that (`Placed`), and if the permits of the locks agree with their holders
(`Balanced`). Every state that a run can reach is orderly (`Reachable.orderly`).
-/

namespace KernelSync

/-- Whether a frame stands outside all sections. -/
def Frame.outside : Frame → Bool
  | .call _ | .signaled _ => true
  | _ => false

/-- Whether a frame is the end of a section. -/
def Frame.closes : Frame → Bool
  | .leave _ => true
  | _ => false

/-- Whether a frame is a place of which the invariant says what it means for a lock: about to try
it, queued for it, or about to give back its permit. -/
def Frame.telling : Frame → Bool
  | .acquire _ | .acquireQueued _ | .up _ => true
  | _ => false

namespace System

open ThreadTable Lock

variable {s s' : System} {t u : ThreadId} {frames rest : List Frame}

/-! ### Where a thread can be -/

/-- A semaphore that is there and serves no lock. -/
def Spare (s : System) (x : SemaphoreId) : Prop :=
  x.index < s.kernel.semaphores.length ∧ ∀ lock ∈ s.locks, lock.semaphore ≠ x

/-- The objects that a frame names are there. Only to add a permit may it name the semaphore of a
lock. -/
def Fine (s : System) : Frame → Prop
  | .call (.down x) | .call (.up x) | .down x | .downQueued x => s.Spare x
  | .call (.acquire lock) | .call (.release lock) | .call (.wait _ lock)
  | .call (.signal _ lock) | .call (.broadcast _ lock) | .acquire lock | .acquireQueued lock
  | .giveUp lock | .claim _ lock | .signaled lock => lock ∈ s.locks
  | .up x => s.Spare x ∨ ∃ lock ∈ s.locks, lock.semaphore = x
  | .check | .signal _ | .broadcast _ | .leave _ => True

/-- What waits below a frame outside all sections: calls to be made, and the way back from a
wait. -/
def Outside (s : System) (frames : List Frame) : Prop :=
  ∀ frame ∈ frames, frame.outside = true ∧ s.Fine frame

/-- What waits below a frame inside a section: the rest of the section, its end, and what comes
after it. -/
def Inside (s : System) : List Frame → Prop
  | .leave _ :: rest => s.Outside rest
  | .signal _ :: rest | .broadcast _ :: rest => Inside s rest
  | _ => False

/-- Frames that a thread can come to have. -/
def Proper (s : System) : List Frame → Prop
  | [] => True
  | .leave _ :: rest => s.Outside rest
  | head :: rest => s.Fine head ∧ if head.outside then s.Outside rest else s.Inside rest

theorem proper_of_outside (outside : s.Outside frames) : s.Proper frames := by
  match frames with
  | [] => trivial
  | .leave _ :: rest => exact fun frame mem => outside frame (List.mem_cons_of_mem _ mem)
  | .call _ :: rest | .signaled _ :: rest =>
    exact ⟨(outside _ List.mem_cons_self).2,
      fun frame mem => outside frame (List.mem_cons_of_mem _ mem)⟩
  | .down _ :: _ | .downQueued _ :: _ | .acquire _ :: _ | .acquireQueued _ :: _ | .up _ :: _
  | .check :: _ | .giveUp _ :: _ | .claim _ _ :: _ | .signal _ :: _ | .broadcast _ :: _ =>
    exact nomatch (outside _ List.mem_cons_self).1

theorem proper_of_inside (inside : s.Inside frames) : s.Proper frames := by
  match frames, inside with
  | .leave _ :: _, inside => exact inside
  | .signal _ :: _, inside => exact ⟨trivial, inside⟩
  | .broadcast _ :: _, inside => exact ⟨trivial, inside⟩

/-- Inside a section all places name objects that are there. -/
theorem fine_of_inside (inside : s.Inside frames) : ∀ frame ∈ frames, s.Fine frame := by
  induction frames with
  | nil => exact inside.elim
  | cons head rest ih =>
    match head, inside with
    | .leave _, outside =>
      exact List.forall_mem_cons.mpr ⟨trivial, fun frame mem => (outside frame mem).2⟩
    | .signal _, inside | .broadcast _, inside =>
      exact List.forall_mem_cons.mpr ⟨trivial, ih inside⟩

/-- A thread at a proper place names objects that are there. -/
theorem fine_of_proper (proper : s.Proper frames) : ∀ frame ∈ frames, s.Fine frame := by
  match frames, proper with
  | [], _ => exact List.forall_mem_nil _
  | .leave _ :: _, outside =>
    exact List.forall_mem_cons.mpr ⟨trivial, fun frame mem => (outside frame mem).2⟩
  | .call _ :: _, ⟨fine, outside⟩ | .signaled _ :: _, ⟨fine, outside⟩ =>
    exact List.forall_mem_cons.mpr ⟨fine, fun frame mem => (outside frame mem).2⟩
  | .down _ :: _, ⟨fine, inside⟩ | .downQueued _ :: _, ⟨fine, inside⟩
  | .acquire _ :: _, ⟨fine, inside⟩ | .acquireQueued _ :: _, ⟨fine, inside⟩
  | .up _ :: _, ⟨fine, inside⟩ | .check :: _, ⟨fine, inside⟩ | .giveUp _ :: _, ⟨fine, inside⟩
  | .claim _ _ :: _, ⟨fine, inside⟩ | .signal _ :: _, ⟨fine, inside⟩
  | .broadcast _ :: _, ⟨fine, inside⟩ =>
    exact List.forall_mem_cons.mpr ⟨fine, fine_of_inside inside⟩

/-- Inside a section the end of it is still to come. -/
theorem leaves_of_inside (inside : s.Inside frames) : ∃ saved, Frame.leave saved ∈ frames := by
  induction frames with
  | nil => exact inside.elim
  | cons head rest ih =>
    match head, inside with
    | .leave saved, _ => exact ⟨saved, List.mem_cons_self⟩
    | .signal _, inside | .broadcast _, inside =>
      obtain ⟨saved, mem⟩ := ih inside
      exact ⟨saved, List.mem_cons_of_mem _ mem⟩

theorem not_telling_of_outside {frame : Frame} (outside : s.Outside frames)
    (here : frames.head? = some frame) : frame.telling = false := by
  have first := (outside frame (List.mem_of_mem_head? here)).1
  cases frame <;> first | rfl | exact nomatch first

theorem not_telling_of_inside {frame : Frame} (inside : s.Inside frames)
    (here : frames.head? = some frame) : frame.telling = false := by
  match frames, inside with
  | .leave _ :: _, _ | .signal _ :: _, _ | .broadcast _ :: _, _ =>
    cases here
    rfl

/-! ### Growth -/

/-- Objects may have been added; a lock that has been has a semaphore of its own. -/
structure Extends (s s' : System) : Prop where
  locks : ∀ lock ∈ s.locks, lock ∈ s'.locks
  fresh : ∀ lock ∈ s'.locks,
    lock ∈ s.locks ∨ s.kernel.semaphores.length ≤ lock.semaphore.index
  semaphores : s.kernel.semaphores.length ≤ s'.kernel.semaphores.length

section Extends

variable (ext : Extends s s')
include ext

theorem Extends.spare {x : SemaphoreId} (spare : s.Spare x) : s'.Spare x := by
  refine ⟨Nat.lt_of_lt_of_le spare.1 ext.semaphores, fun lock mem same => ?_⟩
  rcases ext.fresh lock mem with old | new
  · exact spare.2 lock old same
  · rw [same] at new
    exact Nat.lt_irrefl _ (Nat.lt_of_lt_of_le spare.1 new)

theorem Extends.fine {frame : Frame} (fine : s.Fine frame) : s'.Fine frame := by
  match frame, fine with
  | .call (.down _), fine | .call (.up _), fine | .down _, fine | .downQueued _, fine =>
    exact ext.spare fine
  | .call (.acquire _), fine | .call (.release _), fine | .call (.wait _ _), fine
  | .call (.signal _ _), fine | .call (.broadcast _ _), fine | .acquire _, fine
  | .acquireQueued _, fine | .giveUp _, fine | .claim _ _, fine | .signaled _, fine =>
    exact ext.locks _ fine
  | .up _, fine =>
    exact fine.imp ext.spare fun ⟨lock, mem, same⟩ => ⟨lock, ext.locks lock mem, same⟩
  | .check, _ | .signal _, _ | .broadcast _, _ | .leave _, _ => exact trivial

theorem Extends.outside (outside : s.Outside frames) : s'.Outside frames :=
  fun frame mem => ⟨(outside frame mem).1, ext.fine (outside frame mem).2⟩

theorem Extends.inside (inside : s.Inside frames) : s'.Inside frames := by
  induction frames with
  | nil => exact inside
  | cons head rest ih =>
    match head, inside with
    | .leave _, inside => exact ext.outside inside
    | .signal _, inside => exact ih inside
    | .broadcast _, inside => exact ih inside

theorem Extends.proper (proper : s.Proper frames) : s'.Proper frames := by
  match frames, proper with
  | [], _ => trivial
  | .leave _ :: _, proper => exact ext.outside proper
  | .call _ :: _, ⟨fine, below⟩ | .signaled _ :: _, ⟨fine, below⟩ =>
    exact ⟨ext.fine fine, ext.outside below⟩
  | .down _ :: _, ⟨fine, below⟩ | .downQueued _ :: _, ⟨fine, below⟩
  | .acquire _ :: _, ⟨fine, below⟩ | .acquireQueued _ :: _, ⟨fine, below⟩
  | .up _ :: _, ⟨fine, below⟩ | .check :: _, ⟨fine, below⟩ | .giveUp _ :: _, ⟨fine, below⟩
  | .claim _ _ :: _, ⟨fine, below⟩ | .signal _ :: _, ⟨fine, below⟩
  | .broadcast _ :: _, ⟨fine, below⟩ =>
    exact ⟨ext.fine fine, ext.inside below⟩

end Extends

/-! ### The invariant -/

/-- Locks are told apart by number and by semaphore, and nothing else uses their semaphores. -/
structure Furnished (s : System) : Prop where
  lock_id : ∀ l ∈ s.locks, ∀ m ∈ s.locks, l.id = m.id → l = m
  lock_semaphore : ∀ l ∈ s.locks, ∀ m ∈ s.locks, l.semaphore = m.semaphore → l = m
  lock_number : ∀ l ∈ s.locks, l.id.number ≤ s.locks.length
  lock_index : ∀ l ∈ s.locks, l.semaphore.index < s.kernel.semaphores.length
  standalone : ∀ x ∈ s.standalone, s.Spare x
  registered : ∀ c, ∀ w ∈ s.kernel.waiters c, s.Spare w.semaphore

/-- Threads are at proper places, and wait for a lock just where they queue for it or are about to
try it again. -/
structure Placed (s : System) : Prop where
  absent : ∀ t, ¬ s.Live t → s.activity t = {}
  proper : ∀ t, s.Proper (s.activity t).frames
  holder_lock : ∀ id t, s.table.holder? id = some t → ∃ l ∈ s.locks, l.id = id
  waits_at : ∀ t id, s.table.waits t = some id → ∃ l ∈ s.locks, l.id = id ∧
    (s.at? t = some (.acquireQueued l) ∨ s.at? t = some (.acquire l))
  queued_waits : ∀ t l, s.at? t = some (.acquireQueued l) → s.table.waits t = some l.id
  inside : ∀ t l, s.at? t = some (.acquire l) → s.phase = .within t

/-- A lock has a permit if nobody holds it; the one exception is the moment between the end of a
holding and the return of the permit. -/
structure Balanced (s : System) : Prop where
  raising : ∀ t, ∀ l ∈ s.locks, s.at? t = some (.up l.semaphore) → s.phase = .within t ∧
    s.table.holder? l.id = none ∧ (s.kernel.semaphore l.semaphore).count = 0
  permit : ∀ l ∈ s.locks, (∀ t, s.at? t ≠ some (.up l.semaphore)) →
    (s.kernel.semaphore l.semaphore).count = if s.table.holder? l.id = none then 1 else 0

/-- What holds of every state of a run. -/
structure Orderly (s : System) : Prop where
  quiet : s.kernel.Quiet
  sound : Sound s.table
  furnished : Furnished s
  placed : Placed s
  balanced : Balanced s

section Start

variable {capacity : Nat} {mode : SchedulingMode}

theorem get?_start (t : ThreadId) : (start capacity mode).table.get? t = none := by
  simp [start, System.table, Kernel.table, ThreadTable.empty, get?]

theorem waits_start (t : ThreadId) : (start capacity mode).table.waits t = none := by
  simp [ThreadTable.waits, get?_start]

theorem sound_start (small : capacity ≤ maxCapacity) : Sound (start capacity mode).table where
  arena := arena_empty small
  accounted := by
    constructor
    · intro h r found
      cases (get?_start h).symm.trans found
    · intro h r found
      cases (get?_start h).symm.trans found
    · intro lock h held
      cases held

theorem furnished_start : Furnished (start capacity mode) where
  lock_id := fun _ mem => absurd mem List.not_mem_nil
  lock_semaphore := fun _ mem => absurd mem List.not_mem_nil
  lock_number := fun _ mem => absurd mem List.not_mem_nil
  lock_index := fun _ mem => absurd mem List.not_mem_nil
  standalone := fun _ mem => absurd mem List.not_mem_nil
  registered := fun _ _ mem => absurd mem List.not_mem_nil

theorem placed_start : Placed (start capacity mode) where
  absent := fun _ _ => rfl
  proper := fun _ => trivial
  holder_lock := by
    intro id t held
    cases held
  waits_at := by
    intro t id waiting
    cases (waits_start t).symm.trans waiting
  queued_waits := by
    intro t l here
    cases here
  inside := by
    intro t l here
    cases here

theorem orderly_start (small : capacity ≤ maxCapacity) : Orderly (start capacity mode) where
  quiet := ⟨rfl, fun _ mem => absurd mem List.not_mem_nil, fun _ mem => absurd mem List.not_mem_nil⟩
  sound := sound_start small
  furnished := furnished_start
  placed := placed_start
  balanced :=
    ⟨fun _ _ mem => absurd mem List.not_mem_nil, fun _ mem => absurd mem List.not_mem_nil⟩

end Start

/-- All that the frames of a thread name is there. -/
theorem Orderly.fine (orderly : Orderly s) (t : ThreadId) :
    ∀ frame ∈ (s.activity t).frames, s.Fine frame :=
  fine_of_proper (orderly.placed.proper t)

/-- A thread between calls, or one that is gone, waits for no lock. -/
theorem Placed.waits_of_idle (placed : Placed s) (idle : (s.activity t).frames = []) :
    s.table.waits t = none := by
  cases waiting : s.table.waits t with
  | none => rfl
  | some id =>
    obtain ⟨l, -, -, here | here⟩ := placed.waits_at t id waiting
    · simp [at?, idle] at here
    · simp [at?, idle] at here

/-- A thread that is about to try a lock may register for it. -/
theorem Orderly.mayRegister (orderly : Orderly s) {lock : Lock}
    (here : s.at? t = some (.acquire lock)) : MayRegister s.table lock.id t := by
  unfold MayRegister
  cases waiting : s.table.waits t with
  | none => exact Or.inl rfl
  | some id =>
    obtain ⟨l, -, rfl, there | there⟩ := orderly.placed.waits_at t id waiting
    · exact nomatch here.symm.trans there
    · cases here.symm.trans there
      exact Or.inr rfl

end System

end KernelSync
