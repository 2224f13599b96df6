import KernelSync.Proofs.Queues

/-!
What a stretch does to one semaphore: nothing, unless the thread is about to try it or about to add
a permit to it. A thread that tries it takes a permit or, if there is none, joins the queue; to add
a permit takes the next thread out of the queue, if there is one, and unblocks it.
-/

namespace KernelSync

/-- The semaphore for a permit of which a thread at a place is about to try. -/
def Frame.triedAt? : Frame → Option SemaphoreId
  | .down x => some x
  | .acquire lock => some lock.semaphore
  | _ => none

/-- The permits of a semaphore that are there to be taken. -/
def Kernel.permits (k : Kernel) (x : SemaphoreId) : Nat := (k.semaphore x).count

/-- What the stretch of `me` from a place does to the permits and the queue of `x`. -/
inductive Treats (me : ThreadId) (k k' : Kernel) (frame : Frame) (progress : Progress)
    (x : SemaphoreId) : Prop where
  | leaves (permits : k'.permits x = k.permits x) (queue : k'.queue x = k.queue x)
      (notTried : frame.triedAt? ≠ some x) (notRaised : frame ≠ .up x)
  | takes (tries : frame.triedAt? = some x) (permits : k.permits x = k'.permits x + 1)
      (queue : k'.queue x = k.queue x) (proceeds : progress = ⟨[], .proceed⟩)
  | joins {place : Frame} (tries : frame.triedAt? = some x) (empty : k.permits x = 0)
      (permits : k'.permits x = 0) (queue : (k'.queue x).Perm (me :: k.queue x))
      (at_ : place.queuedAt? = some x) (blocks : progress = ⟨[place], .block⟩)
      (placed : k'.queue x = Donation.inserted k'.table (Donation.rank k'.table me) me (k.queue x))
  | raises (raised : frame = .up x) (permits : k'.permits x = k.permits x + 1)
      (nobody : k.queue x = []) (queue : k'.queue x = []) (proceeds : progress = ⟨[.check], .proceed⟩)
  | wakes {woken : ThreadId} (raised : frame = .up x) (permits : k'.permits x = k.permits x + 1)
      (queue : (woken :: k'.queue x).Perm (k.queue x))
      (unblocks : progress = ⟨[.check], .unblock woken⟩)
      (sorted : Donation.sortedByRank k.table (k.queue x) = woken :: k'.queue x)

namespace Kernel

variable {k : Kernel} {x y : SemaphoreId} {value : Semaphore}

theorem permits_setSemaphore_of_ne (apart : y ≠ x) :
    (k.setSemaphore x value).permits y = k.permits y :=
  congrArg Semaphore.count (semaphore_setSemaphore_of_ne apart)

theorem permits_setSemaphore_self (present : x.index < k.semaphores.length) :
    (k.setSemaphore x value).permits x = value.count :=
  congrArg Semaphore.count (semaphore_setSemaphore_self present)

/-- To write the queue of a semaphore leaves all permits. -/
theorem permits_setSemaphore (same : value.count = k.permits x) :
    (k.setSemaphore x value).permits y = k.permits y :=
  view_setSemaphore Semaphore.count same

/-- A semaphore that is not there has no permits, as if it were new. -/
theorem permits_of_absent (absent : k.semaphores.length ≤ x.index) : k.permits x = 0 := by
  unfold permits semaphore semaphoreCell
  rw [List.getD_eq_getElem?_getD, List.getElem?_eq_none absent]
  rfl

/-- A new semaphore adds permits of its own alone. -/
theorem permits_addSemaphore {count : Nat} (apart : x ≠ k.nextSemaphore) :
    (k.addSemaphore count).permits x = k.permits x := by
  have differ : x.index ≠ k.semaphores.length := by
    intro same
    exact apart (by cases x; exact congrArg SemaphoreId.mk same)
  unfold permits semaphore semaphoreCell addSemaphore
  simp only [List.getD_eq_getElem?_getD, List.getElem?_append, List.getElem?_singleton]
  split
  · rfl
  · rename_i outside
    rw [List.getElem?_eq_none (Nat.le_of_not_lt outside), if_neg (by omega)]

/-- A permit that is taken is one less. -/
theorem permits_permitTaken (present : y.index < k.semaphores.length) (permit : 0 < k.permits y) :
    k.permits x = (k.permitTaken y).permits x + if x = y then 1 else 0 := by
  by_cases here : x = y
  · subst here
    have left : (k.permitTaken x).permits x = k.permits x - 1 := permits_setSemaphore_self present
    rw [if_pos rfl, left]
    omega
  · rw [if_neg here]
    exact (permits_setSemaphore_of_ne here).symm

theorem permits_next {count : Nat} : (k.addSemaphore count).permits k.nextSemaphore = count :=
  congrArg Semaphore.count semaphore_addSemaphore_next

/-- A new semaphore without permits adds none. -/
theorem permits_addSemaphore_zero : (k.addSemaphore 0).permits x = k.permits x := by
  by_cases here : x = k.nextSemaphore
  · subst here
    exact permits_next.trans (permits_of_absent (Nat.le_refl _)).symm
  · exact permits_addSemaphore here

/-- To lower a count raises no permits. -/
theorem permits_setSemaphore_le (le : value.count ≤ k.permits x) :
    (k.setSemaphore x value).permits y ≤ k.permits y := by
  by_cases here : y = x
  · subst here
    by_cases present : y.index < k.semaphores.length
    · exact (permits_setSemaphore_self present).trans_le le
    · have absent : (k.setSemaphore y value).semaphores.length ≤ y.index := by
        rw [length_setSemaphore]
        exact Nat.le_of_not_lt present
      exact (permits_of_absent absent).trans_le (Nat.zero_le _)
  · exact Nat.le_of_eq (permits_setSemaphore_of_ne here)

end Kernel

variable {me : ThreadId} {k k' : Kernel} {frame : Frame} {progress : Progress}

/-- A thread that finds a permit takes it. -/
theorem treats_of_taken {x y : SemaphoreId} (table : ThreadTable)
    (present : y.index < k.semaphores.length) (permit : 0 < k.permits y)
    (tries : frame.triedAt? = some y) :
    Treats me k ((k.permitTaken y).setTable table) frame ⟨[], .proceed⟩ x := by
  have permits := Kernel.permits_permitTaken (x := x) present permit
  by_cases here : x = y
  · rw [if_pos here] at permits
    exact .takes (here ▸ tries) permits (Kernel.queue_setSemaphore rfl) rfl
  · rw [if_neg here] at permits
    refine .leaves permits.symm (Kernel.queue_setSemaphore rfl) (fun tried => here ?_) ?_
    · exact (Option.some.inj (tries.symm.trans tried)).symm
    · rintro rfl
      exact nomatch tries

/-- A thread that finds no permit joins the queue. -/
theorem treats_of_queued {x y : SemaphoreId} (table : ThreadTable) {place : Frame}
    (present : y.index < k.semaphores.length) (empty : k.permits y = 0)
    (tries : frame.triedAt? = some y) (at_ : place.queuedAt? = some y) :
    Treats me k ((k.setTable table).queued y me) frame ⟨[place], .block⟩ x := by
  have permits : ((k.setTable table).queued y me).permits x = k.permits x :=
    Kernel.permits_setSemaphore (k := k.setTable table) rfl
  by_cases here : x = y
  · subst here
    have small : x.index < (k.setTable table).semaphores.length := present
    exact .joins tries empty (permits.trans empty) (Kernel.queue_queued small me) at_ rfl
      (Kernel.queue_setSemaphore_self small)
  · refine .leaves permits (Kernel.queue_setSemaphore_of_ne here) (fun tried => here ?_) ?_
    · exact (Option.some.inj (tries.symm.trans tried)).symm
    · rintro rfl
      exact nomatch tries

/-- A stretch treats a semaphore in one of five ways. -/
theorem Advances.treats (advances : Advances me k frame k' progress)
    (present : ∀ x, frame.triedAt? = some x ∨ frame = .up x → x.index < k.semaphores.length)
    (x : SemaphoreId) : Treats me k k' frame progress x := by
  cases advances with
  | @takes y permit => exact treats_of_taken k.table (present y (Or.inl rfl)) permit rfl
  | @queues y empty =>
    exact treats_of_queued k.table (present y (Or.inl rfl)) empty rfl rfl
  | @acquires lock registers permit claims =>
    exact treats_of_taken _ (present _ (Or.inl rfl)) permit rfl
  | @registers lock registers empty =>
    exact treats_of_queued _ (present _ (Or.inl rfl)) empty rfl rfl
  | @raises y room nobody =>
    by_cases here : x = y
    · subst here
      have small := present x (Or.inr rfl)
      exact .raises rfl (Kernel.permits_setSemaphore_self small) nobody
        (Kernel.queue_setSemaphore_self small) rfl
    · exact .leaves (Kernel.permits_setSemaphore_of_ne here) (Kernel.queue_setSemaphore_of_ne here)
        (by simp [Frame.triedAt?]) (by simp [Ne.symm here])
  | @wakes y woken rest room sorted =>
    by_cases here : x = y
    · subst here
      have small := present x (Or.inr rfl)
      have queue : (k.permitAdded x rest).queue x = rest := Kernel.queue_setSemaphore_self small
      have perm := Donation.sortedByRank_perm k.table (k.queue x)
      rw [← queue] at sorted
      exact .wakes rfl (Kernel.permits_setSemaphore_self small) (sorted ▸ perm) rfl sorted
    · exact .leaves (Kernel.permits_setSemaphore_of_ne here) (Kernel.queue_setSemaphore_of_ne here)
        (by simp [Frame.triedAt?]) (by simp [Ne.symm here])
  | waits =>
    exact .leaves Kernel.permits_addSemaphore_zero Kernel.queue_addSemaphore
      (by simp [Frame.triedAt?]) (by simp)
  | opens | retries | reacquires | checks | givesUp | holds | signalsNobody | signals
  | broadcastsNobody | broadcasts | returns | leaves =>
    exact .leaves rfl rfl (by simp [Frame.triedAt?]) (by simp)

/-- Permits are added only where a thread is about to add one. -/
theorem Advances.permits_le {x : SemaphoreId} (advances : Advances me k frame k' progress)
    (notRaised : frame ≠ .up x) : k'.permits x ≤ k.permits x := by
  cases advances with
  | takes | acquires => exact Kernel.permits_setSemaphore_le (Nat.sub_le _ _)
  | queues | registers => exact Kernel.permits_setSemaphore_le (Nat.le_refl _)
  | raises | wakes =>
    refine Nat.le_of_eq (Kernel.permits_setSemaphore_of_ne ?_)
    rintro rfl
    exact notRaised rfl
  | waits => exact Nat.le_of_eq Kernel.permits_addSemaphore_zero
  | opens | retries | reacquires | checks | givesUp | holds | signalsNobody | signals
  | broadcastsNobody | broadcasts | returns | leaves => exact Nat.le_refl _

namespace System

variable {s : System} {t : ThreadId} {head : Frame} {rest : List Frame} {kernel : Kernel}

/-- In a run a stretch finds the semaphores there that it tries or raises. -/
theorem treats_of_advances (orderly : Orderly s) (busy : (s.activity t).frames = head :: rest)
    (advances : Advances t (s.kernelAt t) head kernel progress) (x : SemaphoreId) :
    Treats t (s.kernelAt t) kernel head progress x := by
  refine advances.treats (fun y touches => ?_) x
  rcases touches with tries | rfl
  · cases head with
    | down z =>
      cases tries
      exact And.left (fine_of_busy orderly busy rfl).1
    | acquire lock =>
      cases tries
      exact orderly.furnished.lock_index lock (fine_of_busy orderly busy rfl).1
    | call | downQueued | acquireQueued | up | check | giveUp | claim | signal | broadcast
    | signaled | leave => exact nomatch tries
  · rcases (fine_of_busy orderly busy rfl).1 with spare | ⟨lock, mem, rfl⟩
    · exact spare.1
    · exact orderly.furnished.lock_index lock mem

end System

end KernelSync
