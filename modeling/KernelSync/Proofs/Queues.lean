import KernelSync.Proofs.OrderlyMove

/-!
Who is queued where. A thread that is blocked is in the queue of the semaphore for which it blocked
(`Queued`). As long as no handle is issued a second time, which takes a slot through all its
generations, the queues have nobody else in them: a live thread in a queue is blocked at the place
for that queue, and in it once (`Apart`).
-/

namespace KernelSync

/-- The semaphore in whose queue a thread at a place is, or from whose queue it was woken. -/
def Frame.queuedAt? : Frame → Option SemaphoreId
  | .downQueued x => some x
  | .acquireQueued lock => some lock.semaphore
  | _ => none

/-- The threads that wait for a permit. -/
def Kernel.queue (k : Kernel) (x : SemaphoreId) : List ThreadId := (k.semaphore x).waiters

/-- What a stretch of `me` does to the queues: nothing, or it puts `me` into one and blocks it, or
it takes a thread out of one and unblocks it. -/
inductive Stirs (me : ThreadId) (k k' : Kernel) (progress : Progress) : Prop where
  | still (same : ∀ y, k'.queue y = k.queue y) (noBlock : progress.request ≠ .block)
      (noWake : ∀ u, progress.request ≠ .unblock u)
  | joins {x : SemaphoreId} {frame : Frame} (place : progress.frames.head? = some frame)
      (at_ : frame.queuedAt? = some x) (blocks : progress.request = .block)
      (perm : (k'.queue x).Perm (me :: k.queue x)) (others : ∀ y, y ≠ x → k'.queue y = k.queue y)
  | wakes {x : SemaphoreId} {woken : ThreadId} (unblocks : progress.request = .unblock woken)
      (perm : (woken :: k'.queue x).Perm (k.queue x)) (others : ∀ y, y ≠ x → k'.queue y = k.queue y)

namespace Kernel

variable {k : Kernel} {x y : SemaphoreId} {value : Semaphore}

/-- Nobody waits on a semaphore that is not there. -/
theorem queue_of_absent (beyond : k.semaphores.length ≤ x.index) : k.queue x = [] := by
  have none : k.semaphores[x.index]? = none := List.getElem?_eq_none beyond
  unfold queue semaphore semaphoreCell
  rw [List.getD_eq_getElem?_getD, none]
  rfl

theorem present_of_mem {t : ThreadId} (mem : t ∈ k.queue x) : x.index < k.semaphores.length := by
  refine Nat.lt_of_not_le fun beyond => ?_
  rw [queue_of_absent beyond] at mem
  cases mem

theorem queue_setSemaphore_of_ne (apart : y ≠ x) : (k.setSemaphore x value).queue y = k.queue y :=
  congrArg Semaphore.waiters (semaphore_setSemaphore_of_ne apart)

/-- To write the count of a semaphore leaves all queues. -/
theorem queue_setSemaphore (same : value.waiters = k.queue x) :
    (k.setSemaphore x value).queue y = k.queue y :=
  view_setSemaphore Semaphore.waiters same

theorem queue_setSemaphore_self (present : x.index < k.semaphores.length) :
    (k.setSemaphore x value).queue x = value.waiters :=
  congrArg Semaphore.waiters (semaphore_setSemaphore_self present)

theorem queue_queued (present : x.index < k.semaphores.length) (me : ThreadId) :
    ((k.queued x me).queue x).Perm (me :: k.queue x) := by
  unfold queued
  rw [queue_setSemaphore_self present]
  exact Donation.inserted_perm ..

/-- Nobody waits on a new semaphore. -/
theorem queue_addSemaphore {count : Nat} : (k.addSemaphore count).queue y = k.queue y := by
  unfold queue semaphore semaphoreCell addSemaphore
  simp only [List.getD_eq_getElem?_getD, List.getElem?_append, List.getElem?_singleton]
  split
  · rfl
  · rename_i outside
    rw [List.getElem?_eq_none (Nat.le_of_not_lt outside)]
    split <;> rfl

theorem queue_next : k.queue k.nextSemaphore = [] := queue_of_absent (Nat.le_refl _)

end Kernel

variable {me : ThreadId} {k k' : Kernel} {frame : Frame} {progress : Progress}

/-- A stretch stirs the queues in one of three ways. -/
theorem Advances.stirs (advances : Advances me k frame k' progress)
    (present : ∀ x, frame = .down x ∨ (∃ lock, frame = .acquire lock ∧ lock.semaphore = x) →
      x.index < k.semaphores.length) : Stirs me k k' progress := by
  cases advances with
  | @queues x empty =>
    exact .joins rfl rfl rfl (Kernel.queue_queued (present x (Or.inl rfl)) me)
      fun y apart => Kernel.queue_setSemaphore_of_ne apart
  | @registers lock registers empty =>
    have small : lock.semaphore.index < (k.setTable (k.registered me lock)).semaphores.length :=
      present _ (Or.inr ⟨lock, rfl, rfl⟩)
    exact .joins rfl rfl rfl (Kernel.queue_queued small me)
      fun y apart => Kernel.queue_setSemaphore_of_ne apart
  | @wakes x woken rest room sorted =>
    have perm := Donation.sortedByRank_perm k.table (k.semaphore x).waiters
    rw [sorted] at perm
    have here : woken ∈ k.queue x := perm.mem_iff.mp List.mem_cons_self
    refine .wakes rfl ?_ fun y apart => Kernel.queue_setSemaphore_of_ne apart
    unfold Kernel.permitAdded
    rwa [Kernel.queue_setSemaphore_self (Kernel.present_of_mem here)]
  | waits =>
    exact .still (fun y => Kernel.queue_addSemaphore) nofun nofun
  | takes | acquires => exact .still (fun y => Kernel.queue_setSemaphore rfl) nofun nofun
  | @raises x room nobody =>
    exact .still (fun y => Kernel.queue_setSemaphore nobody.symm) nofun nofun
  | opens | retries | reacquires | checks | givesUp | holds | signalsNobody | signals
  | broadcastsNobody | broadcasts | returns | leaves => exact .still (fun _ => rfl) nofun nofun

namespace System

variable {s s' : System} {t u : ThreadId} {move : Move} {head : Frame} {rest : List Frame}
  {kernel : Kernel}

/-- Nobody is in a queue but live threads that are blocked for it, each once, and threads that are
gone; and none of those is in the queue of a lock. -/
structure Apart (s : System) : Prop where
  issued : ∀ x, ∀ t ∈ s.kernel.queue x, t ∈ s.issued
  blocked : ∀ x, ∀ t ∈ s.kernel.queue x, s.Live t → (s.activity t).blocked = true ∧
    ∃ frame, s.at? t = some frame ∧ frame.queuedAt? = some x
  nodup : ∀ x, (s.kernel.queue x).Nodup
  lock_live : ∀ l ∈ s.locks, ∀ t ∈ s.kernel.queue l.semaphore, s.Live t

/-- Blocked threads are queued where they are. The queues have no other live threads in them as
long as no handle has been issued twice. -/
structure Queued (s : System) : Prop where
  queued : ∀ t, (s.activity t).blocked = true → ∃ frame x, s.at? t = some frame ∧
    frame.queuedAt? = some x ∧ t ∈ s.kernel.queue x
  live_issued : ∀ t, s.Live t → t ∈ s.issued
  apart : s.issued.Nodup → Apart s

theorem queued_start {capacity : Nat} {mode : SchedulingMode} :
    Queued (start capacity mode) := by
  have empty : ∀ x, (start capacity mode).kernel.queue x = [] := fun _ => rfl
  refine ⟨nofun, fun t live => ?_, fun _ => ⟨?_, ?_, ?_, nofun⟩⟩
  · obtain ⟨r, found⟩ := ThreadTable.contains_iff.mp live
    exact nomatch (get?_start t).symm.trans found
  · intro x t mem
    rw [empty] at mem
    exact absurd mem List.not_mem_nil
  · intro x t mem
    rw [empty] at mem
    exact absurd mem List.not_mem_nil
  · intro x
    rw [empty]
    exact List.nodup_nil

section Stretch

variable (orderly : Orderly s) (busy : (s.activity t).frames = head :: rest)
  (mayGo : s.phase = .free ∨ s.phase = .within t ∨ s.phase = .calling t)
  (live : s.Live t) (advances : Advances t (s.kernelAt t) head kernel progress)

theorem blocked_after_self : ((after s t rest kernel progress).activity t).blocked = true ↔
    progress.request = .block := by
  simp [after, settle]

theorem blocked_after_of_ne (apart : u ≠ t) :
    ((after s t rest kernel progress).activity u).blocked = true ↔
      (s.activity u).blocked = true ∧ progress.request ≠ .unblock u := by
  unfold after settle
  simp only [apart, if_false]
  split
  · rename_i same
    simp [same]
  · rename_i other
    simp [other]

include orderly busy advances in
theorem stirs_of_advances : Stirs t (s.kernelAt t) kernel progress := by
  refine advances.stirs ?_
  rintro x (rfl | ⟨lock, rfl, rfl⟩)
  · exact And.left (fine_of_busy orderly busy rfl).1
  · exact orderly.furnished.lock_index lock (fine_of_busy orderly busy rfl).1

variable (notBlocked : (s.activity t).blocked = false) (queued : Queued s)

include notBlocked live in
theorem not_mem_queue (old : Apart s) (x : SemaphoreId) : t ∉ s.kernel.queue x :=
  fun mem => nomatch notBlocked.symm.trans (old.blocked x t mem live).1

include notBlocked live in
/-- It is enough that whoever is in a queue has just come there, or was there before and has not
been woken. -/
theorem apart_of_mem (old : Apart s) (issued : t ∈ s.issued)
    (alive : ∀ u, kernel.table.contains u = true ↔ s.Live u)
    (mem_queue : ∀ x, ∀ u ∈ kernel.queue x,
      u = t ∧ progress.request = .block ∧
          (∃ frame, progress.frames.head? = some frame ∧ frame.queuedAt? = some x) ∨
        u ∈ s.kernel.queue x ∧ (s.Live u → progress.request ≠ .unblock u))
    (nodup : ∀ x, (kernel.queue x).Nodup) : Apart (after s t rest kernel progress) where
  issued := by
    intro x u mem
    rcases mem_queue x u mem with ⟨rfl, -⟩ | ⟨before, -⟩
    · exact issued
    · exact old.issued x u before
  blocked := by
    intro x u mem liveU
    rcases mem_queue x u mem with ⟨rfl, blocks, frame, place, at_⟩ | ⟨before, asleep⟩
    · refine ⟨blocked_after_self.mpr blocks, frame, ?_, at_⟩
      rw [at?_after_self, List.head?_append, place]
      rfl
    · have liveBefore := (alive u).mp liveU
      have apart : u ≠ t := fun same =>
        not_mem_queue live notBlocked old x (same ▸ before)
      obtain ⟨blocked, place⟩ := old.blocked x u before liveBefore
      rw [blocked_after_of_ne apart, at?_after_of_ne apart]
      exact ⟨⟨blocked, asleep liveBefore⟩, place⟩
  nodup := nodup
  lock_live := by
    intro l meml u mem
    rcases mem_queue l.semaphore u mem with ⟨rfl, -⟩ | ⟨before, -⟩
    · exact (alive u).mpr live
    · exact (alive u).mpr (old.lock_live l meml u before)

include orderly busy live advances notBlocked in
/-- A stretch keeps strangers out of the queues. -/
theorem apart_after (old : Apart s) (issued : t ∈ s.issued)
    (alive : ∀ u, kernel.table.contains u = true ↔ s.Live u) :
    Apart (after s t rest kernel progress) := by
  refine apart_of_mem live notBlocked old issued alive ?_ ?_
  · intro x u mem
    cases stirs_of_advances orderly busy advances with
    | still same noBlock noWake => exact Or.inr ⟨same x ▸ mem, fun _ => noWake u⟩
    | @joins y frame place at_ blocks perm same =>
      by_cases here : x = y
      · subst here
        rcases List.mem_cons.mp (perm.mem_iff.mp mem) with rfl | before
        · exact Or.inl ⟨rfl, blocks, frame, place, at_⟩
        · exact Or.inr ⟨before, fun _ => by simp [blocks]⟩
      · exact Or.inr ⟨same x here ▸ mem, fun _ => by simp [blocks]⟩
    | @wakes y woken unblocks perm same =>
      have before : u ∈ s.kernel.queue x := by
        by_cases here : x = y
        · subst here
          exact perm.mem_iff.mp (List.mem_cons_of_mem _ mem)
        · exact same x here ▸ mem
      refine Or.inr ⟨before, fun liveU => ?_⟩
      -- whoever is woken was in no other queue, and in this one only once
      rw [unblocks]
      rintro ⟨⟩
      obtain ⟨-, frame, here, at_⟩ := old.blocked x u before liveU
      obtain ⟨-, frame', here', at'⟩ :=
        old.blocked y u (perm.mem_iff.mp List.mem_cons_self) liveU
      cases here.symm.trans here'
      cases at_.symm.trans at'
      exact (List.nodup_cons.mp (perm.nodup_iff.mpr (old.nodup x))).1 mem
  · intro x
    cases stirs_of_advances orderly busy advances with
    | still same noBlock noWake => exact (same x).symm ▸ old.nodup x
    | @joins y frame place at_ blocks perm same =>
      by_cases here : x = y
      · subst here
        have fresh : t ∉ s.kernel.queue x := not_mem_queue live notBlocked old x
        exact perm.nodup_iff.mpr (List.nodup_cons.mpr ⟨fresh, old.nodup x⟩)
      · exact (same x here).symm ▸ old.nodup x
    | @wakes y woken unblocks perm same =>
      by_cases here : x = y
      · subst here
        exact (List.nodup_cons.mp (perm.nodup_iff.mpr (old.nodup x))).2
      · exact (same x here).symm ▸ old.nodup x

include orderly busy mayGo live advances notBlocked queued in
theorem queued_after : Queued (after s t rest kernel progress) where
  queued := by
    intro u blocked
    by_cases here : u = t
    · subst here
      have blocks := blocked_after_self.mp blocked
      cases stirs_of_advances orderly busy advances with
      | still same noBlock noWake => exact absurd blocks noBlock
      | wakes unblocks perm same => exact nomatch blocks.symm.trans unblocks
      | @joins x frame place at_ _ perm same =>
        refine ⟨frame, x, ?_, at_, perm.mem_iff.mpr List.mem_cons_self⟩
        rw [at?_after_self, List.head?_append, place]
        rfl
    · obtain ⟨before, asleep⟩ := (blocked_after_of_ne here).mp blocked
      obtain ⟨frame, y, place, at_, mem⟩ := queued.queued u before
      refine ⟨frame, y, (at?_after_of_ne here).trans place, at_, ?_⟩
      cases stirs_of_advances orderly busy advances with
      | still same noBlock noWake => exact (same y).symm ▸ mem
      | @joins x _ _ _ _ perm same =>
        by_cases this : y = x
        · subst this
          exact perm.mem_iff.mpr (List.mem_cons_of_mem _ mem)
        · exact (same y this).symm ▸ mem
      | @wakes x woken unblocks perm same =>
        by_cases this : y = x
        · subst this
          refine (List.mem_cons.mp (perm.mem_iff.mpr mem)).resolve_left ?_
          rintro rfl
          exact asleep unblocks
        · exact (same y this).symm ▸ mem
  live_issued := by
    intro u liveU
    exact queued.live_issued u ((live_after orderly busy mayGo live advances u).mp liveU)
  apart := fun nodup =>
    apart_after orderly busy live advances notBlocked (queued.apart nodup)
      (queued.live_issued t live) (live_after orderly busy mayGo live advances)

end Stretch

/-! ### Other moves -/

/-- The place in the queue of a lock is that of a thread that wants the lock. -/
theorem place_of_queuedAt (orderly : Orderly s) {l : Lock} (meml : l ∈ s.locks) {frame : Frame}
    (here : s.at? t = some frame) (at_ : frame.queuedAt? = some l.semaphore) :
    frame = .acquireQueued l := by
  obtain ⟨rest, busy⟩ := busy_of_at? here
  cases frame with
  | downQueued x =>
    cases at_
    exact absurd rfl (And.right (fine_of_busy orderly busy rfl).1 l meml)
  | acquireQueued m =>
    have mine : m ∈ s.locks := (fine_of_busy orderly busy rfl).1
    obtain rfl := orderly.furnished.lock_semaphore m mine l meml (Option.some.inj at_)
    rfl
  | call | down | acquire | up | check | giveUp | claim | signal | broadcast | signaled | leave =>
    exact nomatch at_

/-- Whoever is in the queue of a lock is at the place for it. -/
theorem Apart.place_of_lock (apart : Apart s) (orderly : Orderly s) {l : Lock} (meml : l ∈ s.locks)
    (mem : t ∈ s.kernel.queue l.semaphore) :
    (s.activity t).blocked = true ∧ s.at? t = some (.acquireQueued l) := by
  obtain ⟨blocked, frame, here, at_⟩ :=
    apart.blocked l.semaphore t mem (apart.lock_live l meml t mem)
  obtain rfl := place_of_queuedAt orderly meml here at_
  exact ⟨blocked, here⟩

theorem Queued.not_blocked_of_idle (queued : Queued s) (idle : s.Idle t) :
    (s.activity t).blocked = false := by
  cases blocked : (s.activity t).blocked with
  | false => rfl
  | true =>
    obtain ⟨frame, x, here, -⟩ := queued.queued t blocked
    exact nomatch (at?_of_idle idle).symm.trans here

/-- A move that leaves the queues, and blocks no thread and moves none that is blocked. -/
theorem Queued.aside (queued : Queued s) (queues : ∀ x, s'.kernel.queue x = s.kernel.queue x)
    (alive : ∀ t, s'.Live t → s.Live t) (issued : s'.issued = s.issued)
    (activities : ∀ t, s'.activity t = s.activity t ∨
      (s'.activity t).blocked = false ∧ ¬ (s'.Live t ∧ (s.activity t).blocked = true))
    (lasting : Apart s → ∀ l ∈ s'.locks, ∀ t ∈ s.kernel.queue l.semaphore, s'.Live t) :
    Queued s' where
  queued := by
    intro t blocked
    rcases activities t with same | ⟨free, -⟩
    · rw [same] at blocked
      obtain ⟨frame, x, here, at_, mem⟩ := queued.queued t blocked
      refine ⟨frame, x, ?_, at_, (queues x).symm ▸ mem⟩
      unfold at? at here ⊢
      rwa [same]
    · exact nomatch free.symm.trans blocked
  live_issued := fun t live => issued.symm ▸ queued.live_issued t (alive t live)
  apart := by
    intro nodup
    rw [issued] at nodup
    have old := queued.apart nodup
    refine ⟨fun x t mem => ?_, fun x t mem live => ?_, fun x => (queues x).symm ▸ old.nodup x,
      fun l meml t mem => lasting old l meml t (queues _ ▸ mem)⟩
    · rw [queues] at mem
      exact issued.symm ▸ old.issued x t mem
    · rw [queues] at mem
      obtain ⟨blocked, frame, here, at_⟩ := old.blocked x t mem (alive t live)
      rcases activities t with same | ⟨-, impossible⟩
      · unfold at? at here ⊢
        rw [same]
        exact ⟨blocked, frame, here, at_⟩
      · exact absurd ⟨live, blocked⟩ impossible

/-- A new thread is in no queue, unless its handle was issued before. -/
theorem queued_spawned {id : ThreadId} {r : ThreadRecord} {table : ThreadTable}
    (gains : ThreadTable.Gains s.table id r table) (queued : Queued s) :
    Queued { s.withTable table with issued := s.issued ++ [id] } where
  queued := queued.queued
  live_issued := by
    intro t live
    rcases gains.contains.mp live with rfl | old
    · exact List.mem_append_right _ List.mem_cons_self
    · exact List.mem_append_left _ (queued.live_issued t old)
  apart := by
    intro nodup
    have old := queued.apart (List.nodup_append.mp nodup).1
    refine ⟨fun x t mem => List.mem_append_left _ (old.issued x t mem), fun x t mem live => ?_,
      old.nodup, fun l meml t mem => gains.contains.mpr (Or.inr (old.lock_live l meml t mem))⟩
    rcases gains.contains.mp live with rfl | before
    · have again := old.issued x t mem
      exact absurd rfl ((List.nodup_append.mp nodup).2.2 t again t List.mem_cons_self)
    · exact old.blocked x t mem before

/-- Every move keeps blocked threads in their queues, and strangers out of them. -/
theorem Moved.queued (moved : Moved s move s') (orderly : Orderly s) (allowed : s.Allowed move)
    (queued : Queued s) : Queued s' := by
  have same : ∀ t, s.activity t = s.activity t ∨
      (s.activity t).blocked = false ∧ ¬ (s.Live t ∧ (s.activity t).blocked = true) :=
    fun _ => Or.inl rfl
  cases moved with
  | newSemaphore =>
    exact queued.aside (fun _ => Kernel.queue_addSemaphore) (fun _ live => live) rfl same
      Apart.lock_live
  | newLock =>
    refine queued.aside (fun _ => Kernel.queue_addSemaphore) (fun _ live => live) rfl same
      fun old l meml t mem => ?_
    rcases mem_withLock.mp meml with before | rfl
    · exact old.lock_live l before t mem
    · rw [show s.nextLock.semaphore = s.kernel.nextSemaphore from rfl, Kernel.queue_next] at mem
      exact absurd mem List.not_mem_nil
  | newCondvar | interrupt =>
    exact queued.aside (fun _ => rfl) (fun _ live => live) rfl same Apart.lock_live
  | full => exact queued
  | spawned gains => exact queued_spawned gains queued
  | @removed t table loses live idle unheld =>
    refine queued.aside (fun _ => rfl) (fun u alive => (loses.contains.mp alive).2) rfl
      (fun u => ?_) fun old l meml u mem => ?_
    · by_cases here : u = t
      · refine Or.inr ⟨congrArg Activity.blocked (if_pos here), fun both => ?_⟩
        exact (loses.contains.mp both.1).1 here
      · exact Or.inl (if_neg here)
    · refine loses.contains.mpr ⟨?_, old.lock_live l meml u mem⟩
      rintro rfl
      obtain ⟨-, here⟩ := old.place_of_lock orderly meml mem
      exact nomatch idle.symm.trans (orderly.placed.queued_waits u l here)
  | @rebased t base live =>
    have graph : ThreadTable.SameGraph s.table
        (Donation.changeBasePriority t base s.kernel.mode s.table).state :=
      Donation.changeBase_sameGraph orderly.sound.accounted
    exact queued.aside (fun _ => rfl) (fun u alive => (graph.contains u).symm.trans alive) rfl
      (fun _ => Or.inl rfl) fun old l meml u mem =>
        (graph.contains u).trans (old.lock_live l meml u mem)
  | @reranked t priority live =>
    exact queued.aside (fun _ => rfl)
      (fun u alive => ThreadTable.contains_modify.symm.trans alive) rfl (fun _ => Or.inl rfl)
      fun old l meml u mem => ThreadTable.contains_modify.trans (old.lock_live l meml u mem)
  | @called t call =>
    have free := queued.not_blocked_of_idle allowed.2.1
    refine queued.aside (fun _ => rfl) (fun _ live => live) rfl (fun u => ?_) Apart.lock_live
    by_cases here : u = t
    · subst here
      refine Or.inr ⟨(congrArg Activity.blocked (if_pos rfl)).trans free, fun both => ?_⟩
      exact nomatch free.symm.trans both.2
    · exact Or.inl (if_neg here)
  | @answered t call kernel answer answers =>
    cases answers with
    | refuses | denies | looks =>
      exact queued.aside (fun _ => rfl) (fun _ live => live) rfl (fun _ => Or.inl rfl)
        Apart.lock_live
    | takes =>
      exact queued.aside (fun _ => Kernel.queue_setSemaphore rfl) (fun _ live => live) rfl
        (fun _ => Or.inl rfl) Apart.lock_live
    | acquires notMine permit claims =>
      have change := change_of_grant orderly allowed.1 allowed.2.1 allowed.2.2 permit
      have alive := change.contains orderly.sound
      exact queued.aside (fun _ => Kernel.queue_setSemaphore rfl)
        (fun u live => (alive u).mp live) rfl (fun _ => Or.inl rfl)
        fun old l meml u mem => (alive u).mpr (old.lock_live l meml u mem)
  | went busy advances =>
    exact queued_after orderly busy allowed.1 allowed.2.1 advances allowed.2.2.2 queued

/-- In every state of every run blocked threads are in their queues. -/
theorem Reachable.queued {rule : Rule} (reachable : Reachable rule s) : Queued s := by
  induction reachable with
  | start small => exact queued_start
  | move before allowed obeys ends ih =>
    exact (before.moved allowed ends).queued before.orderly allowed ih

end System

end KernelSync
