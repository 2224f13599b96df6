import KernelSync.Proofs.Queues

/-!
Threads that leave between calls. A thread that is removed in the middle of a call leaves its handle
in a queue. If threads leave between calls alone, as one does that ends itself, everybody in a queue
is a live thread that is blocked for it (`Attended`), however often handles are issued again. It is
enough that no thread leaves in the middle of a call that may wait.
-/

namespace KernelSync

/-- Whether a place is in the middle of a call that may wait. -/
def Frame.mayWait : Frame → Bool
  | .call made => made.mayWait
  | .down _ | .downQueued _ | .acquire _ | .acquireQueued _ | .signaled _ => true
  | .up _ | .check | .giveUp _ | .claim _ _ | .signal _ | .broadcast _ | .leave _ => false

theorem Frame.mayWait_of_queuedAt {frame : Frame} {x : SemaphoreId}
    (at_ : frame.queuedAt? = some x) : frame.mayWait = true := by
  cases frame with
  | downQueued | acquireQueued => rfl
  | call | down | acquire | up | check | giveUp | claim | signal | broadcast | signaled | leave =>
    exact nomatch at_

namespace System

variable {s s' : System} {t u : ThreadId} {move : Move} {head : Frame} {rest : List Frame}
  {kernel : Kernel} {progress : Progress} {rule : Rule}

/-- Forbids to remove a thread in the middle of a call. -/
def exitsIdle : Rule
  | s, .remove t => (s.activity t).frames = []
  | _, _ => True

instance : (s : System) → (move : Move) → Decidable (exitsIdle s move)
  | _, .remove _ => inferInstanceAs (Decidable (_ = _))
  | _, .newSemaphore _ | _, .newLock | _, .newCondvar | _, .spawn _ _ | _, .setBase _ _
  | _, .setEffective _ _ | _, .interrupt _ | _, .call _ _ | _, .short _ _ | _, .go _ =>
    instDecidableTrue

/-- Forbids to remove a thread in the middle of a call that may wait. -/
def exitsClear : Rule
  | s, .remove t => ∀ frame ∈ (s.activity t).frames, frame.mayWait = false
  | _, _ => True

instance : (s : System) → (move : Move) → Decidable (exitsClear s move)
  | s, .remove t => inferInstanceAs (Decidable (∀ frame ∈ (s.activity t).frames, _ = _))
  | _, .newSemaphore _ | _, .newLock | _, .newCondvar | _, .spawn _ _ | _, .setBase _ _
  | _, .setEffective _ _ | _, .interrupt _ | _, .call _ _ | _, .short _ _ | _, .go _ =>
    instDecidableTrue

/-- A thread between calls is in none that may wait. -/
theorem exitsClear_of_idle (obeys : exitsIdle s move) : exitsClear s move := by
  cases move with
  | remove t =>
    intro frame mem
    rw [show (s.activity t).frames = [] from obeys] at mem
    cases mem
  | newSemaphore | newLock | newCondvar | spawn | setBase | setEffective | interrupt | call | short
  | go => trivial

/-- What a stricter rule allows to reach, a laxer one does. -/
theorem Reachable.mono {rule' : Rule} (laxer : ∀ s move, rule s move → rule' s move)
    (reachable : Reachable rule s) : Reachable rule' s := by
  induction reachable with
  | start small => exact .start small
  | move _ allowed obeys ends ih => exact .move ih allowed (laxer _ _ obeys) ends

/-- Everybody in a queue is a live thread that is blocked at the place for it, and is in it once. -/
structure Attended (s : System) : Prop where
  live : ∀ x, ∀ t ∈ s.kernel.queue x, s.Live t
  blocked : ∀ x, ∀ t ∈ s.kernel.queue x, (s.activity t).blocked = true ∧
    ∃ frame, s.at? t = some frame ∧ frame.queuedAt? = some x
  nodup : ∀ x, (s.kernel.queue x).Nodup

theorem attended_start {capacity : Nat} {mode : SchedulingMode} :
    Attended (start capacity mode) := by
  have empty : ∀ x, (start capacity mode).kernel.queue x = [] := fun _ => rfl
  refine ⟨fun x t mem => ?_, fun x t mem => ?_, fun x => ?_⟩
  · rw [empty] at mem
    exact absurd mem List.not_mem_nil
  · rw [empty] at mem
    exact absurd mem List.not_mem_nil
  · rw [empty]
    exact List.nodup_nil

theorem Attended.apart (attended : Attended s) (queued : Queued s) : Apart s where
  issued := fun x t mem => queued.live_issued t (attended.live x t mem)
  blocked := fun x t mem _ => attended.blocked x t mem
  nodup := attended.nodup
  lock_live := fun _ _ t mem => attended.live _ t mem

/-- Nobody is in a queue who is not blocked. -/
theorem Attended.not_mem (attended : Attended s) (awake : (s.activity t).blocked = false)
    (x : SemaphoreId) : t ∉ s.kernel.queue x :=
  fun mem => nomatch awake.symm.trans (attended.blocked x t mem).1

/-- A thread is in one queue at most. -/
theorem Attended.queue_unique (attended : Attended s) {x y : SemaphoreId}
    (mem : t ∈ s.kernel.queue x) (mem' : t ∈ s.kernel.queue y) : x = y := by
  obtain ⟨-, frame, here, at_⟩ := attended.blocked x t mem
  obtain ⟨-, frame', here', at'⟩ := attended.blocked y t mem'
  cases here.symm.trans here'
  exact Option.some.inj (at_.symm.trans at')

/-- To a queue come only threads that are about to block. -/
theorem mem_queue_of_stirs {k k' : Kernel} (stirs : Stirs t k k' progress) {x : SemaphoreId}
    (mem : u ∈ k'.queue x) : u = t ∨ u ∈ k.queue x := by
  cases stirs with
  | still same => exact Or.inr (same x ▸ mem)
  | @joins y frame place at_ blocks perm same =>
    by_cases here : x = y
    · subst here
      exact List.mem_cons.mp (perm.mem_iff.mp mem)
    · exact Or.inr (same x here ▸ mem)
  | @wakes y woken unblocks perm same =>
    by_cases here : x = y
    · subst here
      exact Or.inr (perm.mem_iff.mp (List.mem_cons_of_mem _ mem))
    · exact Or.inr (same x here ▸ mem)

section Stretch

variable (orderly : Orderly s) (busy : (s.activity t).frames = head :: rest)
  (mayGo : s.phase = .free ∨ s.phase = .within t ∨ s.phase = .calling t)
  (live : s.Live t) (advances : Advances t (s.kernelAt t) head kernel progress)
  (awake : (s.activity t).blocked = false) (queued : Queued s) (attended : Attended s)
include orderly busy mayGo live advances awake queued attended

/-- A stretch leaves all queues attended. -/
theorem attended_after : Attended (after s t rest kernel progress) := by
  have alive := live_after orderly busy mayGo live advances
  have apart := apart_after orderly busy live advances awake (attended.apart queued)
    (queued.live_issued t live) alive
  have lives : ∀ x, ∀ u ∈ kernel.queue x, s.Live u := by
    intro x u mem
    rcases mem_queue_of_stirs (stirs_of_advances orderly busy advances) mem with rfl | before
    · exact live
    · exact attended.live x u before
  exact ⟨fun x u mem => (alive u).mpr (lives x u mem),
    fun x u mem => apart.blocked x u mem ((alive u).mpr (lives x u mem)), apart.nodup⟩

end Stretch

/-- A move that leaves the queues, and those who are in them. -/
theorem Attended.aside (attended : Attended s)
    (queues : ∀ x, s'.kernel.queue x = s.kernel.queue x)
    (alive : ∀ t, s.Live t → (s.activity t).blocked = true → s'.Live t)
    (activities : ∀ t, (s.activity t).blocked = true → s'.activity t = s.activity t) :
    Attended s' := by
  refine ⟨fun x t mem => ?_, fun x t mem => ?_, fun x => (queues x).symm ▸ attended.nodup x⟩
  · rw [queues] at mem
    exact alive t (attended.live x t mem) (attended.blocked x t mem).1
  · rw [queues] at mem
    have before := attended.blocked x t mem
    unfold at? at before ⊢
    rw [activities t before.1]
    exact before

/-- Whoever is in no call that may wait is not blocked. -/
theorem Queued.not_blocked_of_clear (queued : Queued s)
    (clear : ∀ frame ∈ (s.activity t).frames, frame.mayWait = false) :
    (s.activity t).blocked = false := by
  refine Bool.eq_false_iff.mpr fun blocked => ?_
  obtain ⟨frame, x, here, at_, -⟩ := queued.queued t blocked
  exact nomatch (clear frame (List.mem_of_head? here)).symm.trans (Frame.mayWait_of_queuedAt at_)

/-- Every move leaves all queues attended, unless it removes a thread in the middle of a call that
may wait. -/
theorem Moved.attended (moved : Moved s move s') (orderly : Orderly s)
    (allowed : s.Allowed move) (obeys : exitsClear s move) (queued : Queued s)
    (attended : Attended s) : Attended s' := by
  cases moved with
  | newSemaphore | newLock =>
    exact attended.aside (fun _ => Kernel.queue_addSemaphore) (fun _ live _ => live)
      fun _ _ => rfl
  | newCondvar | interrupt | full =>
    exact attended.aside (fun _ => rfl) (fun _ live _ => live) fun _ _ => rfl
  | spawned gains =>
    exact attended.aside (fun _ => rfl) (fun _ live _ => gains.contains.mpr (Or.inr live))
      fun _ _ => rfl
  | @removed t table loses live idle unheld =>
    have free := queued.not_blocked_of_clear obeys
    have other : ∀ u, (s.activity u).blocked = true → u ≠ t := by
      rintro u blocked rfl
      exact nomatch free.symm.trans blocked
    exact attended.aside (fun _ => rfl)
      (fun u alive blocked => loses.contains.mpr ⟨other u blocked, alive⟩)
      fun u blocked => if_neg (other u blocked)
  | @rebased t base live =>
    have graph : ThreadTable.SameGraph s.table
        (Donation.changeBasePriority t base s.kernel.mode s.table).state :=
      Donation.changeBase_sameGraph orderly.sound.accounted
    exact attended.aside (fun _ => rfl) (fun u alive _ => (graph.contains u).trans alive)
      fun _ _ => rfl
  | reranked =>
    exact attended.aside (fun _ => rfl)
      (fun u alive _ => ThreadTable.contains_modify.trans alive) fun _ _ => rfl
  | @called t call =>
    have free := queued.not_blocked_of_idle allowed.2.1
    refine attended.aside (fun _ => rfl) (fun _ live _ => live) fun u blocked => if_neg ?_
    rintro rfl
    exact nomatch free.symm.trans blocked
  | @answered t call kernel answer answers =>
    cases answers with
    | refuses | denies | looks =>
      exact attended.aside (fun _ => rfl) (fun _ live _ => live) fun _ _ => rfl
    | takes =>
      exact attended.aside (fun _ => Kernel.queue_setSemaphore rfl) (fun _ live _ => live)
        fun _ _ => rfl
    | acquires notMine permit claims =>
      have change := change_of_grant orderly allowed.1 allowed.2.1 allowed.2.2 permit
      exact attended.aside (fun _ => Kernel.queue_setSemaphore rfl)
        (fun u live _ => (change.contains orderly.sound u).mpr live) fun _ _ => rfl
  | went busy advances =>
    exact attended_after orderly busy allowed.1 allowed.2.1 advances allowed.2.2.2 queued attended

/-- In a run in which no thread leaves a call that may wait all queues are attended. -/
theorem Reachable.attended_of_clear (reachable : Reachable exitsClear s) : Attended s := by
  induction reachable with
  | start small => exact attended_start
  | move before allowed obeys ends ih =>
    exact (before.moved allowed ends).attended before.orderly allowed obeys before.queued ih

/-- In a run in which threads leave between calls alone all queues are attended. -/
theorem Reachable.attended (reachable : Reachable exitsIdle s) : Attended s :=
  (reachable.mono fun _ _ => exitsClear_of_idle).attended_of_clear

end System

end KernelSync
