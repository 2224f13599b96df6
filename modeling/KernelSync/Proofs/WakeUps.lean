import KernelSync.Proofs.DonorBookkeeping
import KernelSync.Proofs.Exits
import KernelSync.Proofs.Permits
import Mathlib.Data.List.Count
import Mathlib.Data.List.Perm.Basic

/-!
Wake-ups in flight. A thread that is woken is not handed the permit: it has to try again, and may
find that another thread came first. A wake-up is in flight from the moment at which the thread is
taken out of the queue until it tries again (`inFlight`). However many threads race, a semaphore
with a queue never has more permits than wake-ups in flight, so none of its permits is left without
a thread on the way to it.
-/

namespace KernelSync

open List

namespace System

variable {s s' : System} {t u : ThreadId} {move : Move} {head : Frame} {rest : List Frame}
  {kernel : Kernel} {progress : Progress} {rule : Rule} {x : SemaphoreId}
  {flying : List ThreadId}

/-! ### Following the wake-ups -/

/-- The threads that a move has taken out of the queue of `x`. -/
def Made.takenOut (x : SemaphoreId) (made : Made) : List ThreadId :=
  (made.before.kernel.queue x).diff (made.after.kernel.queue x)

/-- The thread that tries `x` in a move. -/
def Made.tries? (x : SemaphoreId) (made : Made) : Option ThreadId :=
  match made.move with
  | .go t => if (made.before.at? t).bind Frame.triedAt? = some x then some t else none
  | _ => none

/-- The wake-ups in flight after a move: those of the threads that the move has taken out of the
queue, and of those woken before it that do not try again in it. -/
def Made.fly (x : SemaphoreId) (flying : List ThreadId) (made : Made) : List ThreadId :=
  made.takenOut x ++
    match made.tries? x with
    | some t => flying.erase t
    | none => flying

/-- The threads that have been taken out of the queue of `x` on a path and have not tried again. -/
def inFlight (x : SemaphoreId) (path : List Made) : List ThreadId := path.foldl (Made.fly x) []

/-- The move of a stretch that tries `x`. -/
theorem Made.tries?_of_go (busy : (s.activity t).frames = head :: rest) :
    Made.tries? x ⟨s, .go t, s'⟩ = if head.triedAt? = some x then some t else none := by
  unfold Made.tries?
  simp only [at?_of_frames busy, Option.bind_some]

/-- What is taken out of a list is what it has lost. -/
theorem diff_perm_of_cons {before after : List ThreadId} (perm : (u :: after).Perm before) :
    (before.diff after).Perm [u] := by
  refine perm_iff_count.mpr fun v => ?_
  have counts := perm_iff_count.mp perm v
  rw [count_cons] at counts
  rw [count_diff, count_singleton]
  omega

/-- Nothing is taken out of a list that only grows. -/
theorem diff_eq_nil {before after : List ThreadId} (grown : before.Subperm after) :
    before.diff after = [] := by
  refine eq_nil_of_length_eq_zero (Nat.eq_zero_of_not_pos fun some => ?_)
  obtain ⟨v, mem⟩ := exists_mem_of_length_pos some
  have counts := count_pos_iff.mpr mem
  rw [count_diff] at counts
  have fewer := grown.count_le v
  omega

/-- A move that leaves the queue and tries nothing leaves the wake-ups in flight. -/
theorem fly_of_still (queue : s'.kernel.queue x = s.kernel.queue x)
    (tries : Made.tries? x ⟨s, move, s'⟩ = none) : Made.fly x flying ⟨s, move, s'⟩ = flying := by
  have nobody : Made.takenOut x ⟨s, move, s'⟩ = [] :=
    diff_eq_nil (queue.symm ▸ Subperm.refl _)
  unfold Made.fly
  rw [nobody, tries]
  rfl

/-! ### Permits against wake-ups -/

/-- A semaphore with a queue has no more permits than `flying` has threads. -/
def Backed (s : System) (x : SemaphoreId) (flying : List ThreadId) : Prop :=
  s.kernel.queue x ≠ [] → s.kernel.permits x ≤ flying.length

/-- A stretch keeps permits backed by wake-ups. -/
theorem backed_after (orderly : Orderly s) (busy : (s.activity t).frames = head :: rest)
    (advances : Advances t (s.kernelAt t) head kernel progress) (backed : Backed s x flying) :
    Backed (after s t rest kernel progress) x
      (Made.fly x flying ⟨s, .go t, after s t rest kernel progress⟩) := by
  have tries := @Made.tries?_of_go s (after s t rest kernel progress) t head rest x busy
  intro waits
  have waits : kernel.queue x ≠ [] := waits
  show kernel.permits x ≤ _
  cases treats_of_advances orderly busy advances x with
  | leaves permits queue notTried notRaised =>
    rw [if_neg notTried] at tries
    rw [fly_of_still queue tries, permits]
    exact backed (queue ▸ waits)
  | takes tried permits queue =>
    rw [if_pos tried] at tries
    have before := backed (queue ▸ waits)
    have permits : s.kernel.permits x = kernel.permits x + 1 := permits
    unfold Made.fly
    rw [tries, length_append]
    have atMost : flying.length ≤ (flying.erase t).length + 1 := by
      rw [length_erase]
      split
      · omega
      · omega
    simp only
    omega
  | joins tried empty permits => exact permits ▸ Nat.zero_le _
  | raises raised permits nobody queue => exact absurd queue waits
  | @wakes woken raised permits queue =>
    subst raised
    have taken := (diff_perm_of_cons queue).length_eq
    have before := backed (ne_nil_of_mem (queue.mem_iff.mp mem_cons_self))
    have none : Made.tries? x ⟨s, .go t, after s t rest kernel progress⟩ = none := tries
    unfold Made.fly
    rw [none, length_append]
    have one : (Made.takenOut x ⟨s, .go t, after s t rest kernel progress⟩).length = 1 := taken
    have permits : kernel.permits x = s.kernel.permits x + 1 := permits
    simp only
    omega

/-- A move that takes no thread through a stretch leaves the queues, and adds no permit to a
semaphore with a queue. -/
theorem Moved.still (moved : Moved s move s') (notGo : ∀ t, move ≠ .go t) (x : SemaphoreId) :
    s'.kernel.queue x = s.kernel.queue x ∧
      (s.kernel.queue x ≠ [] → s'.kernel.permits x ≤ s.kernel.permits x) := by
  have created : ∀ count, (s.kernel.addSemaphore count).queue x = s.kernel.queue x ∧
      (s.kernel.queue x ≠ [] →
        (s.kernel.addSemaphore count).permits x ≤ s.kernel.permits x) := by
    intro count
    refine ⟨Kernel.queue_addSemaphore, fun waits => ?_⟩
    refine Nat.le_of_eq (Kernel.permits_addSemaphore ?_)
    rintro rfl
    exact waits Kernel.queue_next
  have taken : ∀ y, (s.kernel.permitTaken y).queue x = s.kernel.queue x ∧
      (s.kernel.permitTaken y).permits x ≤ s.kernel.permits x := by
    intro y
    refine ⟨Kernel.queue_setSemaphore rfl, ?_⟩
    by_cases here : x = y
    · subst here
      by_cases present : x.index < s.kernel.semaphores.length
      · exact Nat.le_trans (Nat.le_of_eq (Kernel.permits_setSemaphore_self present))
          (Nat.sub_le _ _)
      · have absent := Nat.le_of_not_lt present
        exact Nat.le_of_eq ((Kernel.permits_of_absent (by simpa [Kernel.permitTaken])).trans
          (Kernel.permits_of_absent absent).symm)
    · exact Nat.le_of_eq (Kernel.permits_setSemaphore_of_ne here)
  cases moved with
  | newSemaphore => exact created _
  | newLock => exact created 1
  | newCondvar | spawned | full | removed | rebased | reranked | interrupt | called =>
    exact ⟨rfl, fun _ => Nat.le_refl _⟩
  | answered answers =>
    cases answers with
    | @takes y => exact ⟨(taken y).1, fun _ => (taken y).2⟩
    | @acquires lock => exact ⟨(taken lock.semaphore).1, fun _ => (taken lock.semaphore).2⟩
    | refuses | denies | looks => exact ⟨rfl, fun _ => Nat.le_refl _⟩
  | @went t => exact absurd rfl (notGo t)

/-- Whoever is taken out of a queue is taken out to be woken: by a thread that adds a permit, and
at once unblocked. -/
def Made.Wakes (x : SemaphoreId) (made : Made) (u : ThreadId) : Prop :=
  ∃ t, made.move = .go t ∧ made.before.at? t = some (.up x) ∧
    (made.after.activity u).blocked = false

theorem Moved.wakes (moved : Moved s move s') (orderly : Orderly s)
    (taken : u ∈ Made.takenOut x ⟨s, move, s'⟩) : Made.Wakes x ⟨s, move, s'⟩ u := by
  have grown : ¬ (s.kernel.queue x).Subperm (s'.kernel.queue x) := by
    intro grown
    have none : Made.takenOut x ⟨s, move, s'⟩ = [] := diff_eq_nil grown
    exact absurd (none ▸ taken) not_mem_nil
  by_cases go : ∃ t, move = .go t
  · obtain ⟨t, rfl⟩ := go
    cases moved with
    | @went _ head rest kernel progress busy advances =>
      cases treats_of_advances orderly busy advances x with
      | leaves permits queue | takes tried permits queue =>
        exact absurd (queue.symm ▸ Subperm.refl _) grown
      | joins tried empty permits queue =>
        exact absurd ((sublist_cons_self _ _).subperm.trans queue.symm.subperm) grown
      | raises raised permits nobody queue =>
        have nobody : s.kernel.queue x = [] := nobody
        exact absurd (nobody ▸ nil_subperm) grown
      | @wakes woken raised permits queue unblocks =>
        subst raised
        have one : (Made.takenOut x ⟨s, .go t, after s t rest kernel progress⟩).Perm [woken] :=
          diff_perm_of_cons queue
        obtain rfl := mem_singleton.mp (one.mem_iff.mp taken)
        refine ⟨t, rfl, at?_of_frames busy, ?_⟩
        by_cases self : u = t
        · simp [settle, self, unblocks]
        · simp [settle, self, unblocks]
  · have queue := (moved.still (fun t is => go ⟨t, is⟩) x).1
    exact absurd (queue.symm ▸ Subperm.refl _) grown

/-- Every move keeps permits backed by wake-ups. -/
theorem Moved.backed (moved : Moved s move s') (orderly : Orderly s)
    (backed : Backed s x flying) : Backed s' x (Made.fly x flying ⟨s, move, s'⟩) := by
  by_cases go : ∃ t, move = .go t
  · obtain ⟨t, rfl⟩ := go
    cases moved with
    | went busy advances => exact backed_after orderly busy advances backed
  · have notGo : ∀ t, move ≠ .go t := fun t is => go ⟨t, is⟩
    obtain ⟨queue, permits⟩ := moved.still notGo x
    have tries : Made.tries? x ⟨s, move, s'⟩ = none := by
      cases move with
      | go t => exact absurd rfl (notGo t)
      | newSemaphore | newLock | newCondvar | spawn | remove | setBase | setEffective | interrupt
      | call | short => rfl
    intro waits
    rw [fly_of_still queue tries]
    have waits : s.kernel.queue x ≠ [] := queue ▸ waits
    exact Nat.le_trans (permits waits) (backed waits)

/-- On a path a semaphore with a queue has no more permits than wake-ups in flight. -/
theorem backed_of_path {path : List Made} (reachable : Reachable anyMove s)
    (leads : Path s path s') (backed : Backed s x flying) :
    Backed s' x (path.foldl (Made.fly x) flying) := by
  induction leads generalizing flying with
  | rest => exact backed
  | move allowed ends goesOn ih =>
    have moved := reachable.moved allowed ends
    exact ih (.move reachable allowed trivial ends) (moved.backed reachable.orderly backed)

/-! ### Who is in flight -/

/-- Where a thread is that has been woken from the queue of `x` and has not tried again: still at
its place in the queue, or past it and in the section in which it will try. -/
def Underway (s : System) (x : SemaphoreId) (t : ThreadId) : Prop :=
  s.Live t ∧ (s.activity t).blocked = false ∧ ∃ frame, s.at? t = some frame ∧
    (frame.queuedAt? = some x ∨ frame.triedAt? = some x ∧ s.phase = .within t)

/-- `flying` has the threads that are underway, each once, and among them all that have been
unblocked and not yet run. -/
structure Tracked (s : System) (x : SemaphoreId) (flying : List ThreadId) : Prop where
  nodup : flying.Nodup
  underway : ∀ t ∈ flying, s.Underway x t
  complete : ∀ t frame, s.at? t = some frame → frame.queuedAt? = some x →
    (s.activity t).blocked = false → t ∈ flying

theorem tracked_start {capacity : Nat} {mode : SchedulingMode} :
    Tracked (start capacity mode) x [] where
  nodup := nodup_nil
  underway := nofun
  complete := nofun

/-- To a place in a queue a thread comes by a stretch alone. -/
theorem not_queuedAt_of_outside {frame : Frame} (outside : s.Outside rest)
    (here : rest.head? = some frame) : frame.queuedAt? = none := by
  have first := (outside frame (mem_of_mem_head? here)).1
  cases frame with
  | call | signaled => rfl
  | down | downQueued | acquire | acquireQueued | up | check | giveUp | claim | signal | broadcast
  | leave => exact nomatch first

theorem not_queuedAt_below {frame : Frame} (below : s.Outside rest ∨ s.Inside rest)
    (here : rest.head? = some frame) : frame.queuedAt? = none := by
  rcases below with outside | inside
  · exact not_queuedAt_of_outside outside here
  · match rest, inside with
    | .leave _ :: _, _ | .signal _ :: _, _ | .broadcast _ :: _, _ =>
      cases here
      rfl

section Stretch

variable (orderly : Orderly s) (busy : (s.activity t).frames = head :: rest)
  (mayGo : s.phase = .free ∨ s.phase = .within t ∨ s.phase = .calling t)
  (live : s.Live t) (advances : Advances t (s.kernelAt t) head kernel progress)

include orderly busy advances in
/-- From its place in a queue a thread goes on to try again, in the same section. -/
theorem retries_of_queuedAt (at_ : head.queuedAt? = some x) :
    progress.request = .proceed ∧ ∃ frame, frame.triedAt? = some x ∧
      (after s t rest kernel progress).at? t = some frame ∧
      (after s t rest kernel progress).phase = .within t := by
  have inside : ∀ {frame}, head = frame → frame.closes = false → frame.outside = false →
      ∃ saved, Frame.leave saved ∈ rest := by
    rintro frame rfl goesOn inner
    have below := (fine_of_busy orderly busy goesOn).2
    rw [inner] at below
    exact leaves_of_inside below
  cases advances with
  | retries =>
    cases at_
    obtain ⟨saved, mem⟩ := inside rfl rfl rfl
    exact ⟨rfl, .down x, rfl, at?_after_self, phase_after rfl ⟨saved, mem_cons_of_mem _ mem⟩⟩
  | @reacquires lock =>
    cases at_
    obtain ⟨saved, mem⟩ := inside rfl rfl rfl
    exact ⟨rfl, .acquire lock, rfl, at?_after_self,
      phase_after rfl ⟨saved, mem_cons_of_mem _ mem⟩⟩
  | opens | waits | takes | queues | acquires | registers | raises | wakes | checks | givesUp
  | holds | signalsNobody | signals | broadcastsNobody | broadcasts | returns | leaves =>
    exact nomatch at_

include orderly busy mayGo live advances in
/-- A thread underway that does not try in a stretch goes on to be underway. -/
theorem underway_after (underway : s.Underway x u) (notTries : u = t → head.triedAt? ≠ some x) :
    (after s t rest kernel progress).Underway x u := by
  obtain ⟨alive, awake, frame, here, place⟩ := underway
  have lives := (live_after orderly busy mayGo live advances u).mpr alive
  by_cases self : u = t
  · subst self
    cases here.symm.trans (at?_of_frames busy)
    rcases place with queued | ⟨tries, -⟩
    · obtain ⟨proceeds, frame, tries, there, phase⟩ :=
        retries_of_queuedAt orderly busy advances queued
      refine ⟨lives, ?_, frame, there, Or.inr ⟨tries, phase⟩⟩
      exact Bool.eq_false_iff.mpr fun blocked =>
        nomatch proceeds.symm.trans (blocked_after_self.mp blocked)
    · exact absurd tries (notTries rfl)
  · refine ⟨lives, ?_, frame, (at?_after_of_ne self).trans here, ?_⟩
    · exact Bool.eq_false_iff.mpr fun blocked =>
        nomatch awake.symm.trans ((blocked_after_of_ne self).mp blocked).1
    · rcases place with queued | ⟨-, inside⟩
      · exact Or.inl queued
      · exact absurd (eq_of_within mayGo inside) self

variable (attended : Attended s) (notBlocked : (s.activity t).blocked = false)

include orderly busy advances attended in
/-- A stretch takes out of a queue whom it unblocks from there, and nobody else. -/
theorem mem_takenOut_iff :
    u ∈ Made.takenOut x ⟨s, .go t, after s t rest kernel progress⟩ ↔
      u ∈ s.kernel.queue x ∧ progress.request = .unblock u := by
  have grown : (s.kernel.queue x).Subperm (kernel.queue x) →
      Made.takenOut x ⟨s, .go t, after s t rest kernel progress⟩ = [] := diff_eq_nil
  cases stirs_of_advances orderly busy advances with
  | still same noBlock noWake =>
    rw [grown ((same x).symm ▸ Subperm.refl _)]
    exact ⟨nofun, fun both => absurd both.2 (noWake u)⟩
  | @joins y frame place at_ blocks perm same =>
    have more : (s.kernel.queue x).Subperm (kernel.queue x) := by
      by_cases here : x = y
      · subst here
        exact ((sublist_cons_self _ _).subperm).trans perm.symm.subperm
      · exact (same x here).symm ▸ Subperm.refl _
    rw [grown more, blocks]
    exact ⟨nofun, fun both => nomatch both.2⟩
  | @wakes y woken unblocks perm same =>
    have inside := perm.mem_iff.mp mem_cons_self
    rw [unblocks]
    by_cases here : x = y
    · subst here
      have taken : (Made.takenOut x ⟨s, .go t, after s t rest kernel progress⟩).Perm [woken] :=
        diff_perm_of_cons perm
      rw [taken.mem_iff, mem_singleton]
      constructor
      · rintro rfl
        exact ⟨inside, rfl⟩
      · rintro ⟨-, is⟩
        exact (Request.unblock.inj is).symm
    · rw [grown ((same x here).symm ▸ Subperm.refl _)]
      refine ⟨nofun, fun both => ?_⟩
      obtain rfl := Request.unblock.inj both.2
      exact absurd (attended.queue_unique both.1 inside) here

include busy in
/-- Of the wake-ups in flight a stretch ends that of the thread, if it tries again. -/
theorem mem_fly_iff (nodup : flying.Nodup) :
    u ∈ Made.fly x flying ⟨s, .go t, after s t rest kernel progress⟩ ↔
      u ∈ Made.takenOut x ⟨s, .go t, after s t rest kernel progress⟩ ∨
        u ∈ flying ∧ (u = t → head.triedAt? ≠ some x) := by
  unfold Made.fly
  rw [Made.tries?_of_go busy, mem_append]
  refine or_congr_right ?_
  by_cases tried : head.triedAt? = some x
  · rw [if_pos tried]
    simp only [nodup.mem_erase_iff]
    exact ⟨fun both => ⟨both.2, fun same => absurd same both.1⟩,
      fun both => ⟨fun same => both.2 same tried, both.1⟩⟩
  · rw [if_neg tried]
    exact ⟨fun mem => ⟨mem, fun _ => tried⟩, fun both => both.1⟩

include orderly busy advances notBlocked in
/-- Whoever comes to be awake at a place in a queue was so before, or is unblocked by the stretch
of another thread. -/
theorem unblocked_of_awake {frame : Frame}
    (here : (after s t rest kernel progress).at? u = some frame)
    (at_ : frame.queuedAt? = some x)
    (awake : ((after s t rest kernel progress).activity u).blocked = false) :
    u ≠ t ∧ s.at? u = some frame ∧
      ((s.activity u).blocked = false ∨ progress.request = .unblock u) := by
  have other : u ≠ t := by
    rintro rfl
    rw [at?_after_self] at here
    have goesOn : progress.request ≠ .block := fun blocks =>
      nomatch awake.symm.trans (blocked_after_self.mpr blocks)
    have nowhere : ∀ first, progress.frames.head? = some first → first.queuedAt? = none := by
      intro first brought
      cases advances with
      | queues | registers => exact absurd rfl goesOn
      | @opens call frames opening allowed => cases call <;> cases opening <;> cases brought <;> rfl
      | waits | takes | retries | acquires | reacquires | raises | wakes | checks | givesUp
      | holds | signalsNobody | signals | broadcastsNobody | broadcasts | returns | leaves =>
        cases brought <;> rfl
    cases brought : progress.frames with
    | nil =>
      rw [brought] at here
      exact nomatch at_.symm.trans (not_queuedAt_below (below_of_busy orderly busy) here)
    | cons first others =>
      rw [brought] at here nowhere
      cases here
      exact nomatch at_.symm.trans (nowhere _ rfl)
  rw [at?_after_of_ne other] at here
  refine ⟨other, here, ?_⟩
  by_contra neither
  obtain ⟨blocked, asleep⟩ := not_or.mp neither
  have blocked := Bool.of_not_eq_false blocked
  exact nomatch awake.symm.trans ((blocked_after_of_ne other).mpr ⟨blocked, asleep⟩)

variable (tracked : Tracked s x flying)

include orderly busy mayGo live advances attended notBlocked tracked in
/-- A stretch keeps the wake-ups tracked. -/
theorem tracked_after : Tracked (after s t rest kernel progress) x
    (Made.fly x flying ⟨s, .go t, after s t rest kernel progress⟩) where
  nodup := by
    have taken : (Made.takenOut x ⟨s, .go t, after s t rest kernel progress⟩).Nodup :=
      (attended.nodup x).sublist (diff_sublist _ _)
    have kept : (match Made.tries? x ⟨s, .go t, after s t rest kernel progress⟩ with
        | some t => flying.erase t
        | none => flying).Nodup := by
      split
      · exact tracked.nodup.erase _
      · exact tracked.nodup
    refine nodup_append.mpr ⟨taken, kept, fun u mem v old same => ?_⟩
    subst same
    -- who is taken out of the queue was blocked, and who is in flight was not
    have inQueue := ((mem_takenOut_iff orderly busy advances attended).mp mem).1
    have before : u ∈ flying := by
      split at old
      · exact mem_of_mem_erase old
      · exact old
    exact nomatch (tracked.underway u before).2.1.symm.trans (attended.blocked x u inQueue).1
  underway := by
    intro u mem
    rcases (mem_fly_iff busy tracked.nodup).mp mem with taken | ⟨before, notTries⟩
    · obtain ⟨inQueue, unblocks⟩ := (mem_takenOut_iff orderly busy advances attended).mp taken
      obtain ⟨blocked, frame, here, at_⟩ := attended.blocked x u inQueue
      have other : u ≠ t := by
        rintro rfl
        exact nomatch notBlocked.symm.trans blocked
      refine ⟨(live_after orderly busy mayGo live advances u).mpr (attended.live x u inQueue), ?_,
        frame, (at?_after_of_ne other).trans here, Or.inl at_⟩
      exact Bool.eq_false_iff.mpr fun asleep =>
        ((blocked_after_of_ne other).mp asleep).2 unblocks
    · exact underway_after orderly busy mayGo live advances (tracked.underway u before) notTries
  complete := by
    intro u frame here at_ awake
    obtain ⟨other, place, before | unblocks⟩ :=
      unblocked_of_awake orderly busy advances notBlocked here at_ awake
    · exact (mem_fly_iff busy tracked.nodup).mpr
        (Or.inr ⟨tracked.complete u frame place at_ before, fun same => absurd same other⟩)
    · refine (mem_fly_iff busy tracked.nodup).mpr (Or.inl ?_)
      refine (mem_takenOut_iff orderly busy advances attended).mpr ⟨?_, unblocks⟩
      cases stirs_of_advances orderly busy advances with
      | still same noBlock noWake => exact absurd unblocks (noWake u)
      | joins place at_ blocks => exact nomatch blocks.symm.trans unblocks
      | @wakes y woken wakes perm same =>
        obtain rfl := Request.unblock.inj (wakes.symm.trans unblocks)
        have inside := perm.mem_iff.mp mem_cons_self
        obtain ⟨-, frame', here', at'⟩ := attended.blocked y woken inside
        cases here'.symm.trans place
        exact Option.some.inj (at'.symm.trans at_) ▸ inside

end Stretch

/-- A move that takes no thread through a stretch keeps the wake-ups tracked, if it leaves the
threads that are in the middle of a call, and brings nobody to a place in a queue. -/
theorem Tracked.aside (tracked : Tracked s x flying) (free : s.phase = .free)
    (alive : ∀ t, (s.activity t).frames ≠ [] → s.Live t → s'.Live t)
    (activities : ∀ t, (s.activity t).frames ≠ [] → s'.activity t = s.activity t)
    (places : ∀ t frame, s'.at? t = some frame → frame.queuedAt? ≠ none →
      (s.activity t).frames ≠ []) : Tracked s' x flying where
  nodup := tracked.nodup
  underway := by
    intro t mem
    obtain ⟨live, awake, frame, here, place⟩ := tracked.underway t mem
    have busy : (s.activity t).frames ≠ [] := by
      obtain ⟨rest, busy⟩ := busy_of_at? here
      exact busy ▸ cons_ne_nil _ _
    have same := activities t busy
    refine ⟨alive t busy live, same ▸ awake, frame, ?_, ?_⟩
    · unfold at? at here ⊢
      rwa [same]
    · rcases place with queued | ⟨-, inside⟩
      · exact Or.inl queued
      · exact nomatch free.symm.trans inside
  complete := by
    intro t frame here at_ awake
    have same := activities t (places t frame here (by simp [at_]))
    unfold at? at here
    rw [same] at here awake
    exact tracked.complete t frame here at_ awake

theorem busy_of_queuedAt {frame : Frame} (here : s.at? t = some frame) :
    (s.activity t).frames ≠ [] := by
  obtain ⟨rest, busy⟩ := busy_of_at? here
  exact busy ▸ cons_ne_nil _ _

/-- Every move keeps the wake-ups tracked, unless it removes a thread in the middle of a call. -/
theorem Moved.tracked (moved : Moved s move s') (orderly : Orderly s) (allowed : s.Allowed move)
    (obeys : exitsIdle s move) (attended : Attended s)
    (tracked : Tracked s x flying) : Tracked s' x (Made.fly x flying ⟨s, move, s'⟩) := by
  have still : (∀ t, move ≠ .go t) → Made.tries? x ⟨s, move, s'⟩ = none →
      Made.fly x flying ⟨s, move, s'⟩ = flying :=
    fun notGo tries => fly_of_still (moved.still notGo x).1 tries
  cases moved with
  | went busy advances =>
    exact tracked_after orderly busy allowed.1 allowed.2.1 advances attended allowed.2.2.2 tracked
  | newSemaphore =>
    rw [still nofun rfl]
    exact tracked.aside allowed.1 (fun _ _ live => live) (fun _ _ => rfl)
      fun _ _ here _ => busy_of_queuedAt here
  | newLock | newCondvar | full | interrupt =>
    rw [still nofun rfl]
    exact tracked.aside allowed (fun _ _ live => live) (fun _ _ => rfl)
      fun _ _ here _ => busy_of_queuedAt here
  | spawned gains =>
    rw [still nofun rfl]
    exact tracked.aside allowed (fun _ _ live => gains.contains.mpr (Or.inr live)) (fun _ _ => rfl)
      fun _ _ here _ => busy_of_queuedAt here
  | @removed t table loses live idle unheld =>
    rw [still nofun rfl]
    have other : ∀ u, (s.activity u).frames ≠ [] → u ≠ t := by
      rintro u busy rfl
      exact busy obeys
    refine tracked.aside allowed (fun u busy alive => loses.contains.mpr ⟨other u busy, alive⟩)
      (fun u busy => if_neg (other u busy)) fun u frame here _ => ?_
    by_cases same : u = t
    · unfold at? become at here
      simp [same] at here
    · unfold at? become at here
      simp only [same, if_false] at here
      exact busy_of_queuedAt here
  | @rebased t base live =>
    rw [still nofun rfl]
    have graph : ThreadTable.SameGraph s.table
        (Donation.changeBasePriority t base s.kernel.mode s.table).state :=
      Donation.changeBase_sameGraph orderly.sound.accounted
    exact tracked.aside allowed (fun u _ alive => (graph.contains u).trans alive) (fun _ _ => rfl)
      fun _ _ here _ => busy_of_queuedAt here
  | reranked =>
    rw [still nofun rfl]
    exact tracked.aside allowed (fun u _ alive => ThreadTable.contains_modify.trans alive)
      (fun _ _ => rfl) fun _ _ here _ => busy_of_queuedAt here
  | @called t call =>
    rw [still nofun rfl]
    have other : ∀ u, (s.activity u).frames ≠ [] → u ≠ t := by
      rintro u busy rfl
      exact busy allowed.2.1.2
    refine tracked.aside allowed.1 (fun _ _ live => live) (fun u busy => if_neg (other u busy))
      fun u frame here at_ => ?_
    by_cases same : u = t
    · unfold at? become at here
      simp only [same, if_true] at here
      cases here
      exact absurd rfl at_
    · unfold at? become at here
      simp only [same, if_false] at here
      exact busy_of_queuedAt here
  | @answered t call kernel answer answers =>
    rw [still nofun rfl]
    have alive : ∀ u, s.Live u → kernel.table.contains u = true := by
      cases answers with
      | takes | refuses | denies | looks => exact fun _ live => live
      | acquires notMine permit claims =>
        have change := change_of_grant orderly allowed.1 allowed.2.1 allowed.2.2 permit
        exact fun u live => (change.contains orderly.sound u).mpr live
    exact tracked.aside allowed.1 (fun u _ live => alive u live) (fun _ _ => rfl)
      fun _ _ here _ => busy_of_queuedAt here

/-- On a path on which threads leave between calls alone the wake-ups stay tracked. -/
theorem tracked_of_path {path : List Made} (reachable : Reachable exitsIdle s)
    (leads : Path s path s') (obeys : ∀ made ∈ path, exitsIdle made.before made.move)
    (tracked : Tracked s x flying) : Tracked s' x (path.foldl (Made.fly x) flying) := by
  induction leads generalizing flying with
  | rest => exact tracked
  | move allowed ends goesOn ih =>
    have obeysNow := obeys _ mem_cons_self
    have moved := reachable.moved allowed ends
    exact ih (.move reachable allowed obeysNow ends)
      (fun made later => obeys made (mem_cons_of_mem _ later))
      (moved.tracked reachable.orderly allowed obeysNow reachable.attended tracked)

/-- Where no thread is in the middle of a section, the threads underway to a lock are those woken
from its queue. -/
theorem Underway.woken (orderly : Orderly s) (attended : Attended s) {l : Lock}
    (mem : l ∈ s.locks) (outside : ∀ t, s.phase ≠ .within t)
    (underway : s.Underway l.semaphore t) : s.Woken l t := by
  obtain ⟨-, awake, frame, here, queued | ⟨-, inside⟩⟩ := underway
  · obtain rfl := place_of_queuedAt orderly mem here queued
    exact ⟨here, awake, attended.not_mem awake _⟩
  · exact absurd inside (outside t)

/-- A lock that nobody holds is on its way to a thread if any is queued for it. -/
theorem exists_woken (orderly : Orderly s) (attended : Attended s) {l : Lock} (mem : l ∈ s.locks)
    (outside : ∀ t, s.phase ≠ .within t) (unheld : s.table.holder? l.id = none)
    (waits : s.kernel.queue l.semaphore ≠ []) (backed : Backed s l.semaphore flying)
    (tracked : Tracked s l.semaphore flying) : ∃ t, s.Live t ∧ s.Woken l t := by
  have permit : s.kernel.permits l.semaphore = 1 :=
    (orderly.balanced.permit l mem fun t raising =>
      outside t (orderly.balanced.raising t l mem raising).1).trans (if_pos unheld)
  have some : 0 < flying.length := Nat.lt_of_lt_of_le (permit ▸ Nat.one_pos) (backed waits)
  obtain ⟨t, inside⟩ := exists_mem_of_length_pos some
  have underway := tracked.underway t inside
  exact ⟨t, underway.1, underway.woken orderly attended mem outside⟩

end System

end KernelSync
