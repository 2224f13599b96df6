import KernelSync.Proofs.Exits
import KernelSync.Proofs.Permits

/-!
Waits on condition variables, one by one. A wait is known by its registration, which names a
semaphore that serves no other wait. It stands at one of four stages: it is registered; a signal has
taken the registration out and is about to add the permit; the permit is there; the thread has taken
it and got past the semaphore (`Standing`). A stretch brings a wait at most one stage further, and
only in these ways (`standing_after`).
-/

namespace KernelSync

/-- Whether a frame has yet to get past a semaphore. -/
def Frame.passes (p : SemaphoreId) : Frame → Bool
  | .call (.down x) | .down x | .downQueued x => x = p
  | _ => false

/-- Whether a frame is about to add a permit to a semaphore. -/
def Frame.adds (p : SemaphoreId) : Frame → Bool
  | .call (.up x) | .up x => x = p
  | _ => false

/-- The registrations on `c` that name the semaphore `p`. -/
def Kernel.listed (k : Kernel) (p : SemaphoreId) (c : CondvarId) : List Waiter :=
  (k.waiters c).filter fun w => w.semaphore = p

variable {me : ThreadId} {k k' : Kernel} {frame : Frame} {progress : Progress}
  {p : SemaphoreId} {c d : CondvarId} {w first : Waiter} {others : List Waiter}

/-! ### Stretches -/

theorem Kernel.mem_listed : w ∈ k.listed p c ↔ w ∈ k.waiters c ∧ w.semaphore = p := by
  unfold Kernel.listed
  rw [List.mem_filter, decide_eq_true_eq]

theorem Kernel.waiters_setWaiters_cases {list : List Waiter} :
    (k.setWaiters c list).waiters d = k.waiters d ∨
      d = c ∧ (k.setWaiters c list).waiters d = list := by
  by_cases here : d = c
  · subst here
    by_cases present : d.index < k.condvars.length
    · exact Or.inr ⟨rfl, Kernel.waiters_setWaiters_self present⟩
    · refine Or.inl ?_
      unfold Kernel.waiters Kernel.condvarCell Kernel.setWaiters
      simp [List.getD, present]
  · exact Or.inl (Kernel.waiters_setWaiters_of_ne here)

/-- A condition variable with registrations is there. -/
theorem Kernel.present_of_sorted
    (sorted : Condvar.sortedByRank k.table (k.waiters c) = first :: others) :
    c.index < k.condvars.length := by
  refine Nat.lt_of_not_le fun absent => ?_
  have nobody : k.waiters c = [] := by
    unfold Kernel.waiters Kernel.condvarCell
    rw [List.getD_eq_getElem?_getD, List.getElem?_eq_none absent]
    rfl
  have perm := Condvar.sortedByRank_perm k.table (k.waiters c)
  rw [sorted, nobody] at perm
  exact List.cons_ne_nil _ _ perm.eq_nil

/-- The stretch takes the registration `first` out of `c`, and leaves all others. -/
structure Delists (k k' : Kernel) (frame : Frame) (progress : Progress) (c : CondvarId)
    (first : Waiter) : Prop where
  signals : frame = .signal c ∨ frame = .broadcast c
  sorted : Condvar.sortedByRank k.table (k.waiters c) = first :: k'.waiters c
  others : ∀ d, d ≠ c → k'.waiters d = k.waiters d
  raises : progress.frames.head? = some (.up first.semaphore)
  proceeds : progress.request = .proceed

theorem Delists.taken (delists : Delists k k' frame progress c first) :
    (first :: k'.waiters c).Perm (k.waiters c) :=
  delists.sorted ▸ Condvar.sortedByRank_perm k.table (k.waiters c)

/-- What a stretch of `me` does to the registrations: nothing, or it adds one of `me` with a new
semaphore, or it takes one out. -/
inductive Lists (me : ThreadId) (k k' : Kernel) (frame : Frame) (progress : Progress) : Prop where
  | leaves (same : ∀ d, k'.waiters d = k.waiters d)
  | enlists {c : CondvarId} {lock : Lock} (waits : frame = .call (.wait c lock))
      (added : k' = (k.addSemaphore 0).setWaiters c (k.waiters c ++ [⟨me, k.nextSemaphore⟩]))
      (goesOn : progress =
        ⟨[.call (.release lock), .call (.down k.nextSemaphore), .signaled lock], .proceed⟩)
  | delists {c : CondvarId} {first : Waiter} (delists : Delists k k' frame progress c first)

theorem delists_of_sorted {next : List Frame} (at_ : frame = .signal c ∨ frame = .broadcast c)
    (sorted : Condvar.sortedByRank k.table (k.waiters c) = first :: others) :
    Delists k (k.setWaiters c others) frame ⟨.up first.semaphore :: next, .proceed⟩ c first where
  signals := at_
  sorted := by rwa [Kernel.waiters_setWaiters_self (Kernel.present_of_sorted sorted)]
  others := fun d apart => Kernel.waiters_setWaiters_of_ne apart
  raises := rfl
  proceeds := rfl

theorem Advances.lists (advances : Advances me k frame k' progress) :
    Lists me k k' frame progress := by
  cases advances with
  | waits => exact .enlists rfl rfl rfl
  | signals sorted => exact .delists (delists_of_sorted (Or.inl rfl) sorted)
  | broadcasts sorted => exact .delists (delists_of_sorted (Or.inr rfl) sorted)
  | opens | takes | queues | retries | acquires | registers | reacquires | raises | wakes | checks
  | givesUp | holds | signalsNobody | broadcastsNobody | returns | leaves =>
    exact .leaves fun d => rfl

/-- To take out a registration that names another semaphore leaves those that name `p`. -/
theorem Delists.listed_of_ne (delists : Delists k k' frame progress c first)
    (apart : first.semaphore ≠ p) (d : CondvarId) : (k'.listed p d).Perm (k.listed p d) := by
  by_cases here : d = c
  · subst here
    have perm := delists.taken.filter fun w => w.semaphore = p
    rwa [List.filter_cons_of_neg (by simpa using apart)] at perm
  · unfold Kernel.listed
    rw [delists.others d here]

/-- A frame that has yet to get past a semaphore gives way to one that has, up to the one stretch in
which the thread takes the permit. -/
theorem Advances.passing (advances : Advances me k frame k' progress)
    (old : p.index < k.semaphores.length) :
    progress.frames.countP (Frame.passes p) = [frame].countP (Frame.passes p) ∨
      frame = .down p ∧ progress = ⟨[], .proceed⟩ := by
  have apart : k.nextSemaphore ≠ p := fun same => by
    subst same
    exact Nat.lt_irrefl _ old
  cases advances with
  | @opens call frames opening =>
    left
    cases call with
    | wait => cases opening
    | down x =>
      cases opening
      simp [List.countP_cons, Frame.passes]
    | up | acquire | release | signal | broadcast =>
      cases opening
      rfl
  | waits => exact Or.inl (by simp [Frame.passes, apart])
  | @takes x =>
    by_cases here : x = p
    · exact Or.inr ⟨by rw [here], rfl⟩
    · exact Or.inl (by simp [Frame.passes, here])
  | queues | retries => exact Or.inl (by simp [List.countP_cons, Frame.passes])
  | acquires | registers | reacquires | raises | wakes | checks | givesUp | holds | signalsNobody
  | signals | broadcastsNobody | broadcasts | returns | leaves => exact Or.inl rfl

/-- A frame that is about to add a permit gives way to one that is, up to the stretch that adds it.
Only the end of a holding and a signal begin to. -/
theorem Advances.raising (advances : Advances me k frame k' progress) :
    progress.frames.countP (Frame.adds p) = [frame].countP (Frame.adds p) ∨
      frame = .up p ∧ progress.frames = [.check] ∨
      (∃ lock, frame = .giveUp lock ∧ lock.semaphore = p) ∨
      ∃ c first, Delists k k' frame progress c first ∧ first.semaphore = p ∧
        progress.frames.countP (Frame.adds p) = 1 := by
  cases advances with
  | @opens call frames opening =>
    left
    cases call with
    | wait => cases opening
    | up x =>
      cases opening
      simp [List.countP_cons, Frame.adds]
    | down | acquire | release | signal | broadcast =>
      cases opening
      rfl
  | @raises x | @wakes x =>
    by_cases here : x = p
    · exact Or.inr (Or.inl ⟨by rw [here], rfl⟩)
    · exact Or.inl (by simp [Frame.adds, here])
  | @givesUp lock =>
    by_cases here : lock.semaphore = p
    · exact Or.inr (Or.inr (Or.inl ⟨lock, rfl, here⟩))
    · exact Or.inl (by simp [Frame.adds, here])
  | @signals c first others sorted =>
    by_cases here : first.semaphore = p
    · exact Or.inr (Or.inr (Or.inr ⟨c, first, delists_of_sorted (Or.inl rfl) sorted, here,
        by simp [Frame.adds, here]⟩))
    · exact Or.inl (by simp [Frame.adds, here])
  | @broadcasts c first others sorted =>
    by_cases here : first.semaphore = p
    · exact Or.inr (Or.inr (Or.inr ⟨c, first, delists_of_sorted (Or.inr rfl) sorted, here,
        by simp [Frame.adds, here]⟩))
    · exact Or.inl (by simp [Frame.adds, here])
  | waits | takes | queues | retries | acquires | registers | reacquires | checks | holds
  | signalsNobody | broadcastsNobody | returns | leaves => exact Or.inl rfl

/-! ### Stages -/

/-- How far a wait has come. -/
inductive Stage where
  | registered
  /-- A signal has taken the registration out, and is about to add the permit. -/
  | signaled
  /-- The permit is there. -/
  | granted
  /-- The thread has taken the permit. -/
  | past
  deriving DecidableEq, Repr

/-- How often the registration has been taken out. -/
def Stage.removals : Stage → Nat
  | .registered => 0
  | .signaled | .granted | .past => 1

/-- How often the thread has got past the semaphore. -/
def Stage.passages : Stage → Nat
  | .registered | .signaled | .granted => 0
  | .past => 1

namespace System

variable {s s' : System} {t u : ThreadId} {head : Frame} {rest : List Frame}
  {kernel : Kernel} {stage : Stage} {kind : Frame → Bool}

/-- How many frames of a thread are of a kind. -/
def tally (s : System) (t : ThreadId) (kind : Frame → Bool) : Nat :=
  (s.activity t).frames.countP kind

/-- A semaphore that is there, and neither stands alone nor serves a lock. -/
def Private (s : System) (p : SemaphoreId) : Prop := s.Spare p ∧ p ∉ s.standalone

/-- The wait that registered with `w` on `c` is at that stage. Up to the last, only its own thread
has to get past the semaphore; there is a permit for it only between signal and passage, and only
the signal is about to add one. -/
structure Standing (s : System) (c : CondvarId) (w : Waiter) (stage : Stage) : Prop where
  unshared : s.Private w.semaphore
  listed : ∀ d, s.kernel.listed w.semaphore d = if stage = .registered ∧ d = c then [w] else []
  permits : s.kernel.permits w.semaphore = if stage = .granted then 1 else 0
  passing : ∀ u, s.tally u (Frame.passes w.semaphore) =
    if u = w.thread then 1 - stage.passages else 0
  raising : stage ≠ .signaled → ∀ u, s.tally u (Frame.adds w.semaphore) = 0
  raised : stage = .signaled → ∃ u, s.at? u = some (.up w.semaphore) ∧ s.phase = .within u ∧
    ∀ v, s.tally v (Frame.adds w.semaphore) = if v = u then 1 else 0
  empty : stage = .granted ∨ stage = .past → s.kernel.queue w.semaphore = []

theorem tally_after_self : (after s t rest kernel progress).tally t kind =
    progress.frames.countP kind + rest.countP kind := by
  unfold tally
  rw [frames_after_self, List.countP_append]

theorem tally_after_of_ne (apart : u ≠ t) :
    (after s t rest kernel progress).tally u kind = s.tally u kind := by
  unfold tally
  rw [frames_after_of_ne apart]

theorem tally_of_busy (busy : (s.activity t).frames = head :: rest) :
    s.tally t kind = [head].countP kind + rest.countP kind := by
  unfold tally
  rw [busy, ← List.countP_append]
  rfl

/-- What is done elsewhere leaves a wait that no signal is in the middle of. -/
theorem Standing.aside (standing : Standing s c w stage) (quiet : stage ≠ .signaled)
    (unshared : s'.Private w.semaphore)
    (listed : ∀ d, (s'.kernel.listed w.semaphore d).Perm (s.kernel.listed w.semaphore d))
    (permits : s'.kernel.permits w.semaphore = s.kernel.permits w.semaphore)
    (queue : stage ≠ .registered →
      s'.kernel.queue w.semaphore = s.kernel.queue w.semaphore)
    (passing : ∀ u, s'.tally u (Frame.passes w.semaphore) = s.tally u (Frame.passes w.semaphore))
    (raising : ∀ u, s'.tally u (Frame.adds w.semaphore) = s.tally u (Frame.adds w.semaphore)) :
    Standing s' c w stage where
  unshared := unshared
  listed := by
    intro d
    have perm := listed d
    rw [standing.listed d] at perm
    split at perm
    · rename_i here
      rw [if_pos here]
      exact List.perm_singleton.mp perm
    · rename_i elsewhere
      rw [if_neg elsewhere]
      exact List.perm_nil.mp perm
  permits := permits.trans standing.permits
  passing := fun u => (passing u).trans (standing.passing u)
  raising := fun _ u => (raising u).trans (standing.raising quiet u)
  raised := fun is => absurd is quiet
  empty := by
    intro late
    refine (queue fun is => ?_).trans (standing.empty late)
    subst is
    rcases late with ⟨⟨⟩⟩ | ⟨⟨⟩⟩

/-! ### What a move brings -/

/-- The move is a signal that takes the registration out. -/
def Made.removes (c : CondvarId) (w : Waiter) (made : Made) : Bool :=
  match made.move with
  | .go u => decide ((made.before.at? u = some (.signal c) ∨ made.before.at? u = some (.broadcast c)) ∧
      w ∈ made.before.kernel.waiters c ∧ w ∉ made.after.kernel.waiters c)
  | _ => false

/-- A thread takes a permit for which the wait is there, and gets past the semaphore. -/
def Made.passes (w : Waiter) (made : Made) : Bool :=
  match made.move with
  | .go u => decide (made.before.at? u = some (.down w.semaphore) ∧
      (made.after.activity u).blocked = false)
  | _ => false

/-- From which stage to which a move brings a wait. -/
inductive Brings (c : CondvarId) (w : Waiter) (made : Made) : Stage → Stage → Prop where
  | stays {stage : Stage} (quiet : stage ≠ .signaled) (keeps : made.removes c w = false)
      (waits : made.passes w = false) : Brings c w made stage stage
  | signals (removes : made.removes c w = true) (waits : made.passes w = false) :
      Brings c w made .registered .signaled
  | grants (keeps : made.removes c w = false) (waits : made.passes w = false) :
      Brings c w made .signaled .granted
  | passes (keeps : made.removes c w = false) (passes : made.passes w = true) :
      Brings c w made .granted .past

theorem Standing.mem_iff (standing : Standing s c w stage) :
    w ∈ s.kernel.waiters c ↔ stage = .registered := by
  have listed := standing.listed c
  constructor
  · intro mem
    have here := Kernel.mem_listed.mpr ⟨mem, rfl⟩
    rw [listed] at here
    split at here
    · rename_i both
      exact both.1
    · cases here
  · intro is
    rw [if_pos ⟨is, rfl⟩] at listed
    have here : w ∈ s.kernel.listed w.semaphore c := listed ▸ List.mem_singleton.mpr rfl
    exact (Kernel.mem_listed.mp here).1

section Stretch

variable (orderly : Orderly s) (busy : (s.activity t).frames = head :: rest)
  (mayGo : s.phase = .free ∨ s.phase = .within t ∨ s.phase = .calling t)
  (advances : Advances t (s.kernelAt t) head kernel progress)
  (standing : Standing s c w stage)

theorem removes_of_go (busy : (s.activity t).frames = head :: rest) :
    Made.removes c w ⟨s, .go t, s'⟩ = decide ((head = .signal c ∨ head = .broadcast c) ∧
      w ∈ s.kernel.waiters c ∧ w ∉ s'.kernel.waiters c) := by
  unfold Made.removes
  simp only [at?_of_frames busy, Option.some.injEq]

theorem passes_of_go (busy : (s.activity t).frames = head :: rest) :
    Made.passes w ⟨s, .go t, s'⟩ =
      decide (head = .down w.semaphore ∧ (s'.activity t).blocked = false) := by
  unfold Made.passes
  simp only [at?_of_frames busy, Option.some.injEq]

include advances standing in
theorem private_after : (after s t rest kernel progress).Private w.semaphore :=
  ⟨(extends_after advances).spare standing.unshared.1, standing.unshared.2⟩

/-- In the queue of a private semaphore are only threads that have yet to get past it. -/
theorem tally_of_mem_queue (orderly : Orderly s) (attended : Attended s) (unshared : s.Private p)
    (mem : u ∈ s.kernel.queue p) : 0 < s.tally u (Frame.passes p) := by
  obtain ⟨-, frame, here, at_⟩ := attended.blocked p u mem
  obtain ⟨below, busy⟩ := busy_of_at? here
  cases frame with
  | downQueued x =>
    cases at_
    rw [tally_of_busy busy]
    exact Nat.add_pos_left (by simp [Frame.passes]) _
  | acquireQueued lock =>
    have mem : lock ∈ s.locks := (fine_of_busy orderly busy rfl).1
    exact absurd (Option.some.inj at_) (unshared.1.2 lock mem)
  | call | down | acquire | up | check | giveUp | claim | signal | broadcast | signaled | leave =>
    exact nomatch at_

/-- In the queue for a wait's permit is at most the wait's own thread. -/
theorem Standing.queue (standing : Standing s c w stage) (orderly : Orderly s)
    (attended : Attended s) :
    s.kernel.queue w.semaphore = [] ∨ s.kernel.queue w.semaphore = [w.thread] := by
  have own : ∀ u ∈ s.kernel.queue w.semaphore, u = w.thread := by
    intro u mem
    have some := tally_of_mem_queue orderly attended standing.unshared mem
    rw [standing.passing u] at some
    by_contra other
    rw [if_neg other] at some
    exact Nat.lt_irrefl 0 some
  have nodup := attended.nodup w.semaphore
  cases queue : s.kernel.queue w.semaphore with
  | nil => exact Or.inl rfl
  | cons u others =>
    rw [queue] at own nodup
    right
    obtain rfl := own u List.mem_cons_self
    have nobody : others = [] := by
      refine List.eq_nil_iff_forall_not_mem.mpr fun v mem => ?_
      obtain rfl := own v (List.mem_cons_of_mem _ mem)
      exact (List.nodup_cons.mp nodup).1 mem
    rw [nobody]

include orderly busy advances standing in
/-- The stretch in which the signal adds the permit. Whoever was queued for it is not any more. -/
theorem standing_granted (attended : Attended s) (raises : head = .up w.semaphore)
    (signaled : stage = .signaled) :
    Standing (after s t rest kernel progress) c w .granted := by
  subst raises signaled
  have own := standing.queue orderly attended
  obtain ⟨frames, permits, queue⟩ : progress.frames = [.check] ∧
      kernel.permits w.semaphore = s.kernel.permits w.semaphore + 1 ∧
      kernel.queue w.semaphore = [] := by
    cases treats_of_advances orderly busy advances w.semaphore with
    | leaves _ _ _ notRaised => exact absurd rfl notRaised
    | takes tries | joins tries => cases tries
    | raises _ permits nobody queue proceeds => exact ⟨by rw [proceeds], permits, queue⟩
    | @wakes woken _ permits queue unblocks =>
      refine ⟨by rw [unblocks], permits, ?_⟩
      have perm : (woken :: kernel.queue w.semaphore).Perm (s.kernel.queue w.semaphore) := queue
      rcases own with nobody | alone
      · exact absurd (nobody ▸ perm).eq_nil (List.cons_ne_nil _ _)
      · have length := perm.length_eq
        rw [alone] at length
        exact List.eq_nil_of_length_eq_zero (Nat.succ.inj length)
  have same : ∀ d, kernel.waiters d = s.kernel.waiters d := by
    intro d
    cases advances.lists with
    | leaves same => exact same d
    | enlists waits => cases waits
    | delists delists => rcases delists.signals with ⟨⟨⟩⟩ | ⟨⟨⟩⟩
  -- the thread had one frame that was about to add the permit, and nobody else had any
  obtain ⟨u, here, -, adding⟩ := standing.raised rfl
  have mine := adding t
  have one : [Frame.up w.semaphore].countP (Frame.adds w.semaphore) = 1 := by simp [Frame.adds]
  rw [tally_of_busy busy, one] at mine
  obtain rfl : t = u := by
    by_contra other
    rw [if_neg other] at mine
    omega
  refine
    { unshared := private_after advances standing
      listed := fun d => ?_
      permits := permits.trans (congrArg (· + 1) standing.permits)
      passing := fun v => Eq.trans ?_ (standing.passing v)
      raising := fun _ v => ?_
      raised := nofun
      empty := fun _ => queue }
  · have listed : kernel.listed w.semaphore d = s.kernel.listed w.semaphore d := by
      unfold Kernel.listed
      rw [same d]
    exact listed.trans (standing.listed d)
  · by_cases self : v = t
    · rw [self, tally_after_self, tally_of_busy busy, frames]
      rfl
    · exact tally_after_of_ne self
  · by_cases self : v = t
    · have below : rest.countP (Frame.adds w.semaphore) = 0 := by
        rw [if_pos rfl] at mine
        omega
      rw [self, tally_after_self, frames, below]
      rfl
    · rw [tally_after_of_ne self, adding v, if_neg self]

include orderly busy in
/-- Once a signal has taken a registration out, the thread goes on to add the permit. -/
theorem raises_after {first : Waiter}
    (delists : Delists (s.kernelAt t) kernel head progress d first) :
    (after s t rest kernel progress).at? t = some (.up first.semaphore) ∧
      (after s t rest kernel progress).phase = .within t := by
  have inside : s.Inside rest := by
    rcases delists.signals with rfl | rfl
    · exact (fine_of_busy orderly busy rfl).2
    · exact (fine_of_busy orderly busy rfl).2
  obtain ⟨saved, mem⟩ := leaves_of_inside inside
  refine ⟨?_, phase_after delists.proceeds ⟨saved, List.mem_append_right _ mem⟩⟩
  rw [at?_after_self, List.head?_append, delists.raises]
  rfl

include orderly busy advances standing in
/-- The stretch in which a signal takes the registration out. -/
theorem standing_signaled {first : Waiter}
    (delists : Delists (s.kernelAt t) kernel head progress d first)
    (same : first.semaphore = w.semaphore) :
    Standing (after s t rest kernel progress) c w .signaled ∧
      Brings c w ⟨s, .go t, after s t rest kernel progress⟩ stage .signaled := by
  -- the only registration with that semaphore is the one of the wait
  have listed : first ∈ s.kernel.listed w.semaphore d :=
    Kernel.mem_listed.mpr ⟨delists.taken.mem_iff.mp List.mem_cons_self, same⟩
  rw [standing.listed d] at listed
  obtain ⟨rfl, rfl, rfl⟩ : stage = .registered ∧ d = c ∧ first = w := by
    split at listed
    · rename_i both
      exact ⟨both.1, both.2, List.mem_singleton.mp listed⟩
    · cases listed
  have at_ := delists.signals
  have listed : ∀ c, kernel.listed first.semaphore c = [] := by
    intro c
    by_cases elsewhere : c = d
    · subst elsewhere
      have perm := delists.taken.filter fun w => w.semaphore = first.semaphore
      rw [List.filter_cons_of_pos (by simp)] at perm
      have length := perm.length_eq
      have alone : (s.kernelAt t).listed first.semaphore c = [first] :=
        (standing.listed c).trans (if_pos ⟨rfl, rfl⟩)
      unfold Kernel.listed at alone
      rw [alone] at length
      exact List.eq_nil_of_length_eq_zero (Nat.succ.inj length)
    · unfold Kernel.listed
      rw [delists.others c elsewhere]
      exact (standing.listed c).trans (if_neg fun both => elsewhere both.2)
  obtain ⟨permits, queue⟩ : kernel.permits first.semaphore = s.kernel.permits first.semaphore ∧
      kernel.queue first.semaphore = s.kernel.queue first.semaphore := by
    cases treats_of_advances orderly busy advances first.semaphore with
    | leaves permits queue => exact ⟨permits, queue⟩
    | takes tries | joins tries =>
      rcases at_ with rfl | rfl
      · cases tries
      · cases tries
    | raises raised | wakes raised =>
      subst raised
      rcases at_ with ⟨⟨⟩⟩ | ⟨⟨⟩⟩
  have added : progress.frames.countP (Frame.adds first.semaphore) = 1 := by
    have some : 0 < progress.frames.countP (Frame.adds first.semaphore) :=
      List.countP_pos_iff.mpr
        ⟨_, List.mem_of_mem_head? delists.raises, by simp [Frame.adds]⟩
    rcases advances.raising (p := first.semaphore) with
      none | ⟨rfl, -⟩ | ⟨lock, rfl, -⟩ | ⟨_, _, -, -, one⟩
    · rw [none] at some
      rcases at_ with rfl | rfl
      · cases some
      · cases some
    · rcases at_ with ⟨⟨⟩⟩ | ⟨⟨⟩⟩
    · rcases at_ with ⟨⟨⟩⟩ | ⟨⟨⟩⟩
    · exact one
  have adding := standing.raising nofun
  have below : rest.countP (Frame.adds first.semaphore) = 0 := by
    have mine := adding t
    rw [tally_of_busy busy] at mine
    omega
  obtain ⟨here, within⟩ := raises_after orderly busy delists
  refine ⟨
    { unshared := private_after advances standing
      listed := fun c => (listed c).trans (if_neg nofun).symm
      permits := permits.trans standing.permits
      passing := fun u => Eq.trans ?_ (standing.passing u)
      raising := fun quiet => absurd rfl quiet
      raised := fun _ => ⟨t, here, within, fun u => ?_⟩
      empty := by rintro (⟨⟨⟩⟩ | ⟨⟨⟩⟩) }, .signals ?_ ?_⟩
  · by_cases self : u = t
    · rw [self, tally_after_self, tally_of_busy busy]
      rcases advances.passing standing.unshared.1.1 with same | ⟨rfl, -⟩
      · rw [same]
      · rcases at_ with ⟨⟨⟩⟩ | ⟨⟨⟩⟩
    · exact tally_after_of_ne self
  · by_cases self : u = t
    · rw [if_pos self, self, tally_after_self, added, below]
    · rw [if_neg self, tally_after_of_ne self, adding u]
  · rw [removes_of_go busy]
    refine decide_eq_true ⟨at_, standing.mem_iff.mpr rfl, fun mem => ?_⟩
    have still := Kernel.mem_listed.mpr ⟨mem, rfl⟩
    rw [show (after s t rest kernel progress).kernel = kernel from rfl, listed] at still
    cases still
  · rw [passes_of_go busy]
    refine decide_eq_false fun both => ?_
    rcases at_ with rfl | rfl
    · cases both.1
    · cases both.1

include orderly busy advances standing in
/-- The stretch in which the thread takes the permit. -/
theorem standing_past (tries : head = .down w.semaphore) (takes : progress = ⟨[], .proceed⟩) :
    Standing (after s t rest kernel progress) c w .past ∧
      Brings c w ⟨s, .go t, after s t rest kernel progress⟩ stage .past := by
  subst tries takes
  obtain ⟨permits, queue⟩ : s.kernel.permits w.semaphore = kernel.permits w.semaphore + 1 ∧
      kernel.queue w.semaphore = s.kernel.queue w.semaphore := by
    cases treats_of_advances orderly busy advances w.semaphore with
    | leaves _ _ notTried => exact absurd rfl notTried
    | takes _ permits queue => exact ⟨permits, queue⟩
    | joins _ _ _ _ _ blocks => cases blocks
    | raises raised | wakes raised => cases raised
  have granted : stage = .granted := by
    by_contra other
    have none := standing.permits
    rw [if_neg other, permits] at none
    cases none
  subst granted
  have one : kernel.permits w.semaphore = 0 :=
    Nat.succ.inj (permits.symm.trans standing.permits)
  have same : ∀ d, kernel.waiters d = s.kernel.waiters d := by
    intro d
    cases advances.lists with
    | leaves same => exact same d
    | enlists waits => cases waits
    | delists delists => rcases delists.signals with ⟨⟨⟩⟩ | ⟨⟨⟩⟩
  have mine := standing.passing t
  have some : [Frame.down w.semaphore].countP (Frame.passes w.semaphore) = 1 := by
    simp [Frame.passes]
  rw [tally_of_busy busy, some] at mine
  obtain rfl : t = w.thread := by
    by_contra other
    rw [if_neg other] at mine
    omega
  have below : rest.countP (Frame.passes w.semaphore) = 0 := by
    rw [if_pos rfl] at mine
    simp only [Stage.passages] at mine
    omega
  refine ⟨
    { unshared := private_after advances standing
      listed := fun d => ?_
      permits := one
      passing := fun u => ?_
      raising := fun _ u => ?_
      raised := nofun
      empty := fun _ => queue.trans (standing.empty (Or.inl rfl)) }, .passes ?_ ?_⟩
  · have listed : kernel.listed w.semaphore d = s.kernel.listed w.semaphore d := by
      unfold Kernel.listed
      rw [same d]
    exact listed.trans (standing.listed d)
  · by_cases self : u = w.thread
    · rw [if_pos self, self, tally_after_self, below]
      rfl
    · rw [if_neg self, tally_after_of_ne self, standing.passing u, if_neg self]
  · have adding := standing.raising nofun u
    by_cases self : u = w.thread
    · rw [self, tally_of_busy busy] at adding
      rw [self, tally_after_self]
      exact adding
    · rw [tally_after_of_ne self, adding]
  · rw [removes_of_go busy]
    exact decide_eq_false (by simp)
  · rw [passes_of_go busy]
    refine decide_eq_true ⟨rfl, ?_⟩
    simp [after, settle]

include orderly busy in
/-- A semaphore that serves no lock is tried at one place only. -/
theorem eq_down_of_tried (spare : s.Spare p) (tries : head.triedAt? = some p) :
    head = .down p := by
  cases head with
  | down x =>
    cases tries
    rfl
  | acquire lock =>
    have mem : lock ∈ s.locks := (fine_of_busy orderly busy rfl).1
    exact absurd (Option.some.inj tries) (spare.2 lock mem)
  | call | downQueued | acquireQueued | up | check | giveUp | claim | signal | broadcast | signaled
  | leave => cases tries

include orderly busy advances standing in
/-- A stretch that is none of the three leaves the wait at its stage. -/
theorem standing_kept (quiet : stage ≠ .signaled) (notRaises : head ≠ .up w.semaphore)
    (notTakes : ¬ (head = .down w.semaphore ∧ progress = ⟨[], .proceed⟩))
    (notDelists : ∀ d first, Delists (s.kernelAt t) kernel head progress d first →
      first.semaphore ≠ w.semaphore) :
    Standing (after s t rest kernel progress) c w stage ∧
      Brings c w ⟨s, .go t, after s t rest kernel progress⟩ stage stage := by
  have old := standing.unshared.1.1
  have listed : ∀ d, (kernel.listed w.semaphore d).Perm (s.kernel.listed w.semaphore d) := by
    intro d
    cases advances.lists with
    | leaves same =>
      unfold Kernel.listed
      rw [same d]
      rfl
    | @enlists e lock waits added =>
      subst added
      have apart : (s.kernelAt t).nextSemaphore ≠ w.semaphore := by
        intro same
        rw [← same] at old
        exact Nat.lt_irrefl _ old
      unfold Kernel.listed
      rcases Kernel.waiters_setWaiters_cases (k := (s.kernelAt t).addSemaphore 0) (c := e)
        (d := d) with same | ⟨rfl, set⟩
      · rw [same]
        rfl
      · rw [set, List.filter_append, List.filter_cons_of_neg (by simpa using apart),
          List.filter_nil, List.append_nil]
        rfl
    | delists delists => exact delists.listed_of_ne (notDelists _ _ delists) d
  have notPast : head = .down w.semaphore → stage ≠ .past := by
    rintro rfl rfl
    have mine := standing.passing t
    rw [tally_of_busy busy] at mine
    have some : [Frame.down w.semaphore].countP (Frame.passes w.semaphore) = 1 := by
      simp [Frame.passes]
    simp [some, Stage.passages] at mine
  -- a thread that tries the semaphore finds no permit, so the wait is still registered
  obtain ⟨permits, queue, blocks⟩ :
      kernel.permits w.semaphore = s.kernel.permits w.semaphore ∧
        (stage ≠ .registered → kernel.queue w.semaphore = s.kernel.queue w.semaphore) ∧
        (head = .down w.semaphore → progress.request = .block) := by
    cases treats_of_advances orderly busy advances w.semaphore with
    | leaves permits queue notTried =>
      refine ⟨permits, fun _ => queue, fun tries => absurd ?_ notTried⟩
      rw [tries]
      rfl
    | takes tries _ _ proceeds =>
      exact absurd ⟨eq_down_of_tried orderly busy standing.unshared.1 tries, proceeds⟩ notTakes
    | joins tries empty permits _ _ blocks =>
      refine ⟨permits.trans empty.symm, fun late => ?_, fun _ => by rw [blocks]⟩
      have none : s.kernel.permits w.semaphore = 0 := empty
      rw [standing.permits] at none
      cases stage with
      | registered => exact absurd rfl late
      | signaled => exact absurd rfl quiet
      | granted => cases none
      | past => exact absurd rfl (notPast (eq_down_of_tried orderly busy standing.unshared.1 tries))
    | raises raised | wakes raised => exact absurd raised notRaises
  refine ⟨standing.aside quiet (private_after advances standing) listed permits queue
    (fun u => ?_) (fun u => ?_), .stays quiet ?_ ?_⟩
  · by_cases self : u = t
    · rw [self, tally_after_self, tally_of_busy busy]
      rcases advances.passing old with same | takes
      · rw [same]
      · exact absurd takes notTakes
    · exact tally_after_of_ne self
  · by_cases self : u = t
    · rw [self, tally_after_self, tally_of_busy busy]
      rcases advances.raising (p := w.semaphore) with
        same | ⟨raises, -⟩ | ⟨lock, rfl, same⟩ | ⟨d, first, delists, same, -⟩
      · rw [same]
      · exact absurd raises notRaises
      · have mem : lock ∈ s.locks := (fine_of_busy orderly busy rfl).1
        exact absurd same (standing.unshared.1.2 lock mem)
      · exact absurd same (notDelists d first delists)
    · exact tally_after_of_ne self
  · rw [removes_of_go busy]
    refine decide_eq_false ?_
    rintro ⟨-, before, gone⟩
    have still := (listed c).mem_iff.mpr (Kernel.mem_listed.mpr ⟨before, rfl⟩)
    exact gone (Kernel.mem_listed.mp still).1
  · rw [passes_of_go busy]
    refine decide_eq_false ?_
    rintro ⟨tries, awake⟩
    exact nomatch awake.symm.trans (blocked_after_self.mpr (blocks tries))

include orderly busy mayGo advances standing in
/-- A stretch brings a wait at most one stage further. -/
theorem standing_after (attended : Attended s) : ∃ stage',
    Standing (after s t rest kernel progress) c w stage' ∧
      Brings c w ⟨s, .go t, after s t rest kernel progress⟩ stage stage' := by
  by_cases raises : head = .up w.semaphore
  · have signaled : stage = .signaled := by
      by_contra quiet
      have none := standing.raising quiet t
      rw [tally_of_busy busy, raises] at none
      simp [Frame.adds] at none
    refine ⟨.granted, standing_granted orderly busy advances standing attended raises signaled, ?_⟩
    rw [signaled]
    refine .grants ?_ ?_
    · rw [removes_of_go busy, raises]
      exact decide_eq_false (by simp)
    · rw [passes_of_go busy, raises]
      exact decide_eq_false (by simp)
  have quiet : stage ≠ .signaled := by
    intro signaled
    obtain ⟨u, here, inside, -⟩ := standing.raised signaled
    obtain rfl := eq_of_within mayGo inside
    exact raises (Option.some.inj ((at?_of_frames busy).symm.trans here))
  by_cases takes : head = .down w.semaphore ∧ progress = ⟨[], .proceed⟩
  · exact ⟨.past, standing_past orderly busy advances standing takes.1 takes.2⟩
  by_cases delisted : ∃ d first, Delists (s.kernelAt t) kernel head progress d first ∧
      first.semaphore = w.semaphore
  · obtain ⟨d, first, delists, same⟩ := delisted
    exact ⟨.signaled, standing_signaled orderly busy advances standing delists same⟩
  · exact ⟨stage, standing_kept orderly busy advances standing quiet raises takes
      fun d first delists same => delisted ⟨d, first, delists, same⟩⟩

end Stretch

end System

end KernelSync
