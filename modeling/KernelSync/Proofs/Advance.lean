import KernelSync.Call
import KernelSync.Proofs.Access
import KernelSync.Proofs.TableChange

/-!
What one stretch of a call can do. `Advances` lists it case by case: for each place in the
primitives and each way in which the stretch from there can end well, the conditions under which it
does, the kernel that it leaves, and how far it has brought the call. `advances_of_ok` says that the
list is complete.
-/

namespace KernelSync

open Stretch Kernel

/-- What a call goes through inside its section. A wait has no section of its own. -/
def Call.opening : Call → Option (List Frame)
  | .down s => some [.down s]
  | .up s => some [.up s]
  | .acquire lock => some [.acquire lock]
  | .release lock => some [.giveUp lock]
  | .wait _ _ => none
  | .signal c lock => some [.claim .signal lock, .signal c]
  | .broadcast c lock => some [.claim .broadcast lock, .broadcast c]

/-- Whether a call is refused to an interrupt handler. -/
def Call.mayWait : Call → Bool
  | .down _ | .acquire _ | .wait _ _ => true
  | _ => false

namespace Kernel

variable {α : Type} {k : Kernel}

/-- The table after the caller has registered for a lock. -/
def registered (k : Kernel) (me : ThreadId) (lock : Lock) : ThreadTable :=
  (Lock.register lock.id me k.mode.donates k.table).state

/-- The kernel after a permit has been taken. -/
def permitTaken (k : Kernel) (s : SemaphoreId) : Kernel :=
  k.setSemaphore s ⟨(k.semaphore s).count - 1, (k.semaphore s).waiters⟩

/-- The kernel after `me` has joined the waiters of a semaphore. -/
def queued (k : Kernel) (s : SemaphoreId) (me : ThreadId) : Kernel :=
  k.setSemaphore s ⟨(k.semaphore s).count,
    Donation.inserted k.table (Donation.rank k.table me) me (k.semaphore s).waiters⟩

/-- The kernel after a permit has been added, and with the waiters `rest`. -/
def permitAdded (k : Kernel) (s : SemaphoreId) (rest : List ThreadId) : Kernel :=
  k.setSemaphore s ⟨(k.semaphore s).count + 1, rest⟩

end Kernel

/-- What the stretch from a place can do to the kernel, and how far it brings the call. -/
inductive Advances (me : ThreadId) (k : Kernel) : Frame → Kernel → Progress → Prop where
  | opens {call : Call} {frames : List Frame} (opening : call.opening = some frames)
      (allowed : call.mayWait = true → k.inInterrupt = false) :
      Advances me k (.call call) { k with depth := k.depth + 1 }
        ⟨frames ++ [.leave k.depth], .proceed⟩
  | waits {c : CondvarId} {lock : Lock} (held : k.table.holder? lock.id = some me)
      (allowed : k.inInterrupt = false) :
      Advances me k (.call (.wait c lock))
        ((k.addSemaphore 0).setWaiters c (k.waiters c ++ [⟨me, k.nextSemaphore⟩]))
        ⟨[.call (.release lock), .call (.down k.nextSemaphore), .signaled lock], .proceed⟩
  | takes {s : SemaphoreId} (permit : 0 < (k.semaphore s).count) :
      Advances me k (.down s) (k.permitTaken s) ⟨[], .proceed⟩
  | queues {s : SemaphoreId} (empty : (k.semaphore s).count = 0) :
      Advances me k (.down s) (k.queued s me) ⟨[.downQueued s], .block⟩
  | retries {s : SemaphoreId} : Advances me k (.downQueued s) k ⟨[.down s], .proceed⟩
  | acquires {lock : Lock}
      (registers : (Lock.register lock.id me k.mode.donates k.table).outcome = .ok ())
      (permit : 0 < (k.semaphore lock.semaphore).count)
      (claims : (Lock.claim lock.id me k.mode.donates (k.registered me lock)).outcome = .ok ()) :
      Advances me k (.acquire lock)
        ((k.permitTaken lock.semaphore).setTable
          (Lock.claim lock.id me k.mode.donates (k.registered me lock)).state)
        ⟨[], .proceed⟩
  | registers {lock : Lock}
      (registers : (Lock.register lock.id me k.mode.donates k.table).outcome = .ok ())
      (empty : (k.semaphore lock.semaphore).count = 0) :
      Advances me k (.acquire lock)
        ((k.setTable (k.registered me lock)).queued lock.semaphore me)
        ⟨[.acquireQueued lock], .block⟩
  | reacquires {lock : Lock} : Advances me k (.acquireQueued lock) k ⟨[.acquire lock], .proceed⟩
  | raises {s : SemaphoreId} (room : (k.semaphore s).count < Semaphore.maxCount)
      (nobody : (k.semaphore s).waiters = []) :
      Advances me k (.up s) (k.permitAdded s []) ⟨[.check], .proceed⟩
  | wakes {s : SemaphoreId} {woken : ThreadId} {rest : List ThreadId}
      (room : (k.semaphore s).count < Semaphore.maxCount)
      (sorted : Donation.sortedByRank k.table (k.semaphore s).waiters = woken :: rest) :
      Advances me k (.up s) (k.permitAdded s rest) ⟨[.check], .unblock woken⟩
  | checks : Advances me k .check k ⟨[], .check⟩
  | givesUp {lock : Lock}
      (gives : (Lock.giveUp lock.id me k.mode.donates k.table).outcome = .ok ()) :
      Advances me k (.giveUp lock)
        (k.setTable (Lock.giveUp lock.id me k.mode.donates k.table).state)
        ⟨[.up lock.semaphore], .proceed⟩
  | holds {purpose : CondvarCall} {lock : Lock} (held : k.table.holder? lock.id = some me) :
      Advances me k (.claim purpose lock) k ⟨[], .proceed⟩
  | signalsNobody {c : CondvarId} (nobody : k.waiters c = []) :
      Advances me k (.signal c) k ⟨[], .proceed⟩
  | signals {c : CondvarId} {first : Waiter} {rest : List Waiter}
      (sorted : Condvar.sortedByRank k.table (k.waiters c) = first :: rest) :
      Advances me k (.signal c) (k.setWaiters c rest) ⟨[.up first.semaphore], .proceed⟩
  | broadcastsNobody {c : CondvarId} (nobody : k.waiters c = []) :
      Advances me k (.broadcast c) k ⟨[], .proceed⟩
  | broadcasts {c : CondvarId} {first : Waiter} {rest : List Waiter}
      (sorted : Condvar.sortedByRank k.table (k.waiters c) = first :: rest) :
      Advances me k (.broadcast c) (k.setWaiters c rest)
        ⟨[.up first.semaphore, .broadcast c], .proceed⟩
  | returns {lock : Lock} :
      Advances me k (.signaled lock) k ⟨[.call (.acquire lock)], .proceed⟩
  | leaves {saved : Nat} :
      Advances me k (.leave saved) { k with depth := saved } ⟨[], .proceed⟩

/-! ### Sections -/

namespace Kernel

variable {α : Type} {k : Kernel}

/-- A section restores the depth, and otherwise does what its body does. -/
theorem inSection_run (body : Nat → Stretch Kernel α) : inSection body k =
    ⟨(body k.depth { k with depth := k.depth + 1 }).outcome,
      { (body k.depth { k with depth := k.depth + 1 }).state with depth := k.depth },
      .entered k.depth :: ((body k.depth { k with depth := k.depth + 1 }).events ++
        [.left (body k.depth { k with depth := k.depth + 1 }).state.depth k.depth])⟩ := rfl

theorem requireCanWait_run (call : WaitingCall) : requireCanWait call k =
    if k.inInterrupt = false then ⟨.ok (), k, []⟩
    else ⟨.error (.waitsInInterrupt call), k, []⟩ := by
  unfold requireCanWait
  rw [bind_run_ok (read_run _ _)]
  split
  · rename_i outside
    rw [require_run (by simp [outside])]
    rfl
  · rename_i inside
    rw [require_run_of_not (by simpa using inside)]
    rfl

end Kernel

variable {me : ThreadId} {k k' : Kernel} {progress : Progress} {events : List Event}

/-! ### Calls that begin -/

theorem advances_of_begin (quiet : k.Quiet) {call : Call}
    (run : Frame.begin me call k = ⟨.ok progress, k', events⟩) :
    Advances me k (.call call) k' progress := by
  have waitable : ∀ purpose {β : Type} {f : Unit → Stretch Kernel β} {b : β},
      (requireCanWait purpose >>= f) k = ⟨.ok b, k', events⟩ →
        k.inInterrupt = false ∧ f () k = ⟨.ok b, k', events⟩ := by
    intro purpose β f b run
    rw [bind_run, requireCanWait_run] at run
    by_cases outside : k.inInterrupt = false
    · rw [if_pos outside] at run
      exact ⟨outside, run⟩
    · rw [if_neg outside] at run
      simp at run
  cases call with
  | down s =>
    obtain ⟨outside, run⟩ := waitable .down run
    have opening : (Call.down s).opening = some [.down s] := rfl
    cases run
    exact .opens opening fun _ => outside
  | up s =>
    have opening : (Call.up s).opening = some [.up s] := rfl
    cases run
    exact .opens opening (fun waits => nomatch waits)
  | acquire lock =>
    obtain ⟨outside, run⟩ := waitable .acquire run
    have opening : (Call.acquire lock).opening = some [.acquire lock] := rfl
    cases run
    exact .opens opening fun _ => outside
  | release lock =>
    have opening : (Call.release lock).opening = some [.giveUp lock] := rfl
    cases run
    exact .opens opening (fun waits => nomatch waits)
  | wait c lock =>
    obtain ⟨outside, run⟩ := waitable .wait run
    have deeper : Quiet { k with depth := k.depth + 1 } := quiet.withDepth _
    rw [bind_run, inSection_run, Condvar.register_run deeper] at run
    by_cases held : k.table.holder? lock.id = some me
    · have same : ({ k with depth := k.depth + 1 } : Kernel).table.holder? lock.id = some me := held
      rw [if_pos same] at run
      cases run
      exact .waits held outside
    · have same : ¬ ({ k with depth := k.depth + 1 } : Kernel).table.holder? lock.id = some me :=
        held
      rw [if_neg same] at run
      simp at run
  | signal c lock =>
    have opening : (Call.signal c lock).opening = some [.claim .signal lock, .signal c] := rfl
    cases run
    exact .opens opening (fun waits => nomatch waits)
  | broadcast c lock =>
    have opening : (Call.broadcast c lock).opening =
        some [.claim .broadcast lock, .broadcast c] := rfl
    cases run
    exact .opens opening (fun waits => nomatch waits)

/-! ### Places inside a call -/

/-- To take a permit or to queue for one, whichever comes about. -/
theorem downOrQueue_eq_ok (quiet : k.Quiet) {s : SemaphoreId} {taken : Bool}
    (run : Semaphore.downOrQueue me s k = ⟨.ok taken, k', events⟩) :
    taken = true ∧ 0 < (k.semaphore s).count ∧ k' = k.permitTaken s ∨
      taken = false ∧ (k.semaphore s).count = 0 ∧ k' = k.queued s me := by
  rw [Semaphore.downOrQueue_run quiet] at run
  by_cases permit : 0 < (k.semaphore s).count
  · rw [if_pos permit] at run
    cases run
    exact Or.inl ⟨rfl, permit, rfl⟩
  · rw [if_neg permit] at run
    rcases hinsert : (Donation.insertByPriority me (k.semaphore s).waiters k.table).outcome
      with fault | waiters
    · rw [hinsert] at run
      cases run
    · have inserts : Donation.insertByPriority me (k.semaphore s).waiters k.table =
          ⟨.ok waiters, k.table, []⟩ := by
        rw [Donation.inspects_insertByPriority.looks.eq k.table, hinsert]
      rw [hinsert] at run
      cases run
      refine Or.inr ⟨rfl, Nat.eq_zero_of_not_pos permit, ?_⟩
      rw [Donation.insertByPriority_eq_ok inserts]
      rfl

theorem advances_of_down (quiet : k.Quiet) {s : SemaphoreId}
    (run : Frame.advance me (.down s) k = ⟨.ok progress, k', events⟩) :
    Advances me k (.down s) k' progress := by
  obtain ⟨taken, mid, _, _, downs, run, -⟩ := bind_eq_ok.mp run
  rcases downOrQueue_eq_ok quiet downs with ⟨rfl, permit, rfl⟩ | ⟨rfl, empty, rfl⟩
  · cases run
    exact .takes permit
  · cases run
    exact .queues empty

theorem withThreads_eq_ok {α : Type} {body : Stretch ThreadTable α} {a : α} (quiet : k.Quiet) :
    withThreads body k = ⟨.ok a, k', events⟩ ↔
      ∃ table, body k.table = ⟨.ok a, table, events⟩ ∧ k' = k.setTable table := by
  rw [withThreads_run quiet.threads]
  rcases body k.table with ⟨outcome, table, reported⟩
  simp only [Run.mk.injEq]
  constructor
  · rintro ⟨rfl, rfl, rfl⟩
    exact ⟨table, ⟨rfl, rfl, rfl⟩, rfl⟩
  · rintro ⟨table', ⟨rfl, rfl, rfl⟩, rfl⟩
    exact ⟨rfl, rfl, rfl⟩

theorem advances_of_acquire (quiet : k.Quiet) {lock : Lock}
    (run : Frame.advance me (.acquire lock) k = ⟨.ok progress, k', events⟩) :
    Advances me k (.acquire lock) k' progress := by
  obtain ⟨donates, k₀, _, _, reads, run, -⟩ := bind_eq_ok.mp run
  cases reads
  obtain ⟨⟨⟩, k₁, _, _, registers, run, -⟩ := bind_eq_ok.mp run
  obtain ⟨table, enters, rfl⟩ := (withThreads_eq_ok quiet).mp registers
  have entered : k.registered me lock = table := congrArg Run.state enters
  have registers : (Lock.register lock.id me k.mode.donates k.table).outcome = .ok () :=
    congrArg Run.outcome enters
  obtain ⟨taken, k₂, _, _, downs, run, -⟩ := bind_eq_ok.mp run
  rcases downOrQueue_eq_ok (quiet.setTable table) downs with
    ⟨rfl, permit, rfl⟩ | ⟨rfl, empty, rfl⟩
  · obtain ⟨⟨⟩, k₃, reported, _, claims, run, -⟩ := bind_eq_ok.mp run
    have quietAfter := (quiet.setTable table).setSemaphore lock.semaphore
      ⟨((k.setTable table).semaphore lock.semaphore).count - 1,
        ((k.setTable table).semaphore lock.semaphore).waiters⟩
    obtain ⟨final, claimed, rfl⟩ := (withThreads_eq_ok quietAfter).mp claims
    cases run
    have claims : Lock.claim lock.id me k.mode.donates (k.registered me lock) =
        ⟨.ok (), final, reported⟩ := by
      rw [entered]
      exact claimed
    have reached := Advances.acquires registers permit (congrArg Run.outcome claims)
    rw [claims] at reached
    exact reached
  · cases run
    have reached := Advances.registers registers empty
    rw [entered] at reached
    exact reached

theorem advances_of_up (quiet : k.Quiet) {s : SemaphoreId}
    (run : Frame.advance me (.up s) k = ⟨.ok progress, k', events⟩) :
    Advances me k (.up s) k' progress := by
  simp only [Frame.advance, bind_run, Semaphore.release_run quiet] at run
  by_cases room : (k.semaphore s).count < Semaphore.maxCount
  · rw [if_pos room] at run
    rcases hsort : (Donation.sortByPriority (k.semaphore s).waiters k.table).outcome
      with fault | sorted
    · simp [hsort] at run
    · have sorts : Donation.sortByPriority (k.semaphore s).waiters k.table =
          ⟨.ok sorted, k.table, []⟩ := by
        rw [Donation.inspects_sortByPriority.looks.eq k.table, hsort]
      have order := Donation.sortByPriority_eq_ok sorts
      rw [hsort] at run
      cases sorted with
      | nil =>
        have perm := Donation.sortedByRank_perm k.table (k.semaphore s).waiters
        rw [← order] at perm
        cases run
        exact .raises room (List.nil_perm.mp perm)
      | cons woken rest =>
        cases run
        exact .wakes room order.symm
  · rw [if_neg room] at run
    simp at run

theorem advances_of_signalOne (quiet : k.Quiet) {c : CondvarId} {next : List Frame}
    (run : Frame.signalOne c next k = ⟨.ok progress, k', events⟩) :
    k.waiters c = [] ∧ k' = k ∧ progress = ⟨[], .proceed⟩ ∨
      ∃ first rest, Condvar.sortedByRank k.table (k.waiters c) = first :: rest ∧
        k' = k.setWaiters c rest ∧ progress = ⟨.up first.semaphore :: next, .proceed⟩ := by
  simp only [Frame.signalOne, bind_run, Condvar.takeMostUrgent_run quiet] at run
  rcases hsort : (Condvar.sortByPriority (k.waiters c) k.table).outcome with fault | sorted
  · simp [hsort] at run
  · have sorts : Condvar.sortByPriority (k.waiters c) k.table = ⟨.ok sorted, k.table, []⟩ := by
      rw [(Condvar.inspects_sortByPriority _).looks.eq k.table, hsort]
    have order := Condvar.sortByPriority_eq_ok sorts
    rw [hsort] at run
    cases sorted with
    | nil =>
      have perm := Condvar.sortedByRank_perm k.table (k.waiters c)
      rw [← order] at perm
      cases run
      exact Or.inl ⟨List.nil_perm.mp perm, rfl, rfl⟩
    | cons first rest =>
      cases run
      exact Or.inr ⟨first, rest, order.symm, rfl, rfl⟩

/-- The list of what a stretch can do is complete. -/
theorem advances_of_ok (quiet : k.Quiet) {frame : Frame}
    (run : frame.advance me k = ⟨.ok progress, k', events⟩) :
    Advances me k frame k' progress := by
  cases frame with
  | call call => exact advances_of_begin quiet run
  | down s => exact advances_of_down quiet run
  | downQueued s =>
    cases run
    exact .retries
  | acquire lock => exact advances_of_acquire quiet run
  | acquireQueued lock =>
    cases run
    exact .reacquires
  | up s => exact advances_of_up quiet run
  | check =>
    cases run
    exact .checks
  | giveUp lock =>
    obtain ⟨donates, k₀, _, _, reads, run, -⟩ := bind_eq_ok.mp run
    cases reads
    obtain ⟨⟨⟩, k₁, reported, _, gives, run, -⟩ := bind_eq_ok.mp run
    obtain ⟨table, given, rfl⟩ := (withThreads_eq_ok quiet).mp gives
    have gives' : Lock.giveUp lock.id me k.mode.donates k.table = ⟨.ok (), table, reported⟩ := given
    have reached := Advances.givesUp (by rw [gives'])
    rw [gives'] at reached
    cases run
    exact reached
  | claim purpose lock =>
    simp only [Frame.advance, bind_run, Condvar.requireHolds_run quiet.threads] at run
    by_cases held : k.table.holder? lock.id = some me
    · rw [if_pos held] at run
      cases run
      exact .holds held
    · rw [if_neg held] at run
      simp at run
  | signal c =>
    rcases advances_of_signalOne quiet run with ⟨nobody, rfl, rfl⟩ | ⟨first, rest, sorted, rfl, rfl⟩
    · exact .signalsNobody nobody
    · exact .signals sorted
  | broadcast c =>
    rcases advances_of_signalOne quiet run with ⟨nobody, rfl, rfl⟩ | ⟨first, rest, sorted, rfl, rfl⟩
    · exact .broadcastsNobody nobody
    · exact .broadcasts sorted
  | signaled lock =>
    cases run
    exact .returns
  | leave saved =>
    cases run
    exact .leaves

/-- A stretch ends with no access in progress. -/
theorem Advances.quiet {frame : Frame} (advances : Advances me k frame k' progress)
    (quiet : k.Quiet) : k'.Quiet := by
  cases advances with
  | opens => exact quiet.withDepth _
  | waits => exact (quiet.addSemaphore 0).setWaiters _ _
  | takes => exact quiet.setSemaphore _ _
  | queues => exact quiet.setSemaphore _ _
  | retries => exact quiet
  | acquires => exact (quiet.setSemaphore _ _).setTable _
  | registers => exact (quiet.setTable _).setSemaphore _ _
  | reacquires => exact quiet
  | raises => exact quiet.setSemaphore _ _
  | wakes => exact quiet.setSemaphore _ _
  | checks => exact quiet
  | givesUp => exact quiet.setTable _
  | holds => exact quiet
  | signalsNobody => exact quiet
  | signals => exact quiet.setWaiters _ _
  | broadcastsNobody => exact quiet
  | broadcasts => exact quiet.setWaiters _ _
  | returns => exact quiet
  | leaves => exact quiet.withDepth _

theorem Advances.mode {frame : Frame} (advances : Advances me k frame k' progress) :
    k'.mode = k.mode := by
  cases advances <;> rfl

theorem Advances.inInterrupt {frame : Frame} (advances : Advances me k frame k' progress) :
    k'.inInterrupt = k.inInterrupt := by
  cases advances <;> rfl

/-- A call goes on with the frames that an advance gives, in front of those that were waiting. -/
theorem step_eq_ok {frame : Frame} {frames : List Frame}
    (run : Frame.step me (frame :: frames) k = ⟨.ok progress, k', events⟩) :
    ∃ advance, frame.advance me k = ⟨.ok advance, k', events⟩ ∧
      progress = { advance with frames := advance.frames ++ frames } := by
  unfold Frame.step at run
  obtain ⟨advance, mid, before, after, guarded, rest, rfl⟩ := bind_eq_ok.mp run
  cases rest
  exact ⟨advance, by rw [List.append_nil, onFault_eq_ok guarded], rfl⟩

/-- The scheduler is asked for a check at a check, and only there. -/
theorem Advances.request_eq_check {frame : Frame} (advances : Advances me k frame k' progress) :
    progress.request = .check ↔ frame = .check := by
  cases advances <;> simp

theorem Advances.eq_of_check {frame : Frame} (advances : Advances me k frame k' progress)
    (asks : progress.request = .check) : k' = k := by
  cases advances with
  | checks => rfl
  | opens | waits | takes | queues | retries | acquires | registers | reacquires | raises | wakes
  | givesUp | holds | signalsNobody | signals | broadcastsNobody | broadcasts | returns | leaves =>
    exact nomatch asks

/-- No stretch makes a condition variable. -/
theorem Advances.condvars_length {me : ThreadId} {k k' : Kernel} {frame : Frame}
    {progress : Progress} (advances : Advances me k frame k' progress) :
    k'.condvars.length = k.condvars.length := by
  cases advances with
  | waits | signals | broadcasts => exact List.length_modify ..
  | _ => rfl

end KernelSync
