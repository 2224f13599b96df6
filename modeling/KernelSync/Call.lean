import KernelSync.Condvar

/-!
Calls of the primitives, step by step. A thread in the middle of a call is described by frames, the
innermost first: each frame is a place in a primitive, and says what is still to be done there.
To advance a frame is to run one stretch. The stretch gives the frames that take its place and says
what the thread asks of the scheduler before they run; between the two, other threads may run.
-/

namespace KernelSync

/-- The calls in whose middle other threads may run. -/
inductive Call where
  | down (s : SemaphoreId)
  | up (s : SemaphoreId)
  | acquire (lock : Lock)
  | release (lock : Lock)
  | wait (c : CondvarId) (lock : Lock)
  | signal (c : CondvarId) (lock : Lock)
  | broadcast (c : CondvarId) (lock : Lock)
  deriving DecidableEq, Repr

/-- Calls whose caller never waits. -/
inductive ShortCall where
  | tryDown (s : SemaphoreId)
  | tryAcquire (lock : Lock)
  | held (lock : Lock)
  deriving DecidableEq, Repr

/-- A place in the primitives. -/
inductive Frame where
  /-- The call is about to be made. -/
  | call (call : Call)
  /-- About to take a permit, or to queue for one. -/
  | down (s : SemaphoreId)
  /-- Queued for a permit, or woken from the queue. -/
  | downQueued (s : SemaphoreId)
  /-- About to register for the lock and to take it, or to queue for it. -/
  | acquire (lock : Lock)
  /-- Queued for the lock, or woken from the queue. -/
  | acquireQueued (lock : Lock)
  /-- About to add a permit. -/
  | up (s : SemaphoreId)
  /-- About to ask whether a more urgent thread should run. -/
  | check
  /-- About to give up the lock. -/
  | giveUp (lock : Lock)
  /-- About to make sure that the caller holds the lock. -/
  | claim (call : CondvarCall) (lock : Lock)
  /-- About to signal one waiter. -/
  | signal (c : CondvarId)
  /-- About to signal waiters until there is none. -/
  | broadcast (c : CondvarId)
  /-- Past the semaphore of a wait, about to acquire the lock again. -/
  | signaled (lock : Lock)
  /-- About to leave an atomic section. -/
  | leave (saved : Nat)
  deriving DecidableEq, Repr

/-- What a thread asks of the scheduler. -/
inductive Request where
  | proceed
  /-- Not to run again before it has been unblocked. -/
  | block
  /-- To make another thread ready. -/
  | unblock (thread : ThreadId)
  /-- To let a more urgent ready thread run first. -/
  | check
  deriving DecidableEq, Repr

/-- How far a stretch has brought the call. -/
structure Progress where
  frames : List Frame
  request : Request := .proceed
  deriving DecidableEq, Repr

namespace Frame

open Kernel

/-- What follows when a permit has been added: the waiter that it frees is unblocked before the
check. -/
def afterRelease : Option ThreadId → Stretch Kernel Progress
  | some woken => do
      Stretch.log (.upWakes woken)
      return ⟨[.check], .unblock woken⟩
  | none => return ⟨[.check], .proceed⟩

/-- Signals the most urgent waiter, and goes on with `next` if there was one. -/
def signalOne (c : CondvarId) (next : List Frame) : Stretch Kernel Progress := do
  match ← Condvar.takeMostUrgent c with
  | some waiter =>
      Stretch.log (.signalWakes waiter.thread)
      return ⟨.up waiter.semaphore :: next, .proceed⟩
  | none => return ⟨[], .proceed⟩

/-- How a call begins: with the refusals that come before its section, and the section. -/
def begin (me : ThreadId) : Call → Stretch Kernel Progress
  | .down s => do
      requireCanWait .down
      return ⟨[.down s, .leave (← enter)], .proceed⟩
  | .up s => do return ⟨[.up s, .leave (← enter)], .proceed⟩
  | .acquire lock => do
      requireCanWait .acquire
      return ⟨[.acquire lock, .leave (← enter)], .proceed⟩
  | .release lock => do return ⟨[.giveUp lock, .leave (← enter)], .proceed⟩
  | .wait c lock => do
      requireCanWait .wait
      let s ← inSection fun _ => Condvar.register me c lock.id
      Stretch.log (.waitBegins me lock.id)
      return ⟨[.call (.release lock), .call (.down s), .signaled lock], .proceed⟩
  | .signal c lock => do return ⟨[.claim .signal lock, .signal c, .leave (← enter)], .proceed⟩
  | .broadcast c lock => do
      return ⟨[.claim .broadcast lock, .broadcast c, .leave (← enter)], .proceed⟩

/-- Runs the stretch that begins at a place. -/
def advance (me : ThreadId) : Frame → Stretch Kernel Progress
  | .call made => begin me made
  | .down s => do
      if ← Semaphore.downOrQueue me s then return ⟨[], .proceed⟩
      else
        Stretch.log (.downBlocks me)
        return ⟨[.downQueued s], .block⟩
  | .downQueued s => do
      Stretch.log (.downWoken me)
      return ⟨[.down s], .proceed⟩
  | .acquire lock => do
      let donates ← Stretch.read (·.mode.donates)
      withThreads (Lock.register lock.id me donates)
      if ← Semaphore.downOrQueue me lock.semaphore then
        withThreads do
          ThreadTable.setWaitingOn me none
          Lock.takeOwnership lock.id me donates
        Stretch.log (.acquired me lock.id)
        return ⟨[], .proceed⟩
      else
        Stretch.log (.downBlocks me)
        return ⟨[.acquireQueued lock], .block⟩
  | .acquireQueued lock => do
      Stretch.log (.downWoken me)
      return ⟨[.acquire lock], .proceed⟩
  | .up s => do afterRelease (← Semaphore.release s)
  | .check => return ⟨[], .check⟩
  | .giveUp lock => do
      let donates ← Stretch.read (·.mode.donates)
      withThreads (Lock.giveUp lock.id me donates)
      Stretch.log (.released me lock.id)
      return ⟨[.up lock.semaphore], .proceed⟩
  | .claim purpose lock => do
      Condvar.requireHolds purpose me lock.id
      return ⟨[], .proceed⟩
  | .signal c => signalOne c []
  | .broadcast c => signalOne c [.broadcast c]
  | .signaled lock => do
      Stretch.log (.waitSignaled me lock.id)
      return ⟨[.call (.acquire lock)], .proceed⟩
  | .leave saved => do
      Kernel.leave saved
      return ⟨[], .proceed⟩

/-- Leaves the sections of a call that is given up, innermost first. -/
def unwind : List Frame → Stretch Kernel Unit
  | [] => pure ()
  | .leave saved :: frames => do
      Kernel.leave saved
      unwind frames
  | _ :: frames => unwind frames

/-- Advances the innermost frame. A fault ends the whole call. -/
def step (me : ThreadId) : List Frame → Stretch Kernel Progress
  | [] => return ⟨[], .proceed⟩
  | frame :: frames => do
      let progress ← Stretch.onFault (frame.advance me) (unwind frames)
      return { progress with frames := progress.frames ++ frames }

end Frame

namespace Kernel

/-- All registrations on condition variables. -/
def registrations (k : Kernel) : Nat :=
  k.condvars.foldl (fun total cell => total + cell.value.length) 0

/-- More stretches than a call can take before it ends or blocks: a broadcast takes three for each
waiter, and no other frame takes more than eight. -/
def patience (k : Kernel) (frames : List Frame) : Nat :=
  4 * k.registrations + 16 * (frames.length + 1)

end Kernel

namespace Frame

/-- Runs a call under a scheduler that decides nothing, for at most `fuel` stretches. The frames
that are left are those of a thread that is to block. -/
def drive (me : ThreadId) : Nat → List Frame → Stretch Kernel (List Frame)
  | _, [] => pure []
  | 0, _ :: _ => Stretch.fail .unfinished
  | fuel + 1, frames => do
      let progress ← step me frames
      match progress.request with
      | .proceed => drive me fuel progress.frames
      | .block =>
          Stretch.report .block
          pure progress.frames
      | .unblock thread =>
          Stretch.report (.unblock thread)
          drive me fuel progress.frames
      | .check =>
          Stretch.report .check
          drive me fuel progress.frames

/-- Runs a call until it ends or blocks. -/
def run (me : ThreadId) (frames : List Frame) : Stretch Kernel (List Frame) := do
  drive me (← Stretch.read (·.patience frames)) frames

end Frame

namespace ShortCall

open Kernel

def run (me : ThreadId) : ShortCall → Stretch Kernel Bool
  | .tryDown s => inSection fun _ => Semaphore.tryDown s
  | .tryAcquire lock => inSection fun _ => Lock.tryAcquire me lock
  | .held lock => inSection fun _ => return (← Lock.readHolder lock.id) = some me

end ShortCall

end KernelSync
