import KernelSync.Semaphore

/-!
Locks. Who holds a lock is recorded in the thread table, and whether it can be taken in its
semaphore. A thread that waits is a donor of the holder, and registers again with each holder it
loses the race to.
-/

namespace KernelSync.Lock

open ThreadTable

/-- Registers the caller with the holder, if there is one. -/
def register (lock : LockId) (me : ThreadId) (donates : Bool) : Stretch ThreadTable Unit := do
  match ← Stretch.read (·.holder? lock) with
  | none => pure ()
  | some holder =>
      Stretch.require (holder ≠ me) (.reacquired me lock)
      setWaitingOn me (some lock)
      Donation.addDonor holder me
      if donates then
        let hops ← Donation.donate me
        Stretch.log (.donated me holder lock hops)

/-- Makes the caller the holder; the threads that still wait become its donors. -/
def takeOwnership (lock : LockId) (me : ThreadId) (donates : Bool) : Stretch ThreadTable Unit := do
  setHolder lock me
  let adopted ← Donation.adoptWaiters me lock
  if 0 < adopted ∧ donates then
    let priority ← Donation.updateDonation me
    Stretch.log (.waitersAdopted me lock adopted priority)

/-- Ends the caller's ownership, and withdraws the donations made through this lock. -/
def giveUp (lock : LockId) (me : ThreadId) (donates : Bool) : Stretch ThreadTable Unit := do
  let holder ← Stretch.read (·.holder? lock)
  Stretch.require (holder = some me) (.notReleasable me lock holder)
  let withdrawn ← Donation.removeDonorsFor me lock
  if donates then
    let priority ← Donation.updateDonation me
    Stretch.log (.donationsWithdrawn me lock withdrawn priority)
  clearHolder lock

/-- Takes the lock if it is free. -/
def tryAcquire (me : ThreadId) (lock : Lock) : Stretch Kernel Bool := do
  let holder ← Kernel.withThreads (Stretch.read (·.holder? lock.id))
  Stretch.require (holder ≠ some me) (.retried me lock.id)
  if ← Semaphore.tryDown lock.semaphore then
    let donates ← Stretch.read (·.mode.donates)
    Kernel.withThreads (takeOwnership lock.id me donates)
    Stretch.log (.tryAcquired me lock.id)
    pure true
  else
    Stretch.log (.tryRefused me lock.id)
    pure false

def readHolder (lock : LockId) : Stretch Kernel (Option ThreadId) :=
  Kernel.withThreads (Stretch.read (·.holder? lock))

/-- The text of a lock with its semaphore. -/
def debugText (lock : Lock) (k : Kernel) : String :=
  "Lock \x7b id: " ++ lock.id.debugText ++ ", semaphore: " ++
    Semaphore.debugText (k.semaphoreCell lock.semaphore) ++ " \x7d"

end KernelSync.Lock
