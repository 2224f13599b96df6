import KernelSync.Lock

/-!
Condition variables. Each wait registers with a semaphore of its own, so a signal reaches exactly
one wait, also when that thread has not yet come to wait on its semaphore.
-/

namespace KernelSync.Condvar

open Kernel

/-- Refuses a caller that does not hold the lock. -/
def requireHolds (call : CondvarCall) (me : ThreadId) (lock : LockId) : Stretch Kernel Unit := do
  let holder ← withThreads (Stretch.read (·.holder? lock))
  Stretch.require (holder = some me) (.lockNotHeld call me lock holder)

/-- Registers the caller with a new semaphore. -/
def register (me : ThreadId) (c : CondvarId) (lock : LockId) : Stretch Kernel SemaphoreId := do
  requireHolds .wait me lock
  let s ← Stretch.read nextSemaphore
  Stretch.update (·.addSemaphore 0)
  accessing (.condvar c) (Stretch.update fun k => k.setWaiters c (k.waiters c ++ [⟨me, s⟩]))
  pure s

/-- The most urgent first, equals in the order they had. -/
def sortedByRank (table : ThreadTable) (list : List Waiter) : List Waiter :=
  list.mergeSort fun v w =>
    decide (Donation.rank table w.thread ≤ Donation.rank table v.thread)

/-- Sorts the registrations of live threads. A list too short to need sorting is not looked at. -/
def sortByPriority (list : List Waiter) : Stretch ThreadTable (List Waiter) := fun table =>
  if list.length < 2 then ⟨.ok list, table, []⟩
  else
    match list.find? fun w => !table.contains w.thread with
    | some w => ⟨.error (.staleHandle w.thread), table, []⟩
    | none => ⟨.ok (sortedByRank table list), table, []⟩

/-- Removes the registration of the most urgent thread. -/
def takeMostUrgent (c : CondvarId) : Stretch Kernel (Option Waiter) :=
  accessing (.condvar c) do
    match ← withThreads (sortByPriority (← Stretch.read (·.waiters c))) with
    | [] => pure none
    | first :: rest =>
        Stretch.update (·.setWaiters c rest)
        pure (some first)

def readWaiterCount (c : CondvarId) : Stretch Kernel Nat :=
  accessing (.condvar c) (Stretch.read fun k => (k.waiters c).length)

/-- The text of a condition variable shows its cell and not what the cell holds. -/
def debugText (cell : Cell (List Waiter)) : String :=
  "Condvar \x7b waiters: " ++ cell.debugText ++ " \x7d"

end KernelSync.Condvar
