import KernelSync.Donation
import KernelSync.Kernel

/-!
Counting semaphores whose waiters are woken in order of priority. Priorities may change while
threads wait, so the order is made anew at each wake.
-/

namespace KernelSync.Semaphore

open Kernel

/-- The largest count. -/
def maxCount : Nat := 0xFFFFFFFFFFFFFFFF

/-- Takes a permit if there is one. -/
def tryDown (s : SemaphoreId) : Stretch Kernel Bool :=
  accessing (.semaphore s) do
    let state ← Stretch.read (·.semaphore s)
    if 0 < state.count then
      Stretch.update (·.setSemaphore s { state with count := state.count - 1 })
      pure true
    else pure false

/-- Takes a permit if there is one; else the caller joins the waiters. -/
def downOrQueue (me : ThreadId) (s : SemaphoreId) : Stretch Kernel Bool :=
  accessing (.semaphore s) do
    let state ← Stretch.read (·.semaphore s)
    if 0 < state.count then
      Stretch.update (·.setSemaphore s { state with count := state.count - 1 })
      pure true
    else
      let waiters ← withThreads (Donation.insertByPriority me state.waiters)
      Stretch.update (·.setSemaphore s { state with waiters })
      pure false

/-- Adds a permit and gives the most urgent waiter, which waits no longer. -/
def release (s : SemaphoreId) : Stretch Kernel (Option ThreadId) :=
  accessing (.semaphore s) do
    let state ← Stretch.read (·.semaphore s)
    Stretch.require (state.count < maxCount) .countOverflow
    let state := { state with count := state.count + 1 }
    Stretch.update (·.setSemaphore s state)
    if state.waiters.isEmpty then pure none
    else
      match ← withThreads (Donation.sortByPriority state.waiters) with
      | [] => pure none
      | woken :: waiters =>
          Stretch.update (·.setSemaphore s { state with waiters })
          pure (some woken)

def readCount (s : SemaphoreId) : Stretch Kernel Nat :=
  accessing (.semaphore s) (Stretch.read fun k => (k.semaphore s).count)

def readWaiterCount (s : SemaphoreId) : Stretch Kernel Nat :=
  accessing (.semaphore s) (Stretch.read fun k => (k.semaphore s).waiters.length)

/-- The text of a semaphore shows its cell and not what the cell holds. -/
def debugText (cell : Cell Semaphore) : String :=
  "Semaphore \x7b state: " ++ cell.debugText ++ " \x7d"

end KernelSync.Semaphore
