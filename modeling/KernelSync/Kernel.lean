import KernelSync.ThreadTable

/-!
The state that the primitives share, and its two protections. An atomic section suspends
preemption: entering saves the depth and adds one, and leaving restores what was saved, also when a
fault cuts the section short. A cell is accessed by one computation at a time: its flag is up
during an access, and an access that finds the flag up is refused.
-/

namespace KernelSync

/-- A value that one computation at a time may access. -/
structure Cell (α : Type) where
  value : α
  /-- Whether an access is in progress. -/
  busy : Bool := false
  deriving DecidableEq, Repr

def Cell.debugText {α : Type} (cell : Cell α) : String :=
  s!"SectionCell \x7b borrowed: {cell.busy}, .. \x7d"

/-- A count of permits and the threads that wait for one. -/
structure Semaphore where
  count : Nat
  waiters : List ThreadId
  deriving DecidableEq, Repr, Inhabited

/-- A mutual-exclusion lock; its semaphore has one permit. -/
structure Lock where
  id : LockId
  semaphore : SemaphoreId
  deriving DecidableEq, Repr

/-- A registration on a condition variable: the thread, and a semaphore that nobody else uses. -/
structure Waiter where
  thread : ThreadId
  semaphore : SemaphoreId
  deriving DecidableEq, Repr

/-- All that the primitives work on. -/
structure Kernel where
  threads : Cell ThreadTable
  semaphores : List (Cell Semaphore)
  condvars : List (Cell (List Waiter))
  /-- Numbers that a nesting program keeps in cells of its own. -/
  data : List (Cell Int64)
  mode : SchedulingMode
  /-- How many atomic sections the running thread is in. -/
  depth : Nat
  /-- Whether the running thread is in an interrupt handler. -/
  inInterrupt : Bool
  deriving DecidableEq, Repr

namespace Kernel

/-! ### Reading and writing -/

def semaphoreCell (k : Kernel) (s : SemaphoreId) : Cell Semaphore :=
  k.semaphores.getD s.index ⟨default, false⟩

def semaphore (k : Kernel) (s : SemaphoreId) : Semaphore := (k.semaphoreCell s).value

def setSemaphore (k : Kernel) (s : SemaphoreId) (value : Semaphore) : Kernel :=
  { k with semaphores := k.semaphores.modify s.index ({ · with value }) }

def condvarCell (k : Kernel) (c : CondvarId) : Cell (List Waiter) :=
  k.condvars.getD c.index ⟨[], false⟩

def waiters (k : Kernel) (c : CondvarId) : List Waiter := (k.condvarCell c).value

def setWaiters (k : Kernel) (c : CondvarId) (value : List Waiter) : Kernel :=
  { k with condvars := k.condvars.modify c.index ({ · with value }) }

def dataCell (k : Kernel) (index : Nat) : Cell Int64 := k.data.getD index ⟨0, false⟩

def setData (k : Kernel) (index : Nat) (value : Int64) : Kernel :=
  { k with data := k.data.modify index ({ · with value }) }

def table (k : Kernel) : ThreadTable := k.threads.value

def setTable (table : ThreadTable) (k : Kernel) : Kernel :=
  { k with threads := { k.threads with value := table } }

/-- The name of the next semaphore to be added. -/
def nextSemaphore (k : Kernel) : SemaphoreId := ⟨k.semaphores.length⟩

/-- Adds a semaphore on which nobody waits. -/
def addSemaphore (k : Kernel) (count : Nat) : Kernel :=
  { k with semaphores := k.semaphores ++ [⟨⟨count, []⟩, false⟩] }

/-! ### Atomic sections -/

/-- Enters an atomic section and gives the depth to restore. -/
def enter : Stretch Kernel Nat := do
  let depth ← Stretch.read (·.depth)
  Stretch.update ({ · with depth := depth + 1 })
  Stretch.report (.entered depth)
  pure depth

/-- Leaves an atomic section. -/
def leave (saved : Nat) : Stretch Kernel Unit := do
  let depth ← Stretch.read (·.depth)
  Stretch.update ({ · with depth := saved })
  Stretch.report (.left depth saved)

/-- Runs `body`, which is told the saved depth, in an atomic section. -/
def inSection {α : Type} (body : Nat → Stretch Kernel α) : Stretch Kernel α := do
  let saved ← enter
  Stretch.ensuring (body saved) (leave saved)

/-! ### Accesses -/

def busy (k : Kernel) : CellId → Bool
  | .threads => k.threads.busy
  | .semaphore s => (k.semaphoreCell s).busy
  | .condvar c => (k.condvarCell c).busy
  | .data i => (k.dataCell i).busy

def setBusy (k : Kernel) (busy : Bool) : CellId → Kernel
  | .threads => { k with threads := { k.threads with busy } }
  | .semaphore s => { k with semaphores := k.semaphores.modify s.index ({ · with busy }) }
  | .condvar c => { k with condvars := k.condvars.modify c.index ({ · with busy }) }
  | .data i => { k with data := k.data.modify i ({ · with busy }) }

/-- Runs `body` as an access to a cell. -/
def accessing {α : Type} (cell : CellId) (body : Stretch Kernel α) : Stretch Kernel α := do
  Stretch.require (¬ (← Stretch.read (·.busy cell))) (.overlap cell)
  Stretch.update (·.setBusy true cell)
  Stretch.ensuring body (Stretch.update (·.setBusy false cell))

/-- Runs a computation on the thread table as an access to it. -/
def withThreads {α : Type} (body : Stretch ThreadTable α) : Stretch Kernel α :=
  accessing .threads (Stretch.within table setTable body)

/-- Refuses a call that may wait to an interrupt handler. -/
def requireCanWait (call : WaitingCall) : Stretch Kernel Unit := do
  Stretch.require (¬ (← Stretch.read (·.inInterrupt))) (.waitsInInterrupt call)

end Kernel

end KernelSync
