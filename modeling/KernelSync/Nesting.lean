import KernelSync.Call

/-!
Nesting programs: sections, accesses, calls, faults and catches, nested in any way. They show that
whatever a body has entered it leaves, innermost first, whether it ends or is cut short.
-/

namespace KernelSync

/-- One act of a nesting program, run with one lock, one semaphore and one condition variable. -/
inductive Act where
  /-- Runs the body in an atomic section. -/
  | scope (body : List Act)
  /-- Adds to a number and runs the body, all during one access to its cell. -/
  | access (cell : Nat) (amount : Int64) (body : List Act)
  /-- Counts the live threads and runs the body, all during one access to the thread table. -/
  | accessThreads (body : List Act)
  /-- Runs the body, and goes on after a fault in it. -/
  | attempt (body : List Act)
  | raise (text : String)
  | depth
  | holder
  | up
  | tryDown
  | count
  | waiters
  | showSection
  | showCell (cell : Nat)
  | showSemaphore
  /-- Compares the scheduler with that of the innermost section. -/
  | same
  deriving Inhabited

namespace Nesting

open Kernel

/-- The semaphore that stands alone, the lock and the condition variable of a program. -/
def semaphore : SemaphoreId := ⟨0⟩

def lock : Lock := ⟨⟨1⟩, ⟨1⟩⟩

def condvar : CondvarId := ⟨0⟩

/-- The thread that runs the program. -/
def runner : ThreadId := ⟨0, 0⟩

def see (what : Observation) : Stretch Kernel Unit := Stretch.report (.saw what)

def sectionText (saved : Nat) : String := s!"AtomicSection \x7b saved: {saved}, .. \x7d"

mutual

/-- Runs one act; `saved` is the depth that the innermost section around it will restore. -/
def exec (saved : Option Nat) : Act → Stretch Kernel Unit
  | .scope body => inSection fun depth => execAll (some depth) body
  | .access index amount body =>
      accessing (.data index) do
        let value ← Stretch.read fun k => (k.dataCell index).value + amount
        Stretch.update (·.setData index value)
        see (.cell index value)
        execAll saved body
  | .accessThreads body =>
      accessing .threads do
        see (.threads (← Stretch.read (·.table.live)))
        execAll saved body
  | .attempt body => do
      match ← Stretch.catching (execAll saved body) with
      | .ok () => pure ()
      | .error fault => see (.caught fault.message)
  | .raise text => Stretch.fail (.raised text)
  | .depth => do see (.depth (← Stretch.read (·.depth)))
  | .holder => do see (.holder (← inSection fun _ => Lock.readHolder lock.id))
  | .up => do
      let _ ← Frame.run runner [.call (.up semaphore)]
  | .tryDown => do see (.tryDown (← inSection fun _ => Semaphore.tryDown semaphore))
  | .count => do
      let count ← inSection fun _ => Semaphore.readCount semaphore
      let waiters ← inSection fun _ => Semaphore.readWaiterCount semaphore
      see (.count count waiters)
  | .waiters => do see (.waiters (← inSection fun _ => Condvar.readWaiterCount condvar))
  | .showSection =>
      match saved with
      | some depth => see (.shown (sectionText depth))
      | none => pure ()
  | .showCell index => do see (.shown (← Stretch.read fun k => (k.dataCell index).debugText))
  | .showSemaphore => do
      see (.shown (← Stretch.read fun k => Semaphore.debugText (k.semaphoreCell semaphore)))
  | .same => see (.same true)

/-- Runs acts in order. -/
def execAll (saved : Option Nat) : List Act → Stretch Kernel Unit
  | [] => pure ()
  | act :: acts => do
      exec saved act
      execAll saved acts

end

/-- The thread table of a program: up to four threads, of which those that do not fit are
refused. -/
def tableOf : Nat → ThreadTable
  | 0 => .empty 4
  | n + 1 => (ThreadTable.spawn "thread" .standard (tableOf n)).state

/-- The state in which a program begins. -/
def start (threads : Nat) (numbers : List Int64) : Kernel where
  threads := ⟨tableOf threads, false⟩
  semaphores := [⟨⟨0, []⟩, false⟩, ⟨⟨1, []⟩, false⟩]
  condvars := [⟨[], false⟩]
  data := numbers.map fun value => ⟨value, false⟩
  mode := .priorityDonation
  depth := 0
  inInterrupt := false

/-- Runs a program from its beginning. -/
def run (threads : Nat) (numbers : List Int64) (body : List Act) : Run Kernel Unit :=
  execAll none body (start threads numbers)

end Nesting

end KernelSync
