import KernelSync.Handle
import KernelSync.Priority

/-!
Faults: the ways in which a computation is cut short. A fault carries what went wrong and nothing
about the wording, which `Fault.message` alone decides. A full thread table is no fault: it is the
ordinary answer `Exhausted`.
-/

namespace KernelSync

/-- Something that only one computation at a time may access. -/
inductive CellId where
  | threads
  | semaphore (s : SemaphoreId)
  | condvar (c : CondvarId)
  | data (index : Nat)
  deriving DecidableEq, Repr

/-- The calls that may wait, and so may not be made by an interrupt handler. -/
inductive WaitingCall where
  | down
  | acquire
  | wait
  deriving DecidableEq, Repr

/-- The calls on a condition variable, all of which need the lock. -/
inductive CondvarCall where
  | wait
  | signal
  | broadcast
  deriving DecidableEq, Repr

/-- The thread table has as many threads as it may have. -/
structure Exhausted where
  capacity : Nat
  deriving DecidableEq, Repr

def Exhausted.message (e : Exhausted) : String :=
  s!"thread table exhausted: all {e.capacity} slots are in use"

/-- Why a computation was cut short. -/
inductive Fault where
  /-- A level above the highest priority. -/
  | priorityTooHigh
  /-- A column that measures more characters than a column may. -/
  | columnTooWide
  /-- A capacity that 32-bit slots cannot number. -/
  | tableTooLarge
  /-- The thread of the handle is gone, or never was. -/
  | staleHandle (thread : ThreadId)
  /-- A slot on the free list has a thread in it. -/
  | freeSlotOccupied (slot : UInt32)
  | exitHolding (thread : ThreadId) (name : String) (lock : LockId)
  | exitWaiting (thread : ThreadId) (name : String) (lock : LockId)
  /-- The holder waits for its own lock. -/
  | reacquired (thread : ThreadId) (lock : LockId)
  /-- The holder tries its own lock. -/
  | retried (thread : ThreadId) (lock : LockId)
  | notReleasable (thread : ThreadId) (lock : LockId) (holder : Option ThreadId)
  | lockNotHeld (call : CondvarCall) (thread : ThreadId) (lock : LockId) (holder : Option ThreadId)
  | handedWhileHeld (lock : LockId) (thread : ThreadId) (holder : ThreadId)
  /-- The wait chain of the donor leads back to it. -/
  | donationCycle (donor : ThreadId) (lock : LockId)
  | waitsInInterrupt (call : WaitingCall)
  /-- A cell is accessed while it is already being accessed. -/
  | overlap (cell : CellId)
  /-- The count of a semaphore has no successor. -/
  | countOverflow
  | alreadyReady (thread : ThreadId)
  | notRunning (running : Option ThreadId) (thread : ThreadId)
  | nestedInterrupt
  | nestedSimulation
  | noSimulatedThread
  | cannotStart (reason : Exhausted)
  /-- A thread that is to run has the null character in its name. -/
  | nullInName (name : String)
  /-- The simulation ended under the thread, for the reason given. -/
  | ended (reason : String)
  /-- An entry of a script names no action. -/
  | unknownAction
  /-- Raised by a program, with a text or with something that has none. -/
  | raised (text : String)
  | raisedWithoutText
  /-- The steps allotted to a run are used up. -/
  | unfinished
  deriving DecidableEq, Repr

/-- The priority of a level, which may be too high. -/
def Priority.ofLevel (level : Nat) : Except Fault Priority :=
  match Priority.ofLevel? level with
  | some priority => .ok priority
  | none => .error .priorityTooHigh

/-- The extent of a size, which may be too large. -/
def Text.Extent.ofSize (size : Nat) : Except Fault Text.Extent :=
  match Text.Extent.ofSize? size with
  | some extent => .ok extent
  | none => .error .columnTooWide

/-! ### Wording -/

def WaitingCall.text : WaitingCall → String
  | down => "Semaphore::down"
  | acquire => "Lock::acquire"
  | wait => "Condvar::wait"

def CondvarCall.text : CondvarCall → String
  | wait => "Condvar::wait"
  | signal => "Condvar::signal"
  | broadcast => "Condvar::broadcast"

/-- The type of what a cell holds. -/
def CellId.contentText : CellId → String
  | threads => "hyphae::thread::Threads"
  | semaphore _ => "hyphae::semaphore::State"
  | condvar _ => "alloc::vec::Vec<hyphae::condvar::Waiter>"
  | data _ => "i64"

/-- The wording of a failed comparison, with both of its sides. -/
def comparisonText (relation text left right : String) : String :=
  "assertion `left " ++ relation ++ " right` failed: " ++ text ++ "\n  left: " ++ left ++
    "\n right: " ++ right

/-- Where the first null byte of a text is, and all of its bytes. -/
def nullByteText (text : String) : String :=
  let bytes := text.toUTF8.data.toList
  let shown := listText (bytes.map toString)
  s!"NulError({bytes.idxOf 0}, {shown})"

/-- The wording of a second acquisition by the holder. -/
def alreadyHeldText (t : ThreadId) (l : LockId) : String :=
  s!"thread {t.debugText} tried to acquire {l.debugText}, which it already holds"

namespace Fault

/-- The text under which a fault is shown. -/
def message : Fault → String
  | priorityTooHigh => "a priority may not be greater than Priority::MAX"
  | columnTooWide => "Formatting argument out of range"
  | tableTooLarge => "a thread table may not hold more than u32::MAX threads"
  | staleHandle t => s!"invalid thread handle {t.debugText}: no such live thread"
  | freeSlotOccupied slot => s!"free slot {slot} is occupied"
  | exitHolding t name l =>
      s!"thread {t.debugText} ({name}) exited while holding Some({l.debugText})"
  | exitWaiting t name l =>
      s!"thread {t.debugText} ({name}) exited while waiting on Some({l.debugText})"
  | reacquired t l =>
      comparisonText "!=" (alreadyHeldText t l) (optionText ThreadId.debugText (some t))
        (optionText ThreadId.debugText (some t))
  | retried t l => alreadyHeldText t l
  | notReleasable t l holder =>
      comparisonText "=="
        s!"thread {t.debugText} tried to release {l.debugText}, which it does not hold"
        (optionText ThreadId.debugText holder) (optionText ThreadId.debugText (some t))
  | lockNotHeld call t l holder =>
      comparisonText "=="
        s!"{call.text} called by thread {t.debugText} without holding {l.debugText}"
        (optionText ThreadId.debugText holder) (optionText ThreadId.debugText (some t))
  | handedWhileHeld l t holder =>
      s!"{l.debugText} handed to {t.debugText} while still held by Some({holder.debugText})"
  | donationCycle donor l =>
      comparisonText "!="
        s!"priority donation cycle: {donor.debugText} is waiting on {l.debugText}, which it holds"
        donor.debugText donor.debugText
  | waitsInInterrupt call =>
      s!"{call.text} may block, and must not be called from interrupt context"
  | overlap cell =>
      s!"SectionCell<{cell.contentText}> accessed while it was already being accessed; " ++
        "synchronization state must not be touched reentrantly"
  | countOverflow => "attempt to add with overflow"
  | alreadyReady t => s!"{t.debugText} unblocked while already ready"
  | notRunning running t =>
      comparisonText "==" "only the running thread may switch"
        (optionText ThreadId.debugText running) (optionText ThreadId.debugText (some t))
  | nestedInterrupt => "simulated interrupts may not nest"
  | nestedSimulation => "a simulation may not be started from inside another simulation"
  | noSimulatedThread => "this OS thread is not running a simulated thread"
  | cannotStart reason => s!"cannot start a simulation: {reason.message}"
  | nullInName name =>
      "thread name may not contain interior null bytes: " ++ nullByteText name
  | ended reason => reason
  | unknownAction => "action"
  | raised text => text
  | raisedWithoutText => "<non-string panic payload>"
  | unfinished => "the steps allotted to the run are used up"

end Fault

end KernelSync
