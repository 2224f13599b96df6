import KernelSync.Reply
import KernelSync.SchedulingMode

/-!
Events: what a computation reports while it runs, in order of occurrence. They are log entries, the
bounds of atomic sections, the calls made on the scheduler, and what the program on top saw or got.
-/

namespace KernelSync

/-- How a thread gives up the processor. -/
inductive Switch where
  | yield
  | block
  | exit
  deriving DecidableEq, Repr

def Switch.text : Switch → String
  | yield => "Yield"
  | block => "Block"
  | exit => "Exit"

inductive LogLevel where
  | trace
  | debug
  | error
  deriving DecidableEq, Repr

def LogLevel.text : LogLevel → String
  | trace => "TRACE"
  | debug => "DEBUG"
  | error => "ERROR"

/-- A log entry of the thread table, of donation, of the primitives or of the simulator. -/
inductive LogEntry where
  | threadAdded (thread : ThreadId) (priority : Priority)
  | threadRemoved (thread : ThreadId)
  | holderMissing (thread : ThreadId) (lock : LockId) (hops : Nat)
  | chainRevisits (donor thread : ThreadId) (lock : LockId) (hops : Nat)
  | donating (giver receiver : ThreadId) (lock : LockId) (priority : Priority)
  | restoring (thread : ThreadId) (before after : Priority)
  | donated (thread holder : ThreadId) (lock : LockId) (hops : Nat)
  | acquired (thread : ThreadId) (lock : LockId)
  | tryRefused (thread : ThreadId) (lock : LockId)
  | tryAcquired (thread : ThreadId) (lock : LockId)
  | donationsWithdrawn (thread : ThreadId) (lock : LockId) (count : Nat) (priority : Priority)
  | released (thread : ThreadId) (lock : LockId)
  | waitersAdopted (thread : ThreadId) (lock : LockId) (count : Nat) (priority : Priority)
  | downBlocks (thread : ThreadId)
  | downWoken (thread : ThreadId)
  | upWakes (thread : ThreadId)
  | waitBegins (thread : ThreadId) (lock : LockId)
  | waitSignaled (thread : ThreadId) (lock : LockId)
  | signalWakes (thread : ThreadId)
  | simulationStarted (mode : SchedulingMode) (capacity : Nat)
  | simulationFinished (ok : Bool)
  | spawned (thread : ThreadId) (name : String) (priority : Priority)
  | prioritySet (thread : ThreadId) (base effective : Priority)
  | exited (thread : ThreadId) (name : String)
  | joining (thread : ThreadId) (name : String)
  | started (thread : ThreadId)
  | blocks (thread : ThreadId)
  | unblocks (thread : ThreadId)
  | preempted (thread : ThreadId)
  | yieldsOnReturn (thread : ThreadId)
  | switches (leaving arriving : ThreadId) (how : Switch)
  | simulationFailed (reason : String)
  | simulationDeadlocked (reason : String)
  | shutdownFailed (reason : String)
  deriving DecidableEq, Repr

namespace LogEntry

def level : LogEntry → LogLevel
  | donating .. | restoring .. | acquired .. | tryAcquired .. | released .. => .debug
  | simulationStarted .. | simulationFinished .. | spawned .. | prioritySet .. | exited .. => .debug
  | chainRevisits .. | simulationFailed .. | simulationDeadlocked .. | shutdownFailed .. => .error
  | _ => .trace

/-- What happened, followed by the fields of the entry. -/
def text : LogEntry → String
  | threadAdded t p => s!"Threads::spawn thread={t.debugText} priority={p.text}"
  | threadRemoved t => s!"Threads::remove thread={t.debugText}"
  | holderMissing t l hops =>
      s!"donate -> lock has no holder thread={t.debugText} lock={l.debugText} hops={hops}"
  | chainRevisits donor t l hops =>
      s!"donate -> wait chain revisits a thread; stopping donor={donor.debugText} " ++
        s!"thread={t.debugText} lock={l.debugText} hops={hops}"
  | donating giver receiver l p =>
      s!"donating priority from={giver.debugText} to={receiver.debugText} lock={l.debugText} " ++
        s!"priority={p.text}"
  | restoring t before after =>
      s!"restoring priority thread={t.debugText} from={before.text} to={after.text}"
  | donated t holder l hops =>
      s!"Lock::acquire -> donated thread={t.debugText} holder={holder.debugText} " ++
        s!"lock={l.debugText} hops={hops}"
  | acquired t l => s!"Lock::acquire -> acquired thread={t.debugText} lock={l.debugText}"
  | tryRefused t l => s!"Lock::try_acquire -> unavailable thread={t.debugText} lock={l.debugText}"
  | tryAcquired t l => s!"Lock::try_acquire -> acquired thread={t.debugText} lock={l.debugText}"
  | donationsWithdrawn t l count p =>
      s!"Lock::release -> updated donation thread={t.debugText} lock={l.debugText} " ++
        s!"withdrawn={count} priority={p.text}"
  | released t l => s!"Lock::release thread={t.debugText} lock={l.debugText}"
  | waitersAdopted t l count p =>
      s!"Lock -> adopted waiters thread={t.debugText} lock={l.debugText} adopted={count} " ++
        s!"priority={p.text}"
  | downBlocks t => s!"Semaphore::down -> blocking thread={t.debugText}"
  | downWoken t => s!"Semaphore::down -> woken thread={t.debugText}"
  | upWakes t => s!"Semaphore::up -> waking thread={t.debugText}"
  | waitBegins t l => s!"Condvar::wait -> waiting thread={t.debugText} lock={l.debugText}"
  | waitSignaled t l => s!"Condvar::wait -> signaled thread={t.debugText} lock={l.debugText}"
  | signalWakes t => s!"Condvar::signal -> waking thread={t.debugText}"
  | simulationStarted mode capacity =>
      s!"simulation started mode={mode.text} capacity={capacity}"
  | simulationFinished ok => s!"simulation finished ok={ok}"
  | spawned t name p => s!"spawned thread={t.debugText} name={name} priority={p.text}"
  | prioritySet t base effective =>
      s!"set priority thread={t.debugText} base={base.text} effective={effective.text}"
  | exited t name => s!"exited thread={t.debugText} name={Text.quoted name}"
  | joining t name => s!"join thread={t.debugText} name={name}"
  | started t => s!"started thread={t.debugText}"
  | blocks t => s!"block thread={t.debugText}"
  | unblocks t => s!"unblock thread={t.debugText}"
  | preempted t => s!"preempted thread={t.debugText}"
  | yieldsOnReturn t => s!"yielding on interrupt return thread={t.debugText}"
  | switches leaving arriving how =>
      s!"switch from={leaving.debugText} to={arriving.debugText} how={how.text}"
  | simulationFailed reason => s!"simulation failed failure={reason}"
  | simulationDeadlocked reason => s!"simulation deadlocked failure={reason}"
  | shutdownFailed reason => s!"simulation failed during shutdown failure={reason}"

/-- The line under which the entry is logged. -/
def line (entry : LogEntry) : String := entry.level.text ++ " " ++ entry.text

end LogEntry

/-- What a nesting program saw when it looked. -/
inductive Observation where
  | depth (depth : Nat)
  | cell (index : Nat) (value : Int64)
  | threads (live : Nat)
  | caught (message : String)
  | holder (holder : Option ThreadId)
  | tryDown (taken : Bool)
  | count (count waiters : Nat)
  | waiters (count : Nat)
  | shown (text : String)
  | same (same : Bool)
  deriving DecidableEq, Repr

/-- What a computation reports. -/
inductive Event where
  | log (entry : LogEntry)
  /-- An atomic section began at this depth. -/
  | entered (depth : Nat)
  /-- An atomic section ended at depth `before`, and restored the depth it had saved. -/
  | left (before saved : Nat)
  /-- The scheduler is told that the caller cannot go on. -/
  | block
  /-- The scheduler is told that a thread can go on. -/
  | unblock (thread : ThreadId)
  /-- The scheduler is asked whether a more urgent thread should run. -/
  | check
  | saw (what : Observation)
  /-- An action of a simulated thread is over; the priority is its own at that moment. -/
  | acted (thread action : String) (reply : Reply) (priority : Priority)
  deriving DecidableEq, Repr

end KernelSync
