import KernelSync.Call

/-!
Machines: the primitives under a scheduler that decides nothing. The input says which thread takes
each step. A thread that blocks stays where it is; to unblock it marks it ready, and it goes on
when the input resumes it. Threads are named by the order of their creation, also after they are
gone.
-/

namespace KernelSync

/-- A thread that was created at some time. -/
structure Task where
  thread : ThreadId
  /-- What is left of the call in which the thread is blocked; empty between calls. -/
  frames : List Frame := []
  ready : Bool := false
  /-- How many atomic sections the thread is in. -/
  depth : Nat := 0
  deriving DecidableEq, Repr

/-- The shared state and the threads that take turns on it. -/
structure Machine where
  kernel : Kernel
  /-- How many semaphores stand alone; those of the locks come after them. -/
  standalone : Nat
  locks : Nat
  /-- In order of creation. -/
  tasks : List Task
  deriving DecidableEq, Repr

/-- Requests to the thread table and to donation. Priorities are levels yet to be checked. -/
inductive TableRequest where
  | remove (t : ThreadId)
  | get (t : ThreadId)
  | index (t : ThreadId)
  | nameSize (t : ThreadId)
  | contains (t : ThreadId)
  | priority (t : ThreadId)
  | basePriority (t : ThreadId)
  | waitingOn (t : ThreadId)
  | donors (t : ThreadId)
  | setEffective (t : ThreadId) (level : Nat)
  | holderOf (lock : LockId)
  | heldBy (t : ThreadId)
  | size
  | ids
  | sort (list : List ThreadId)
  | insert (list : List ThreadId) (t : ThreadId)
  | addDonor (t donor : ThreadId)
  | removeDonors (t : ThreadId) (lock : LockId)
  | adopt (t : ThreadId) (lock : LockId)
  | donate (t : ThreadId)
  | update (t : ThreadId)
  | setBase (t : ThreadId) (level : Nat) (mode : SchedulingMode)
  | showRecord (t : ThreadId)
  deriving DecidableEq, Repr

/-- One step of a machine, threads being named by their place in the order of creation. -/
inductive Step where
  | call (thread : Nat) (call : Call)
  | short (thread : Nat) (call : ShortCall)
  | resume (thread : Nat)
  | spawn (name : String) (level : Nat)
  | table (request : TableRequest)
  /-- Sets whether threads are in interrupt context. -/
  | interrupt (on : Bool)
  | compareThreads (t u : ThreadId)
  | compareLocks (l m : LockId)
  | showThread (t : ThreadId)
  | showLock (lock : Lock)
  | showSemaphore (s : SemaphoreId)
  | showCondvar (c : CondvarId)
  deriving DecidableEq, Repr

/-! ### Requests that do not concern a call -/

namespace TableRequest

open ThreadTable

/-- Answers a request. -/
def run : TableRequest → Stretch ThreadTable Reply
  | .remove t => do return .record (← ThreadTable.remove t)
  | .get t => do return .found (← Stretch.read (·.get? t))
  | .index t => do return .record (← record t)
  | .nameSize t => do return .number (← record t).name.utf8ByteSize
  | .contains t => do return .flag (← Stretch.read (·.contains t))
  | .priority t => do return .priority (← ThreadTable.priority t)
  | .basePriority t => do return .priority (← ThreadTable.basePriority t)
  | .waitingOn t => do return .awaited (← ThreadTable.waitingOn t)
  | .donors t => do return .threads (← ThreadTable.donors t)
  | .setEffective t level => do
      setPriority t (← Stretch.ofExcept (Priority.ofLevel level))
      return .done
  | .holderOf lock => do return .holder (← Stretch.read (·.holder? lock))
  | .heldBy t => do return .locks (← Stretch.read (·.holdings.heldBy t))
  | .size => Stretch.read fun table => .size table.live (table.live == 0) table.capacity
  | .ids => do return .threads (← Stretch.read (·.ids))
  | .sort list => do return .threads (← Donation.sortByPriority list)
  | .insert list t => do return .threads (← Donation.insertByPriority t list)
  | .addDonor t donor => do
      Donation.addDonor t donor
      return .done
  | .removeDonors t lock => do return .number (← Donation.removeDonorsFor t lock)
  | .adopt t lock => do return .number (← Donation.adoptWaiters t lock)
  | .donate t => do return .number (← Donation.donate t)
  | .update t => do return .priority (← Donation.updateDonation t)
  | .setBase t level mode => do
      let priority ← Stretch.ofExcept (Priority.ofLevel level)
      return .priority (← Donation.changeBasePriority t priority mode)
  | .showRecord t => do return .text (← record t).debugText

end TableRequest

namespace Machine

/-- A machine without threads. -/
def start (capacity : Nat) (mode : SchedulingMode) (counts : List Nat) (locks condvars : Nat) :
    Except Fault Machine := do
  let table ← ThreadTable.ofCapacity capacity
  return {
    kernel := {
      threads := ⟨table, false⟩
      semaphores := (counts ++ List.replicate locks 1).map fun count => ⟨⟨count, []⟩, false⟩
      condvars := List.replicate condvars ⟨[], false⟩
      data := []
      mode
      depth := 0
      inInterrupt := false }
    standalone := counts.length
    locks
    tasks := [] }

/-! ### Names -/

/-- The lock at a place among the locks. -/
def lock (m : Machine) (index : Nat) : Lock := ⟨⟨index + 1⟩, ⟨m.standalone + index⟩⟩

/-- The handle of the thread at a place in the order of creation. -/
def handle (m : Machine) (index : Nat) : ThreadId :=
  match m.tasks[index]? with
  | some task => task.thread
  | none => .unissued

/-! ### Steps -/

/-- Marks a thread ready. -/
def markReady (tasks : List Task) (thread : ThreadId) : List Task :=
  tasks.map fun task => if task.thread = thread then { task with ready := true } else task

/-- The marks that the reported events call for. -/
def markAll (tasks : List Task) : List Event → List Task
  | [] => tasks
  | .unblock thread :: events => markAll (markReady tasks thread) events
  | _ :: events => markAll tasks events

/-- Lets a thread run frames until its call ends or blocks. -/
def runFrames (m : Machine) (index : Nat) (task : Task) (frames : List Frame) :
    Machine × Reply × List Event :=
  let run := Frame.run task.thread frames { m.kernel with depth := task.depth }
  let tasks := markAll m.tasks run.events
  let (left, reply) : List Frame × Reply := match run.outcome with
    | .ok [] => ([], .done)
    | .ok left => (left, .blocked)
    | .error fault => ([], .fault fault)
  ({ m with
      kernel := { run.state with depth := 0 }
      tasks := tasks.modify index ({ · with frames := left, depth := run.state.depth }) },
    reply, run.events)

/-- Runs a computation on the machine's kernel between calls. -/
def runStretch (m : Machine) (x : Stretch Kernel Reply) : Machine × Reply × List Event :=
  let run := x m.kernel
  let reply := match run.outcome with
    | .ok reply => reply
    | .error fault => .fault fault
  ({ m with kernel := run.state }, reply, run.events)

/-- Creates a thread, which gets the next name. -/
def spawn (m : Machine) (name : String) (level : Nat) : Machine × Reply × List Event :=
  let run := Stretch.within Kernel.table Kernel.setTable
    (do ThreadTable.spawn name (← Stretch.ofExcept (Priority.ofLevel level))) m.kernel
  let m := { m with kernel := run.state }
  match run.outcome with
  | .ok (.ok id) => ({ m with tasks := m.tasks ++ [{ thread := id }] }, .thread id, run.events)
  | .ok (.error reason) => (m, .exhausted reason, run.events)
  | .error fault => (m, .fault fault, run.events)

/-- The texts of a handle. -/
def handleReply (t : ThreadId) : Reply :=
  .handle t.slot.toNat [t.slotText, t.debugText, t.slotText]

/-- Takes one step; gives the machine after it, the reply and what was reported on the way. -/
def step (m : Machine) : Step → Machine × Reply × List Event
  | .call index call =>
      match m.tasks[index]? with
      | none => (m, .unknown, [])
      | some task =>
          if task.frames.isEmpty then m.runFrames index task [.call call] else (m, .busy, [])
  | .short index call =>
      match m.tasks[index]? with
      | none => (m, .unknown, [])
      | some task =>
          if task.frames.isEmpty then
            m.runStretch do return .flag (← call.run task.thread)
          else (m, .busy, [])
  | .resume index =>
      match m.tasks[index]? with
      | none => (m, .unknown, [])
      | some task =>
          if !task.frames.isEmpty && task.ready then
            { m with tasks := m.tasks.modify index ({ · with ready := false }) }.runFrames
              index task task.frames
          else (m, .notReady, [])
  | .spawn name level => m.spawn name level
  | .table request => m.runStretch (Stretch.within Kernel.table Kernel.setTable request.run)
  | .interrupt on =>
      ({ m with kernel := { m.kernel with inInterrupt := on } }, .flag m.kernel.inInterrupt, [])
  | .compareThreads t u => (m, .comparison (t.compare u) (t = u), [])
  | .compareLocks l l' => (m, .comparison (l.compare l') (l = l'), [])
  | .showThread t => (m, handleReply t, [])
  | .showLock lock =>
      (m, .texts [lock.id.text, lock.id.debugText, Lock.debugText lock m.kernel], [])
  | .showSemaphore s => (m, .text (Semaphore.debugText (m.kernel.semaphoreCell s)), [])
  | .showCondvar c => (m, .text (Condvar.debugText (m.kernel.condvarCell c)), [])

/-! ### The state as it shows -/

/-- The holder of each lock. -/
def holders (m : Machine) : List (Option ThreadId) :=
  (List.range m.locks).map fun index => m.kernel.table.holder? (m.lock index).id

/-- The count and the number of waiters of each semaphore that stands alone. -/
def permits (m : Machine) : List (Nat × Nat) :=
  (m.kernel.semaphores.take m.standalone).map fun cell =>
    (cell.value.count, cell.value.waiters.length)

/-- The number of registrations on each condition variable. -/
def registered (m : Machine) : List Nat := m.kernel.condvars.map fun cell => cell.value.length

end Machine

end KernelSync
