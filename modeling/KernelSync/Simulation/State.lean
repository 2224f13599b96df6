import KernelSync.Simulation.Script

/-!
The state of a simulated uniprocessor. Each thread has its own stack: the frames of the primitive
it is calling, if any, and under them what is pending of its script. One thread is current, and
its registers are those of the kernel; the registers of the others are kept with them. The run
queue says which thread is to run, and stops to do so once the simulation has failed.
-/

namespace KernelSync.Simulation

/-- What is pending in a thread's script, innermost first. -/
inductive Pending where
  /-- The thread has yet to run for the first time. -/
  | start
  | actions (actions : List Action)
  | times (count : Nat) (script : List Action)
  | waiting (c : CondvarId) (lock : Lock) (condition : Condition) (waits : Nat)
  /-- An action is over. -/
  | over (action : String) (reply : Reply)
  /-- The thread that was spawned becomes known by its name. -/
  | known (name : String) (thread : ThreadId) (exited : SemaphoreId)
  /-- Faults are caught here. -/
  | attempt
  /-- The handler has returned, or is left by a fault. -/
  | handler (saved : Nat)
  /-- A yield that the handler asked for is due. -/
  | handlerReturned
  | disguise (disguise : Disguise)
  /-- The script of the main thread is at its end. -/
  | returned
  /-- The script of a spawned thread is at its end, and the thread exits. -/
  | finish (exited : SemaphoreId)
  /-- The joiners have been woken, and the thread leaves the table. -/
  | remove (saved : Nat)

/-- What a thread keeps while another one runs. -/
structure Registers where
  depth : Nat := 0
  inInterrupt : Bool := false
  deriving DecidableEq, Repr

/-- A simulated thread. -/
structure SimThread where
  id : ThreadId
  name : String
  call : List Frame := []
  script : List Pending
  registers : Registers := {}
  /-- An interrupt handler has asked for a more urgent thread to run. -/
  yieldOnReturn : Bool := false
  /-- The last answer to a call that does not wait. -/
  last : Bool := false
  /-- The text with which the thread escaped, to be found when it is joined at the end. -/
  escaped : Option String := none

/-- Why a simulation failed. -/
inductive Failure where
  /-- Every live thread is blocked. -/
  | deadlock (live : List (ThreadId × ThreadRecord))
  /-- The script of a thread, or its exit, ended in a fault. -/
  | faulted (thread : ThreadId) (name : String) (fault : Fault)
  /-- What was left of a thread that had been given up ended in a fault. -/
  | escaped (name text : String)
  deriving DecidableEq, Repr

/-- One line for a thread that is blocked. -/
def blockedText (id : ThreadId) (r : ThreadRecord) : String :=
  s!"\n  {id.debugText} '" ++ r.name ++
    s!"' priority={r.priority.text} base={r.basePriority.text}" ++
    match r.waitingOn with
    | some lock => s!" waiting_on={lock.debugText}"
    | none => ""

def Failure.text : Failure → String
  | deadlock live =>
      "deadlock: every simulated thread is blocked" ++
        String.join (live.map fun (id, r) => blockedText id r)
  | faulted id name fault =>
      "simulated thread '" ++ name ++ s!"' ({id.debugText}) panicked: {fault.message}"
  | escaped name text =>
      "OS thread '" ++ name ++ "' panicked outside of its simulated thread: " ++ text

/-- Which thread runs, and which threads could. -/
structure RunQueue where
  running : Option ThreadId
  /-- In the order in which they became ready. -/
  ready : List ThreadId
  /-- The first failure. -/
  failure : Option Failure
  /-- A fault occurred while the queue was in use. -/
  poisoned : Bool
  deriving DecidableEq, Repr

/-- A thread that may still be joined. -/
structure JoinHandle where
  name : String
  thread : ThreadId
  exited : SemaphoreId
  deriving DecidableEq, Repr

end Simulation

/-- A simulated uniprocessor. -/
structure Simulation where
  kernel : Kernel
  queue : Simulation.RunQueue
  /-- The main thread, then the others in the order in which they were spawned. -/
  threads : List Simulation.SimThread
  main : ThreadId
  /-- The thread whose code runs. -/
  current : ThreadId
  values : List Int64
  joinable : List Simulation.JoinHandle
  /-- The last thread spawned under each name. -/
  known : List (String × ThreadId)
  /-- How the script of the main thread ended. -/
  result : Option (Except Fault Unit)

namespace Simulation

/-! ### Looking up -/

/-- Stands for a thread that is not there. -/
def SimThread.absent : SimThread := { id := .unissued, name := "", script := [] }

def thread (s : Simulation) (id : ThreadId) : SimThread :=
  (s.threads.find? fun t => t.id = id).getD .absent

def currentThread (s : Simulation) : SimThread := s.thread s.current

def valueOf (s : Simulation) (index : Nat) : Int64 := s.values.getD index 0

def Condition.holds (condition : Condition) (s : Simulation) : Bool :=
  condition.relation.holds (s.valueOf condition.index) condition.bound

/-! ### Changing -/

def modifyThread (s : Simulation) (id : ThreadId) (f : SimThread → SimThread) : Simulation :=
  { s with threads := s.threads.map fun t => if t.id = id then f t else t }

def modifyCurrent (s : Simulation) (f : SimThread → SimThread) : Simulation :=
  s.modifyThread s.current f

def setKernel (kernel : Kernel) (s : Simulation) : Simulation := { s with kernel }

/-- Runs a computation on the kernel. -/
def inKernel {α : Type} (x : Stretch Kernel α) : Stretch Simulation α :=
  Stretch.within kernel setKernel x

/-- Puts something on the current thread's script, to be done next. -/
def push (pending : Pending) : Stretch Simulation Unit :=
  Stretch.update (·.modifyCurrent fun t => { t with script := pending :: t.script })

/-- Lets the current thread make a call. -/
def setCall (frames : List Frame) : Stretch Simulation Unit :=
  Stretch.update (·.modifyCurrent ({ · with call := frames }))

/-- Makes a thread current: the registers of the one before are kept, and its own are loaded. -/
def resume (s : Simulation) (id : ThreadId) : Simulation :=
  let s := s.modifyCurrent ({ · with registers := ⟨s.kernel.depth, s.kernel.inInterrupt⟩ })
  let registers := (s.thread id).registers
  { s with
    current := id
    kernel := { s.kernel with depth := registers.depth, inInterrupt := registers.inInterrupt } }

/-! ### Text -/

/-- The run queue with all its fields; it is only shown before the end. -/
def RunQueue.debugText (q : RunQueue) : String :=
  "RunQueue \x7b running: " ++ optionText ThreadId.debugText q.running ++
    ", ready: " ++ listText (q.ready.map ThreadId.debugText) ++
    ", failure: " ++ optionText Text.quoted (q.failure.map Failure.text) ++
    ", shutdown: false \x7d"

def debugText (s : Simulation) : String :=
  "Kernel \x7b mode: " ++ s.kernel.mode.debugText ++ ", main: " ++ s.main.debugText ++
    ", queue: Mutex \x7b data: " ++ s.queue.debugText ++
    s!", poisoned: {s.queue.poisoned}" ++ ", .. \x7d, .. \x7d"

end Simulation

end KernelSync
