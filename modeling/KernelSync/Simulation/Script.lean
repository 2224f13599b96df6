import KernelSync.Call

/-!
Scripts: what a simulated thread does, action by action. Scripts share a few variables,
64-bit integers that wrap around; they name the threads they spawn, and may run parts of themselves
repeatedly, on a condition, as an interrupt handler, or with faults caught.
-/

namespace KernelSync.Simulation

/-- How a variable is compared with a number. -/
inductive Relation where
  | equal
  | different
  | less
  | greater
  deriving DecidableEq, Repr

def Relation.holds : Relation → Int64 → Int64 → Bool
  | equal, m, n => m == n
  | different, m, n => m != n
  | less, m, n => m < n
  | greater, m, n => n < m

/-- A condition on a variable: how it compares with a bound. -/
structure Condition where
  index : Nat
  relation : Relation
  bound : Int64
  deriving DecidableEq, Repr

/-- What becomes of a fault that leaves the script of a spawned thread, its own or the end of the
simulation: a fault with a text, or one without a text that escapes the thread with one. -/
inductive Disguise where
  | raise (text : String)
  | bomb (text : String)
  deriving DecidableEq, Repr

/-- One action of a script. -/
inductive Action where
  | call (call : Call)
  | short (call : ShortCall)
  | permits (s : SemaphoreId)
  | holder (lock : LockId)
  | registrations (c : CondvarId)
  /-- Waits on `c` as long as the condition holds. -/
  | waitWhile (c : CondvarId) (lock : Lock) (condition : Condition)
  | spawn (name : String) (level : Nat) (script : List Action) (disguise : Option Disguise)
  | join (name : String)
  | yield
  | setPriority (level : Nat)
  | priority
  | priorityOf (name : String)
  | threads
  | mode
  | inInterrupt
  | interrupt (script : List Action)
  | snapshot
  | showKernel
  | note (written : String)
  | set (index : Nat) (value : Int64)
  | add (index : Nat) (amount : Int64)
  | times (count : Nat) (script : List Action)
  /-- Branches on the last answer to a call that does not wait. -/
  | ifLast (yes no : List Action)
  | branch (condition : Condition) (yes no : List Action)
  | attempt (script : List Action)
  | raise (text : String)
  | raiseWithoutText
  /-- Starts a simulation inside this one. -/
  | nested
  /-- Asks for the running thread where there is none. -/
  | foreign
  /-- Names no action, which is a fault of the thread that comes to it. -/
  | unknown
  deriving Inhabited

/-- The name of a call's action. -/
def callName : Call → String
  | .down _ => "down"
  | .up _ => "up"
  | .acquire _ => "acquire"
  | .release _ => "release"
  | .wait .. => "wait"
  | .signal .. => "signal"
  | .broadcast .. => "broadcast"

def shortName : ShortCall → String
  | .tryDown _ => "try_down"
  | .tryAcquire _ => "try_acquire"
  | .held _ => "held"

mutual

/-- How many actions there are in an action, repetitions counted. -/
def Action.weight : Action → Nat
  | .spawn _ _ script _ => weightOf script + 1
  | .interrupt script => weightOf script + 1
  | .times count script => count * (weightOf script + 1) + 1
  | .ifLast yes no => weightOf yes + weightOf no + 1
  | .branch _ yes no => weightOf yes + weightOf no + 1
  | .attempt script => weightOf script + 1
  | _ => 1

def weightOf : List Action → Nat
  | [] => 0
  | action :: actions => action.weight + weightOf actions

end

end KernelSync.Simulation
