import KernelSync.Fault
import KernelSync.ThreadRecord

/-!
Replies: what a step of a machine, or an action of a simulated thread, answers.
-/

namespace KernelSync

/-- An answer, by what it is about. -/
inductive Reply where
  /-- Done, with nothing to say. -/
  | done
  | flag (value : Bool)
  | number (value : Nat)
  | integer (value : Int)
  | pair (first second : Nat)
  | priority (priority : Priority)
  /-- An effective priority and the base priority under it. -/
  | priorities (effective base : Priority)
  | thread (id : ThreadId)
  | holder (holder : Option ThreadId)
  | threads (ids : List ThreadId)
  | awaited (lock : Option LockId)
  | locks (ids : List LockId)
  | record (record : ThreadRecord)
  | found (record : Option ThreadRecord)
  | records (entries : List (ThreadId × ThreadRecord))
  | created (id : ThreadId) (name : String)
  | exhausted (reason : Exhausted)
  /-- Live threads, whether there is none, and the capacity. -/
  | size (live : Nat) (isEmpty : Bool) (capacity : Nat)
  | comparison (order : Ordering) (equal : Bool)
  | text (text : String)
  | texts (texts : List String)
  /-- A slot number and texts of the handle that has it. -/
  | handle (slot : Nat) (texts : List String)
  /-- A label that a script gave, as the script wrote it. -/
  | label (written : String)
  | fault (fault : Fault)
  | blocked
  /-- The thread is in the middle of a call. -/
  | busy
  | notReady
  /-- Nothing is known under the name. -/
  | unknown
  deriving DecidableEq, Repr

end KernelSync
