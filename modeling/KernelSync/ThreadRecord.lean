import KernelSync.Handle
import KernelSync.Priority
import KernelSync.Text.Quoted

/-!
Thread records: what the thread table keeps of each live thread.
-/

namespace KernelSync

/-- What is known of a live thread. -/
structure ThreadRecord where
  name : String
  /-- The effective priority, with what has been donated. -/
  priority : Priority
  basePriority : Priority
  /-- The lock for which the thread waits. -/
  waitingOn : Option LockId
  /-- The threads that wait for a lock of this one, the most urgent first. -/
  donors : List ThreadId
  deriving DecidableEq, Repr

namespace ThreadRecord

/-- The record of a thread that has just been created. -/
def fresh (name : String) (priority : Priority) : ThreadRecord :=
  ⟨name, priority, priority, none, []⟩

/-- All fields under their names. -/
def debugText (r : ThreadRecord) : String :=
  "ThreadRecord \x7b name: " ++ Text.quoted r.name ++
    ", priority: " ++ r.priority.debugText ++
    ", base_priority: " ++ r.basePriority.debugText ++
    ", waiting_on: " ++ optionText LockId.debugText r.waitingOn ++
    ", donors: " ++ listText (r.donors.map ThreadId.debugText) ++ " \x7d"

end ThreadRecord

end KernelSync
