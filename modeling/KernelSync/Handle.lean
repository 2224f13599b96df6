/-!
Handles: the names by which threads, locks, semaphores and condition variables are known. A
thread's handle carries the generation of its slot, so that a handle which outlives its thread
never names the next thread in that slot.
-/

namespace KernelSync

/-- A thread: its slot in the table and the generation for which the slot was issued. -/
structure ThreadId where
  slot : UInt32
  generation : UInt32
  deriving DecidableEq, Repr

namespace ThreadId

/-- By slot, then by generation. -/
def compare (s t : ThreadId) : Ordering :=
  (Ord.compare s.slot t.slot).then (Ord.compare s.generation t.generation)

/-- Slot and generation, as in `3v0`. -/
def text (t : ThreadId) : String := s!"{t.slot}v{t.generation}"

def debugText (t : ThreadId) : String := "ThreadId(" ++ t.text ++ ")"

/-- The slot alone, as in `#3`. -/
def slotText (t : ThreadId) : String := s!"#{t.slot}"

/-- A handle that no table issues: a table has fewer slots than this one would need. -/
def unissued : ThreadId := ⟨0xFFFFFFFF, 0⟩

end ThreadId

/-- A lock; the locks of a system are numbered from 1. -/
structure LockId where
  number : Nat
  deriving DecidableEq, Repr

namespace LockId

def compare (l m : LockId) : Ordering := Ord.compare l.number m.number

def text (l : LockId) : String := s!"lock {l.number}"

def debugText (l : LockId) : String := s!"LockId({l.number})"

end LockId

/-- A semaphore, whether it stands alone or serves a lock, a wait on a condition variable or the
end of a thread. -/
structure SemaphoreId where
  index : Nat
  deriving DecidableEq, Repr

/-- A condition variable. -/
structure CondvarId where
  index : Nat
  deriving DecidableEq, Repr

/-- The text of an optional handle, `debug` being the text of the handle itself. -/
def optionText {α : Type} (debug : α → String) : Option α → String
  | none => "None"
  | some a => "Some(" ++ debug a ++ ")"

/-- A bracketed list. -/
def listText (texts : List String) : String := "[" ++ ", ".intercalate texts ++ "]"

end KernelSync
