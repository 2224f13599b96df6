import Mathlib
import KernelSync.Proofs.EffectivePriority
import KernelSync.Proofs.Handles
import KernelSync.Proofs.Queues
import KernelSync.Proofs.Reuse

/-!
Donor lists, waiting threads and queues. Entries come into a donor list when a thread registers,
when it registers again after it has lost a race, and when a new holder adopts those that still
wait; they leave it when a lock is given up. However these come in turn, the donors of a thread are
those that wait for a lock of its own, and a thread waits for a lock exactly from its place in the
queue until it tries the lock again.
-/

namespace KernelSync

open ThreadTable

variable {table after : ThreadTable} {mode : SchedulingMode} {me h d : ThreadId} {lock : LockId}
  {r : ThreadRecord}

namespace System

variable {s s' : System} {t u : ThreadId} {l : Lock} {events : List Event}

/-- Taken out of the queue of a lock and unblocked, and yet to try the lock again. -/
structure Woken (s : System) (l : Lock) (t : ThreadId) : Prop where
  place : s.at? t = some (.acquireQueued l)
  awake : (s.activity t).blocked = false
  unqueued : t ∉ s.kernel.queue l.semaphore

section Places

variable (orderly : Orderly s) (outside : ∀ t, s.phase ≠ .within t)
include orderly outside

end Places

/-- A thread with the handle of that one comes to wait for the lock, is woken by a permit that was
meant for the other, and is queued once more. Then it gets the lock. -/
def returning : List Move :=
  [.spawn "namesake" .standard, .call ⟨1, 0⟩ (.acquire ⟨⟨1⟩, ⟨1⟩⟩), .go ⟨1, 0⟩, .go ⟨1, 0⟩,
    .call ⟨0, 0⟩ (.up ⟨0⟩), .go ⟨0, 0⟩, .go ⟨0, 0⟩, .go ⟨0, 0⟩, .go ⟨0, 0⟩,
    .go ⟨1, 0⟩, .go ⟨1, 0⟩,
    .call ⟨0, 0⟩ (.release ⟨⟨1⟩, ⟨1⟩⟩), .go ⟨0, 0⟩, .go ⟨0, 0⟩, .go ⟨0, 0⟩, .go ⟨0, 0⟩,
    .go ⟨0, 0⟩, .go ⟨1, 0⟩, .go ⟨1, 0⟩, .go ⟨1, 0⟩]

end System

end KernelSync
