import KernelSync.Proofs.Generations
import KernelSync.Proofs.OrderlyMove

/-!
The numbering of threads in a system. The table numbers the threads that have had a slot, and the
system remembers every handle that was issued, so no handle is issued a second time before a slot
has gone through all generations (`Reachable.issued_nodup`).
-/

namespace KernelSync.System

open ThreadTable (Numbered numbered_empty)

variable {s : System} {rule : Rule}

/-- How many threads have had a slot. -/
def timesIssued (s : System) (slot : UInt32) : Nat := s.issued.countP (·.slot = slot)

/-- No slot has been issued more often than there are generations. -/
def Unwrapped (s : System) : Prop := ∀ slot, s.timesIssued slot ≤ UInt32.size

/-- In every state of every run threads are numbered by slot. -/
theorem Reachable.numbered (reachable : Reachable rule s) : Numbered s.table s.issued := by
  induction reachable with
  | start small => exact numbered_empty _
  | move before allowed obeys ends ih =>
    have orderly := before.orderly
    obtain ⟨deed, change, -, issued, -⟩ := (before.moved allowed ends).change orderly allowed
    have next := change.next orderly.sound
    rw [issued]
    cases deed with
    | spawn id name priority => exact ih.concat change.generation_of_spawn next
    | rest | register | claim | giveUp | remove | setBase | setEffective => exact ih.congr next

/-- No handle is issued twice before a slot has gone through all generations. -/
theorem Reachable.issued_nodup (reachable : Reachable rule s) (unwrapped : s.Unwrapped) :
    s.issued.Nodup :=
  reachable.numbered.nodup unwrapped

end KernelSync.System
