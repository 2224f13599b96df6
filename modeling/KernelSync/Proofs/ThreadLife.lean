import KernelSync.Proofs.WaitGraph

/-!
Threads that come and go. A thread that is created has nobody waiting for it and waits for nobody,
and so does a thread that can be removed. So the wait graph stays as it is, donor lists stay
accounted for, and the priorities of the other threads stay settled.
-/

namespace KernelSync.ThreadTable

open Donation

variable {table after : ThreadTable} {id t u : ThreadId} {lock : LockId} {r : ThreadRecord}

/-! ### Creation -/

theorem not_holder_of_heldBy_nil (unheld : table.holdings.heldBy id = []) :
    table.holder? lock ≠ some id := by
  intro held
  unfold holder? Holdings.holder? at held
  obtain ⟨⟨lock', id'⟩, found, rfl⟩ := Option.map_eq_some_iff.mp held
  have mem := Holdings.mem_heldBy.mpr (List.mem_of_find?_eq_some found)
  rw [unheld] at mem
  exact nomatch mem

section Gains

variable (gains : Gains table id r after)
include gains

theorem Gains.holder? : after.holder? lock = table.holder? lock := by
  unfold ThreadTable.holder?
  rw [gains.holdings]

theorem Gains.contains : after.contains t = true ↔ t = id ∨ table.contains t = true := by
  unfold ThreadTable.contains
  rw [gains.get?]
  by_cases here : t = id
  · simp [here]
  · simp [here]

theorem Gains.waits (idle : r.waitingOn = none) : after.waits t = table.waits t := by
  unfold ThreadTable.waits
  rw [gains.get?]
  split
  · rename_i here
    rw [here, get?_eq_none_iff.mpr gains.absent]
    exact idle
  · rfl

theorem Gains.awaits (idle : r.waitingOn = none) : after.Awaits = table.Awaits := by
  refine awaits_congr fun t => ?_
  unfold ahead?
  rw [gains.waits idle]
  congr 1
  funext lock
  exact gains.holder?

/-- A handle that is not live awaits nobody and is awaited by nobody. -/
theorem Gains.alone (accounted : Accounted table) (d : ThreadId) :
    ¬ table.Awaits d id ∧ ¬ table.Awaits id d := by
  have absent := gains.absent
  constructor
  · intro edge
    rw [accounted.live_of_awaits edge] at absent
    exact nomatch absent
  · intro edge
    rw [edge.contains] at absent
    exact nomatch absent

theorem Gains.accounted (accounted : Accounted table) (idle : r.waitingOn = none)
    (fresh : r.donors = []) : Accounted after where
  mem_donors_iff := by
    intro h rh found d
    rw [gains.awaits idle]
    rw [gains.get?] at found
    by_cases here : h = id
    · subst here
      rw [if_pos rfl] at found
      obtain rfl := Option.some.inj found
      rw [fresh]
      simp [(gains.alone accounted d).1]
    · rw [if_neg here] at found
      exact accounted.mem_donors_iff h rh found d
  donors_nodup := by
    intro h rh found
    rw [gains.get?] at found
    by_cases here : h = id
    · rw [if_pos here] at found
      obtain rfl := Option.some.inj found
      rw [fresh]
      exact List.nodup_nil
    · rw [if_neg here] at found
      exact accounted.donors_nodup h rh found
  holder_live := by
    intro lock h held
    rw [gains.holder?] at held
    exact gains.contains.mpr (Or.inr (accounted.holder_live lock h held))

theorem Gains.ranks (apart : t ≠ id) :
    rank after t = rank table t ∧ baseRank after t = baseRank table t := by
  unfold rank baseRank
  rw [gains.get?, if_neg apart]
  exact ⟨rfl, rfl⟩

theorem Gains.rank_self (own : r.priority = r.basePriority) : rank after id = baseRank after id := by
  have found : after.get? id = some r := by rw [gains.get?, if_pos rfl]
  rw [rank_of_get? found, baseRank_of_get? found, own]

theorem Gains.covered (accounted : Accounted table) (covered : Covered table)
    (idle : r.waitingOn = none) (own : r.priority = r.basePriority) : Covered after :=
  covered.of_isolated (gains.awaits idle) (gains.alone accounted) (fun _ => gains.ranks)
    (gains.rank_self own)

theorem Gains.settled (accounted : Accounted table) (settled : Settled table)
    (idle : r.waitingOn = none) (own : r.priority = r.basePriority) : Settled after :=
  settled.of_isolated (gains.awaits idle) (gains.alone accounted) (fun _ => gains.ranks)
    (gains.rank_self own)

end Gains

/-! ### Removal -/

section Loses

variable (loses : Loses table id after) (idle : table.waits id = none)
  (unheld : table.holdings.heldBy id = [])

include loses in
theorem Loses.holder? : after.holder? lock = table.holder? lock := by
  unfold ThreadTable.holder?
  rw [loses.holdings]

include loses in
theorem Loses.contains : after.contains t = true ↔ t ≠ id ∧ table.contains t = true := by
  unfold ThreadTable.contains
  rw [loses.get?]
  by_cases here : t = id
  · simp [here]
  · simp [here]

include loses idle in
theorem Loses.waits : after.waits t = table.waits t := by
  by_cases here : t = id
  · subst here
    rw [idle]
    unfold ThreadTable.waits
    rw [loses.get?, if_pos rfl]
    rfl
  · unfold ThreadTable.waits
    rw [loses.get?, if_neg here]

include loses idle in
theorem Loses.awaits : after.Awaits = table.Awaits := by
  refine awaits_congr fun t => ?_
  unfold ahead?
  rw [loses.waits idle]
  congr 1
  funext lock
  exact loses.holder?

include idle unheld in
/-- A thread that holds no lock and waits for none is by itself. -/
theorem alone_of_removable (d : ThreadId) : ¬ table.Awaits d id ∧ ¬ table.Awaits id d := by
  refine ⟨fun edge => ?_, not_awaits_of_waits_none idle⟩
  obtain ⟨lock, -, held⟩ := awaits_iff.mp edge
  exact not_holder_of_heldBy_nil unheld held

include loses idle unheld in
theorem Loses.accounted (accounted : Accounted table) : Accounted after := by
  refine accounted.congr (loses.awaits idle) ?_ ?_
  · intro h r found
    rw [loses.get?] at found
    split at found
    · exact nomatch found
    · exact ⟨r, found, .refl _⟩
  · intro lock h held
    rw [loses.holder?] at held
    refine loses.contains.mpr ⟨?_, accounted.holder_live lock h held⟩
    rintro rfl
    exact not_holder_of_heldBy_nil unheld held

include loses in
theorem Loses.ranks (apart : t ≠ id) :
    rank after t = rank table t ∧ baseRank after t = baseRank table t := by
  unfold rank baseRank
  rw [loses.get?, if_neg apart]
  exact ⟨rfl, rfl⟩

include loses in
theorem Loses.rank_self : rank after id = baseRank after id := by
  unfold rank baseRank
  rw [loses.get?, if_pos rfl]

include loses idle unheld in
theorem Loses.covered (covered : Covered table) : Covered after :=
  covered.of_isolated (loses.awaits idle) (alone_of_removable idle unheld) (fun _ => loses.ranks)
    loses.rank_self

include loses idle unheld in
theorem Loses.settled (settled : Settled table) : Settled after :=
  settled.of_isolated (loses.awaits idle) (alone_of_removable idle unheld) (fun _ => loses.ranks)
    loses.rank_self

end Loses

end KernelSync.ThreadTable
