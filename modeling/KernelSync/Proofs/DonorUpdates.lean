import KernelSync.Proofs.Occupancy
import KernelSync.Proofs.StableSorting

/-!
What becomes of donor lists, in tables with whatever waiting threads, holders and donors. Each of the
functions on them comes to one change of the holder's record: a donor joins once (`addDonor_joins`),
those that wait for one lock leave (`removeDonorsFor_run`), those that wait for a lock join
(`adoptWaiters_joins`), and a recomputation puts the donors in order and derives the priority from
them (`updateDonation_settles`). To join twice is to join once, and to recompute twice is to
recompute once.
-/

namespace KernelSync.Donation

open Stretch hiding pure bind
open ThreadTable

variable {table : ThreadTable} {holder donor : ThreadId} {r : ThreadRecord} {lock : LockId}

/-- The donors `old` after `donor` has joined them, the others being in the order they had. -/
structure Joined (donor : ThreadId) (old new : List ThreadId) : Prop where
  nodup : new.Nodup
  mem_iff : ∀ d, d ∈ new ↔ d ∈ old ∨ d = donor
  others : new.filter (· ≠ donor) = old.filter (· ≠ donor)

theorem joined_inserted {old : List ThreadId} (nodup : old.Nodup) (priority : Priority) :
    Joined donor old (inserted table priority donor (old.filter (· ≠ donor))) where
  nodup := nodup_inserted (by simp) (nodup.filter _)
  mem_iff d := by
    rw [mem_inserted, List.mem_filter]
    by_cases same : d = donor
    · simp [same]
    · simp [same]
  others := by
    rw [filter_inserted, List.filter_filter]
    simp only [Bool.and_self]

section

variable (found : table.get? holder = some r) (live : ∀ d ∈ r.donors, table.contains d = true)
include found live

/-- A donor joins, once; to have it join again changes nothing. -/
theorem addDonor_joins (here : table.contains donor = true) (nodup : r.donors.Nodup) :
    ∃ donors, Joined donor r.donors donors ∧
      addDonor holder donor table = ⟨.ok (), table.modify holder ({ · with donors }), []⟩ ∧
      addDonor holder donor (table.modify holder ({ · with donors })) =
        ⟨.ok (), table.modify holder ({ · with donors }), []⟩ := by
  let donors := inserted table (rank table donor) donor (r.donors.filter (· ≠ donor))
  let after := table.modify holder ({ · with donors })
  have joined : Joined donor r.donors donors := joined_inserted nodup _
  have ranks : rank after = rank table := rank_modify fun _ => rfl
  have foundAfter : after.get? holder = some { r with donors } := get?_modify_self found
  have liveAfter : ∀ d ∈ donors, after.contains d = true := by
    intro d mem
    rw [contains_modify]
    rcases (joined.mem_iff d).mp mem with old | rfl
    · exact live d old
    · exact here
  -- the donor is taken out and put where it was
  have again := addDonor_run foundAfter (contains_modify.trans here) liveAfter
  have same : inserted after (rank after donor) donor (donors.filter (· ≠ donor)) = donors := by
    rw [inserted_congr ranks, ranks, joined.others]
  dsimp only at again
  rw [same, modify_eq_self foundAfter rfl] at again
  exact ⟨donors, joined, addDonor_run found here live, again⟩

/-- Whoever waits for the lock joins, once. -/
theorem adoptWaiters_joins (arena : Arena table) (nodup : r.donors.Nodup) :
    ∃ donors waiters : List ThreadId, waiters.Nodup ∧
      (∀ d, d ∈ waiters ↔ d ≠ holder ∧ table.waits d = some lock) ∧
      donors.Nodup ∧ (∀ d, d ∈ donors ↔ d ∈ r.donors ∨ d ∈ waiters) ∧
      adoptWaiters holder lock table =
        ⟨.ok waiters.length, table.modify holder ({ · with donors }), []⟩ := by
  obtain ⟨donors, adopts, unique, mem_iff⟩ :=
    @Lock.adoptWaiters_run table holder lock r arena found live nodup
  have different : (waitersOf table holder lock).Nodup :=
    (List.filter_sublist.map Prod.fst).nodup (nodup_ids arena)
  exact ⟨donors, _, different, fun d => Lock.mem_waitersOf arena, unique, mem_iff, adopts⟩

/-- The donors are put in order, and the priority is the one that they and the base priority call
for. A thread that is not its own donor is then left as it is by another recomputation. -/
theorem updateDonation_settles :
    ∃ donors priority, StablySorts (rank table) r.donors donors ∧
      Lock.Fits table r.basePriority r.donors priority ∧
      updateDonation holder table = ⟨.ok priority,
        table.modify holder ({ · with donors, priority }), restoreEvents holder r.priority priority⟩ ∧
      (holder ∉ r.donors →
        updateDonation holder (table.modify holder ({ · with donors, priority })) =
          ⟨.ok priority, table.modify holder ({ · with donors, priority }), []⟩) := by
  let donors := sortedByRank table r.donors
  let priority := effective table r.basePriority donors
  let after := table.modify holder ({ · with donors, priority })
  have sorts : StablySorts (rank table) r.donors donors := stablySorts_sortedByRank table r.donors
  obtain ⟨base_le, rank_le, attained⟩ := effective_spec table r.basePriority r.donors
  refine ⟨donors, priority, sorts, ⟨⟨base_le, rank_le⟩, attained⟩, updateDonation_run found live,
    fun apart => ?_⟩
  have foundAfter : after.get? holder = some { r with donors, priority } := get?_modify_self found
  have liveAfter : ∀ d ∈ donors, after.contains d = true := by
    intro d mem
    rw [contains_modify]
    exact live d (sorts.perm.mem_iff.mp mem)
  -- of those that matter nobody has got another priority
  have ranks : ∀ d ∈ donors, rank after d = rank table d := by
    intro d mem
    refine rank_modify_of_ne ?_
    rintro rfl
    exact apart (sorts.perm.mem_iff.mp mem)
  have sorted : sortedByRank after donors = donors := by
    refine sortedByRank_of_ordered (sorts.ordered.imp_of_mem fun {t u} memT memU below => ?_)
    rw [ranks t memT, ranks u memU]
    exact below
  have again := updateDonation_run foundAfter liveAfter
  dsimp only at again
  rw [sorted, effective_congr ranks, modify_eq_self foundAfter rfl] at again
  exact again.trans (congrArg (Run.mk _ _) (restoreEvents_self holder priority))

end

/-- For a holder whose donors are live and on its list once, in any table whose parts agree: what each
of the four functions leaves is the table with another donor list for the holder, and with another
priority after a recomputation. A donor that is added is on the list once and leaves the others in
their order; to withdraw donations takes out just those that wait for the lock, and counts them; to
adopt waiters adds just those that wait for it, and counts them; and a recomputation sorts the list
stably and gives the holder the greatest of its base priority and the priorities of its donors. To
add a donor or to recompute once more changes nothing. -/
theorem donor_lists_exact (arena : Arena table) (found : table.get? holder = some r)
    (live : ∀ d ∈ r.donors, table.contains d = true) (nodup : r.donors.Nodup) (lock : LockId) :
    (∀ donor, table.contains donor = true →
      ∃ donors, Joined donor r.donors donors ∧
        addDonor holder donor table = ⟨.ok (), table.modify holder ({ · with donors }), []⟩ ∧
        addDonor holder donor (table.modify holder ({ · with donors })) =
          ⟨.ok (), table.modify holder ({ · with donors }), []⟩) ∧
      removeDonorsFor holder lock table =
        ⟨.ok (r.donors.countP fun d => table.waits d = some lock), table.modify holder ({ · with
          donors := r.donors.filter fun d => table.waits d ≠ some lock }), []⟩ ∧
      (∃ donors waiters : List ThreadId, waiters.Nodup ∧
        (∀ d, d ∈ waiters ↔ d ≠ holder ∧ table.waits d = some lock) ∧
        donors.Nodup ∧ (∀ d, d ∈ donors ↔ d ∈ r.donors ∨ d ∈ waiters) ∧
        adoptWaiters holder lock table =
          ⟨.ok waiters.length, table.modify holder ({ · with donors }), []⟩) ∧
      ∃ donors priority, StablySorts (rank table) r.donors donors ∧
        Lock.Fits table r.basePriority r.donors priority ∧
        updateDonation holder table =
          ⟨.ok priority, table.modify holder ({ · with donors, priority }),
            restoreEvents holder r.priority priority⟩ ∧
        (holder ∉ r.donors →
          updateDonation holder (table.modify holder ({ · with donors, priority })) =
            ⟨.ok priority, table.modify holder ({ · with donors, priority }), []⟩) :=
  ⟨fun _ here => addDonor_joins found live here nodup, removeDonorsFor_run found live,
    adoptWaiters_joins found live arena nodup, updateDonation_settles found live⟩

/-- A thread with two locks and two donors in an order that is out of date, and a third thread that
waits for the second lock without being a donor. -/
def latecomer : Roll := (Roll.opened 4).performAll
  [.spawn "holder" .lowest, .spawn "first" .standard, .spawn "second" .highest,
    .spawn "third" .highest, .update (.setHolder ⟨1⟩ ⟨0, 0⟩), .update (.setHolder ⟨2⟩ ⟨0, 0⟩),
    .update (.amend ⟨1, 0⟩ ({ · with waitingOn := some ⟨1⟩ })),
    .update (.amend ⟨2, 0⟩ ({ · with waitingOn := some ⟨2⟩ })),
    .update (.amend ⟨3, 0⟩ ({ · with waitingOn := some ⟨2⟩ })),
    .update (.amend ⟨0, 0⟩ ({ · with donors := [⟨1, 0⟩, ⟨2, 0⟩] }))]

/-- The holder would adopt two waiters, one of them new, or withdraw one donation; and to recompute
raises it to the highest priority for good. -/
theorem latecomer_is_adopted :
    (∃ donors, Joined ⟨3, 0⟩ [⟨1, 0⟩, ⟨2, 0⟩] donors ∧
      addDonor ⟨0, 0⟩ ⟨3, 0⟩ latecomer.table =
        ⟨.ok (), latecomer.table.modify ⟨0, 0⟩ ({ · with donors }), []⟩) ∧
      (removeDonorsFor ⟨0, 0⟩ ⟨2⟩ latecomer.table).outcome = .ok 1 ∧
      (∃ donors : List ThreadId, donors.Nodup ∧ ⟨3, 0⟩ ∈ donors ∧
        adoptWaiters ⟨0, 0⟩ ⟨2⟩ latecomer.table =
          ⟨.ok 2, latecomer.table.modify ⟨0, 0⟩ ({ · with donors }), []⟩) ∧
      ∃ after events, updateDonation ⟨0, 0⟩ latecomer.table = ⟨.ok .highest, after, events⟩ ∧
        updateDonation ⟨0, 0⟩ after = ⟨.ok .highest, after, []⟩ := by
  have faithful : Roll.Faithful 4 latecomer := (Roll.faithful_opened (by decide)).performAll _
  have found : latecomer.table.get? ⟨0, 0⟩ =
      some ⟨"holder", .lowest, .lowest, none, [⟨1, 0⟩, ⟨2, 0⟩]⟩ := rfl
  obtain ⟨adds, removes, ⟨donors, waiters, -, mem_waiters, unique, mem_donors, adopts⟩,
    sorted, priority, -, fits, updates, again⟩ :=
    donor_lists_exact faithful.arena found (by decide) (by decide) ⟨2⟩
  obtain ⟨joined, joins, once, -⟩ := adds ⟨3, 0⟩ (by decide)
  have counts : (adoptWaiters ⟨0, 0⟩ ⟨2⟩ latecomer.table).outcome = .ok 2 := rfl
  have both : waiters.length = 2 := by
    rw [adopts] at counts
    exact Except.ok.inj counts
  have joinsToo : ⟨3, 0⟩ ∈ waiters := (mem_waiters _).mpr ⟨by decide, rfl⟩
  obtain rfl : priority = .highest := Priority.ext_level <|
    Nat.le_antisymm priority.level_le (fits.rank_le ⟨2, 0⟩ (by decide))
  exact ⟨⟨joined, joins, once⟩, congrArg Run.outcome removes,
    ⟨donors, unique, (mem_donors _).mpr (Or.inr joinsToo), both ▸ adopts⟩,
    _, _, updates, again (by decide)⟩

end KernelSync.Donation
