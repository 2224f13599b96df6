import KernelSync.Donation
import KernelSync.Proofs.Records

/-!
Donor lists. Each function on them takes the list out of a record, works on it and puts it back; so
for live threads it comes to one change of that record. The `_run` equations below give that change,
and the lemmas beside them say what the new list is: an insertion and a sort lose nobody, an
insertion adds one thread once, a withdrawal keeps those that wait for another lock.
-/

namespace KernelSync

/-! ### Priorities -/

namespace Priority

variable {p q : Priority}

theorem le_iff : p ≤ q ↔ p.level ≤ q.level := Iff.rfl

theorem ext_level (h : p.level = q.level) : p = q := by
  cases p
  cases q
  simpa using h

theorem level_max : (max p q).level = max p.level q.level := by
  have unfolded : max p q = if p ≤ q then q else p := rfl
  rw [unfolded]
  split
  · rename_i le
    exact (Nat.max_eq_right le).symm
  · rename_i gt
    exact (Nat.max_eq_left (Nat.le_of_not_le gt)).symm

theorem max_eq_or : max p q = p ∨ max p q = q := by
  have unfolded : max p q = if p ≤ q then q else p := rfl
  rw [unfolded]
  split
  · exact Or.inr rfl
  · exact Or.inl rfl

section Sorting

variable {α : Type} (level : α → Priority)

theorem sort_trans (a b c : α) (ab : decide (level b ≤ level a) = true)
    (bc : decide (level c ≤ level b) = true) : decide (level c ≤ level a) = true := by
  rw [decide_eq_true_iff] at ab bc ⊢
  exact Nat.le_trans bc ab

theorem sort_total (a b : α) :
    (decide (level b ≤ level a) || decide (level a ≤ level b)) = true := by
  simp only [Bool.or_eq_true, decide_eq_true_eq]
  exact Nat.le_total _ _

/-- To sort by level puts the highest first. -/
theorem pairwise_sort (list : List α) :
    (list.mergeSort fun a b => decide (level b ≤ level a)).Pairwise fun a b => level b ≤ level a :=
  (List.pairwise_mergeSort (sort_trans level) (sort_total level) list).imp of_decide_eq_true

/-- To sort by level leaves those of one level in the order in which they were. -/
theorem filter_sort (p : Priority) (list : List α) :
    ((list.mergeSort fun a b => decide (level b ≤ level a)).filter fun a => level a = p) =
      list.filter fun a => level a = p := by
  have perm := List.mergeSort_perm list fun a b => decide (level b ≤ level a)
  have alike : (list.filter fun a => level a = p).Pairwise
      fun a b => decide (level b ≤ level a) = true := by
    refine List.pairwise_of_forall_mem_list fun a ha b hb => decide_eq_true ?_
    have same : level b = level a := by
      rw [of_decide_eq_true (List.mem_filter.mp ha).2, of_decide_eq_true (List.mem_filter.mp hb).2]
    exact Nat.le_of_eq (congrArg Priority.level same)
  -- those of one level are sorted already, so sorting keeps them as a sublist
  have kept := List.sublist_mergeSort (sort_trans level) (sort_total level) alike
    List.filter_sublist
  have inside := kept.filter fun a => decide (level a = p)
  rw [List.filter_filter] at inside
  simp only [Bool.and_self] at inside
  exact (inside.eq_of_length (perm.filter _).length_eq.symm).symm

end Sorting

end Priority

namespace Donation

open Stretch ThreadTable

variable {table table' : ThreadTable} {id holder donor : ThreadId} {r : ThreadRecord}
  {list : List ThreadId} {lock : LockId}

/-! ### Ranks -/

theorem rank_of_get? (live : table.get? id = some r) : rank table id = r.priority := by
  simp [rank, live]

theorem priority_run_rank (live : table.contains id = true) :
    priority id table = ⟨.ok (rank table id), table, []⟩ := by
  obtain ⟨r, found⟩ := contains_iff.mp live
  rw [priority_run found, rank_of_get? found]

/-- Ranks are read off the priorities alone. -/
theorem rank_of_agree (same : Agree (·.priority) table table') : rank table' = rank table := by
  funext id
  have here := same id
  unfold rank
  cases before : table.get? id <;> cases after : table'.get? id <;> simp_all

theorem rank_modify {f : ThreadRecord → ThreadRecord}
    (same : ∀ r, (f r).priority = r.priority) : rank (table.modify id f) = rank table :=
  rank_of_agree (agree_modify fun r _ => same r)

theorem rank_modify_of_ne {other : ThreadId} {f : ThreadRecord → ThreadRecord} (ne : other ≠ id) :
    rank (table.modify id f) other = rank table other := by
  unfold rank
  rw [get?_modify_of_ne ne]

/-- The base priority of a thread, that of a stale handle being the lowest. -/
def baseRank (table : ThreadTable) (id : ThreadId) : Priority :=
  match table.get? id with
  | some r => r.basePriority
  | none => .lowest

theorem baseRank_of_get? (live : table.get? id = some r) : baseRank table id = r.basePriority := by
  simp [baseRank, live]

theorem baseRank_of_agree (same : Agree (·.basePriority) table table') :
    baseRank table' = baseRank table := by
  funext id
  have here := same id
  unfold baseRank
  cases before : table.get? id <;> cases after : table'.get? id <;> simp_all

/-! ### Insertion -/

/-- `id` in front of the first member of lower rank than `priority`. -/
def inserted (table : ThreadTable) (priority : Priority) (id : ThreadId) :
    List ThreadId → List ThreadId
  | [] => [id]
  | member :: rest =>
      if rank table member < priority then id :: member :: rest
      else member :: inserted table priority id rest

theorem inserted_perm (table : ThreadTable) (priority : Priority) (id : ThreadId)
    (list : List ThreadId) : (inserted table priority id list).Perm (id :: list) := by
  induction list with
  | nil => exact .refl _
  | cons member rest ih =>
    unfold inserted
    split
    · exact .refl _
    · exact (ih.cons member).trans (List.Perm.swap id member rest)

theorem mem_inserted {priority : Priority} {other : ThreadId} :
    other ∈ inserted table priority id list ↔ other = id ∨ other ∈ list := by
  rw [(inserted_perm table priority id list).mem_iff, List.mem_cons]

theorem nodup_inserted {priority : Priority} (fresh : id ∉ list) (nodup : list.Nodup) :
    (inserted table priority id list).Nodup :=
  (inserted_perm table priority id list).nodup_iff.mpr (List.nodup_cons.mpr ⟨fresh, nodup⟩)

/-- An insertion looks at ranks alone. -/
theorem inserted_congr (same : rank table' = rank table) (priority : Priority) :
    inserted table' priority id list = inserted table priority id list := by
  induction list with
  | nil => rfl
  | cons member rest ih =>
    unfold inserted
    rw [same, ih]

/-- An insertion leaves the others in the order they had. -/
theorem filter_inserted (priority : Priority) :
    (inserted table priority id list).filter (· ≠ id) = list.filter (· ≠ id) := by
  induction list with
  | nil => simp [inserted]
  | cons member rest ih =>
    unfold inserted
    split
    · simp
    · rw [List.filter_cons, List.filter_cons, ih]

theorem insertAt_run (live : ∀ d ∈ list, table.contains d = true) (priority : Priority) :
    insertAt priority id list table = ⟨.ok (inserted table priority id list), table, []⟩ := by
  induction list with
  | nil => rfl
  | cons member rest ih =>
    have first := priority_run_rank (live member List.mem_cons_self)
    have others := ih fun d mem => live d (List.mem_cons_of_mem _ mem)
    by_cases lower : rank table member < priority
    · simp [insertAt, inserted, bind_run, first, lower]
    · simp [insertAt, inserted, bind_run, first, lower, others]

theorem insertByPriority_run (here : table.contains id = true)
    (live : ∀ d ∈ list, table.contains d = true) :
    insertByPriority id list table =
      ⟨.ok (inserted table (rank table id) id list), table, []⟩ := by
  simp [insertByPriority, bind_run, priority_run_rank here, insertAt_run live]

theorem inspects_insertAt (priority : Priority) : Inspects (insertAt priority id list) := by
  induction list with
  | nil => exact inspects_pure _
  | cons member rest ih =>
    refine inspects_bind inspects_priority fun found => ?_
    split
    · exact inspects_pure _
    · exact inspects_bind ih fun _ => inspects_pure _

theorem inspects_insertByPriority : Inspects (insertByPriority id list) :=
  inspects_bind inspects_priority fun _ => inspects_insertAt _

/-- An insertion that succeeds has met live threads only, up to the place it found. -/
theorem insertAt_eq_ok {priority : Priority} {result : List ThreadId} {events : List Event}
    (run : insertAt priority id list table = ⟨.ok result, table', events⟩) :
    result = inserted table priority id list := by
  induction list generalizing result events table' with
  | nil =>
    simp only [insertAt, pure_run, Run.mk.injEq, Except.ok.injEq] at run
    exact run.1.symm
  | cons member rest ih =>
    rw [insertAt, bind_eq_ok] at run
    obtain ⟨found, mid, before, after, first, second, -⟩ := run
    cases hlive : table.get? member with
    | none => simp [ThreadTable.priority, bind_run, record_run_of_stale hlive] at first
    | some m =>
      rw [priority_run hlive] at first
      simp only [Run.mk.injEq, Except.ok.injEq] at first
      obtain ⟨rfl, rfl, -⟩ := first
      unfold inserted
      rw [rank_of_get? hlive]
      split at second
      · rename_i lower
        simp only [pure_run, Run.mk.injEq, Except.ok.injEq] at second
        rw [if_pos lower]
        exact second.1.symm
      · rename_i lower
        obtain ⟨others, _, _, _, tail, last, -⟩ := bind_eq_ok.mp second
        simp only [pure_run, Run.mk.injEq, Except.ok.injEq] at last
        rw [if_neg lower, ← ih tail]
        exact last.1.symm

theorem insertByPriority_eq_ok {result : List ThreadId} {events : List Event}
    (run : insertByPriority id list table = ⟨.ok result, table', events⟩) :
    result = inserted table (rank table id) id list := by
  cases here : table.get? id with
  | none =>
    simp [insertByPriority, ThreadTable.priority, bind_run, record_run_of_stale here] at run
  | some r =>
    simp only [insertByPriority, bind_run_ok (priority_run here), List.nil_append] at run
    rw [rank_of_get? here]
    exact insertAt_eq_ok run

/-! ### Sorting -/

theorem sortedByRank_perm (table : ThreadTable) (list : List ThreadId) :
    (sortedByRank table list).Perm list :=
  List.mergeSort_perm ..

theorem sortedByRank_pairwise (table : ThreadTable) (list : List ThreadId) :
    (sortedByRank table list).Pairwise fun s t => rank table t ≤ rank table s :=
  Priority.pairwise_sort (rank table) list

theorem sortedByRank_of_short (short : list.length < 2) : sortedByRank table list = list := by
  match list, short with
  | [], _ => exact List.mergeSort_nil
  | [t], _ => exact List.mergeSort_singleton t

theorem sortByPriority_run (live : ∀ d ∈ list, table.contains d = true) :
    sortByPriority list table = ⟨.ok (sortedByRank table list), table, []⟩ := by
  unfold sortByPriority
  split
  · rename_i short
    rw [sortedByRank_of_short short]
  · have nobody : list.find? (fun id => !table.contains id) = none := by
      rw [List.find?_eq_none]
      intro d mem
      simp [live d mem]
    rw [nobody]

theorem inspects_sortByPriority : Inspects (sortByPriority list) := by
  refine ⟨fun table => ?_, fun table fault fails => ?_⟩
  · unfold sortByPriority
    split
    · exact ⟨rfl, rfl⟩
    · split
      · exact ⟨rfl, rfl⟩
      · exact ⟨rfl, rfl⟩
  · unfold sortByPriority at fails
    split at fails
    · exact nomatch fails
    · split at fails
      · exact ⟨_, (Except.error.inj fails).symm⟩
      · exact nomatch fails

/-- A sort that succeeds gives the members by rank; a stale one among two or more is noticed. -/
theorem sortByPriority_eq_ok {result : List ThreadId} {events : List Event}
    (run : sortByPriority list table = ⟨.ok result, table', events⟩) :
    result = sortedByRank table list := by
  unfold sortByPriority at run
  split at run
  · rename_i short
    simp only [Run.mk.injEq, Except.ok.injEq] at run
    rw [sortedByRank_of_short short]
    exact run.1.symm
  · split at run
    · simp at run
    · simp only [Run.mk.injEq, Except.ok.injEq] at run
      exact run.1.symm

/-! ### One donor list -/

theorem takeDonors_run (found : table.get? id = some r) :
    takeDonors id table = ⟨.ok r.donors, table.modify id ({ · with donors := [] }), []⟩ := by
  simp [takeDonors, bind_run, donors_run found, setDonors_run found]

/-- What a computation does that works on a donor list it has taken out: one change of the
record. -/
theorem setDonors_after_take (found : table.get? id = some r) (donors : List ThreadId) :
    setDonors id donors (table.modify id ({ · with donors := [] })) =
      ⟨.ok (), table.modify id ({ · with donors }), []⟩ := by
  rw [setDonors_run (get?_modify_self found), modify_modify]
  rfl

/-- `donor` becomes a donor of `holder`, once. -/
theorem addDonor_run (found : table.get? holder = some r) (here : table.contains donor = true)
    (live : ∀ d ∈ r.donors, table.contains d = true) :
    addDonor holder donor table =
      ⟨.ok (), table.modify holder ({ · with
        donors := inserted table (rank table donor) donor (r.donors.filter (· ≠ donor)) }),
        []⟩ := by
  have others : ∀ d ∈ r.donors.filter (· ≠ donor),
      (table.modify holder ({ · with donors := [] })).contains d = true := by
    intro d mem
    rw [contains_modify]
    exact live d (List.mem_filter.mp mem).1
  have ranks : rank (table.modify holder ({ · with donors := [] })) = rank table :=
    rank_modify fun _ => rfl
  unfold addDonor
  rw [bind_run_ok (takeDonors_run found),
    bind_run_ok (insertByPriority_run (by rw [contains_modify]; exact here) others),
    setDonors_after_take found, ranks, inserted_congr ranks]
  rfl

theorem inspects_withoutWaiters : Inspects (withoutWaiters lock list) := by
  induction list with
  | nil => exact inspects_pure []
  | cons donor rest ih =>
    exact inspects_bind inspects_waitingOn fun _ => inspects_bind ih fun _ => inspects_pure _

theorem withoutWaiters_run (live : ∀ d ∈ list, table.contains d = true) :
    withoutWaiters lock list table =
      ⟨.ok (list.filter fun d => table.waits d ≠ some lock), table, []⟩ := by
  induction list with
  | nil => rfl
  | cons donor rest ih =>
    obtain ⟨d, found⟩ := contains_iff.mp (live donor List.mem_cons_self)
    have others := ih fun d mem => live d (List.mem_cons_of_mem _ mem)
    by_cases waiting : d.waitingOn = some lock
    · simp [withoutWaiters, bind_run, waitingOn_run found, others, waiting, waits_of_get? found]
    · simp [withoutWaiters, bind_run, waitingOn_run found, others, waiting, waits_of_get? found]

/-- The donors that wait for another lock, or for none, are those that stay. -/
theorem removeDonorsFor_run (found : table.get? holder = some r)
    (live : ∀ d ∈ r.donors, table.contains d = true) :
    removeDonorsFor holder lock table =
      ⟨.ok (r.donors.countP fun d => table.waits d = some lock), table.modify holder ({ · with
        donors := r.donors.filter fun d => table.waits d ≠ some lock }), []⟩ := by
  have waiting : ∀ d, (table.modify holder ({ · with donors := [] })).waits d = table.waits d :=
    Agree.waits (agree_modify fun _ _ => rfl)
  have others : ∀ d ∈ r.donors, (table.modify holder ({ · with donors := [] })).contains d = true :=
    fun d mem => by rw [contains_modify]; exact live d mem
  have withdrawn : r.donors.length - (r.donors.filter fun d => table.waits d ≠ some lock).length =
      r.donors.countP fun d => table.waits d = some lock := by
    have both := List.length_eq_countP_add_countP (fun d => decide (table.waits d = some lock))
      (l := r.donors)
    rw [← List.countP_eq_length_filter]
    simp only [decide_eq_true_eq, ne_eq] at both ⊢
    omega
  unfold removeDonorsFor
  rw [bind_run_ok (takeDonors_run found), bind_run_ok (withoutWaiters_run others),
    bind_run_ok (setDonors_after_take found _)]
  simp only [waiting, withdrawn]
  rfl

/-- Several threads become donors of `holder`, each once. -/
theorem addDonors_run {waiters : List ThreadId} (found : table.get? holder = some r)
    (here : ∀ d ∈ waiters, table.contains d = true)
    (live : ∀ d ∈ r.donors, table.contains d = true) (nodup : r.donors.Nodup) :
    ∃ donors, addDonors holder waiters table =
        ⟨.ok (), table.modify holder ({ · with donors }), []⟩ ∧
      donors.Nodup ∧ ∀ d, d ∈ donors ↔ d ∈ r.donors ∨ d ∈ waiters := by
  induction waiters generalizing table r with
  | nil =>
    refine ⟨r.donors, ?_, nodup, by simp⟩
    rw [modify_eq_self found rfl]
    rfl
  | cons donor rest ih =>
    have first := addDonor_run found (here donor List.mem_cons_self) live
    have fresh : donor ∉ r.donors.filter (· ≠ donor) := by simp
    have grown : (table.modify holder ({ · with
        donors := inserted table (rank table donor) donor (r.donors.filter (· ≠ donor)) })).get?
          holder = some { r with
        donors := inserted table (rank table donor) donor (r.donors.filter (· ≠ donor)) } :=
      get?_modify_self found
    obtain ⟨donors, run, unique, mem_iff⟩ := ih grown
      (fun d mem => by
        rw [contains_modify]
        exact here d (List.mem_cons_of_mem _ mem))
      (fun d mem => by
        rw [contains_modify]
        rcases mem_inserted.mp mem with rfl | old
        · exact here _ List.mem_cons_self
        · exact live d (List.mem_filter.mp old).1)
      (nodup_inserted fresh (nodup.filter _))
    refine ⟨donors, ?_, unique, ?_⟩
    · unfold addDonors
      rw [bind_run_ok first, run, modify_modify]
      rfl
    · intro d
      rw [mem_iff, mem_inserted, List.mem_filter, List.mem_cons]
      by_cases same : d = donor <;> simp [same]

/-! ### Recomputing a priority -/

/-- The greater of a base priority and the rank of the most urgent donor. -/
def effective (table : ThreadTable) (base : Priority) : List ThreadId → Priority
  | top :: _ => max (rank table top) base
  | [] => base

theorem effective_congr (same : ∀ d ∈ list, rank table' d = rank table d) (base : Priority) :
    effective table' base list = effective table base list := by
  cases list with
  | nil => rfl
  | cons top rest => rw [effective, effective, same top List.mem_cons_self]

/-- An effective priority is no lower than the base priority and every donor's, and is one of
them. -/
theorem effective_spec (table : ThreadTable) (base : Priority) (list : List ThreadId) :
    base ≤ effective table base (sortedByRank table list) ∧
      (∀ d ∈ list, rank table d ≤ effective table base (sortedByRank table list)) ∧
      (effective table base (sortedByRank table list) = base ∨
        ∃ d ∈ list, effective table base (sortedByRank table list) = rank table d) := by
  have perm := sortedByRank_perm table list
  have sorted := sortedByRank_pairwise table list
  cases hsorted : sortedByRank table list with
  | nil =>
    rw [hsorted] at perm
    have none : list = [] := List.nil_perm.mp perm
    subst none
    exact ⟨Nat.le_refl _, by simp, Or.inl rfl⟩
  | cons top rest =>
    rw [hsorted] at perm sorted
    have highest := (List.pairwise_cons.mp sorted).1
    have level := Priority.level_max (p := rank table top) (q := base)
    refine ⟨?_, ?_, ?_⟩
    · rw [Priority.le_iff, effective, level]
      exact Nat.le_max_right ..
    · intro d mem
      have below : rank table d ≤ rank table top := by
        rcases List.mem_cons.mp (perm.mem_iff.mpr mem) with rfl | later
        · exact Nat.le_refl _
        · exact highest d later
      rw [Priority.le_iff, effective, level]
      exact Nat.le_trans below (Nat.le_max_left ..)
    · rcases Priority.max_eq_or (p := rank table top) (q := base) with eq | eq
      · exact Or.inr ⟨top, perm.mem_iff.mp List.mem_cons_self, eq⟩
      · exact Or.inl eq

/-- What is reported when a priority is stored: nothing, if it is the one that was there. -/
def restoreEvents (id : ThreadId) (before after : Priority) : List Event :=
  if before ≠ after then [.log (.restoring id before after)] else []

@[simp] theorem restoreEvents_self (id : ThreadId) (priority : Priority) :
    restoreEvents id priority priority = [] :=
  if_neg fun changed => changed rfl

/-- The end of a recomputation: the list goes back, and the priority is stored. -/
theorem store_effective_run (found : table.get? id = some r) (donors : List ThreadId)
    (priority : Priority) :
    (do
        setDonors id donors
        let before ← ThreadTable.priority id
        if before ≠ priority then
          log (.restoring id before priority)
        setPriority id priority
        Pure.pure priority : Stretch ThreadTable Priority)
          (table.modify id ({ · with donors := [] })) =
        ⟨.ok priority, table.modify id ({ · with donors, priority }),
          restoreEvents id r.priority priority⟩ := by
  have refilled : (table.modify id ({ · with donors })).get? id = some { r with donors } :=
    get?_modify_self found
  have stores := setPriority_run refilled priority
  rw [modify_modify] at stores
  simp only [bind_run_ok (setDonors_after_take found donors), bind_run_ok (priority_run refilled)]
  by_cases changed : r.priority ≠ priority
  · rw [if_pos changed]
    simp only [log, bind_run_ok (report_run _ _), bind_run_ok stores, pure_run, restoreEvents,
      if_pos changed]
    rfl
  · rw [if_neg changed]
    simp only [bind_run_ok stores, pure_run, restoreEvents, if_neg changed]
    rfl

/-- The priority of `id` becomes what its base priority and its donors make it. -/
theorem updateDonation_run (found : table.get? id = some r)
    (live : ∀ d ∈ r.donors, table.contains d = true) :
    updateDonation id table =
      ⟨.ok (effective table r.basePriority (sortedByRank table r.donors)),
        table.modify id ({ · with
          donors := sortedByRank table r.donors
          priority := effective table r.basePriority (sortedByRank table r.donors) }),
        restoreEvents id r.priority
          (effective table r.basePriority (sortedByRank table r.donors))⟩ := by
  let emptied := table.modify id ({ · with donors := [] })
  have ranks : rank emptied = rank table := rank_modify fun _ => rfl
  have ordered : sortedByRank emptied r.donors = sortedByRank table r.donors := by
    unfold sortedByRank
    rw [ranks]
  have present : emptied.get? id = some { r with donors := [] } := get?_modify_self found
  have others : ∀ d ∈ r.donors, emptied.contains d = true := fun d mem => by
    rw [contains_modify]
    exact live d mem
  have sorts := sortByPriority_run others
  rw [ordered] at sorts
  unfold updateDonation
  rw [bind_run_ok (takeDonors_run found), bind_run_ok sorts,
    bind_run_ok (basePriority_run present)]
  cases hsorted : sortedByRank table r.donors with
  | nil => exact store_effective_run found [] r.basePriority
  | cons top rest =>
    have mem : top ∈ r.donors :=
      (sortedByRank_perm table r.donors).mem_iff.mp (by simp [hsorted])
    have reads := priority_run_rank (others top mem)
    rw [ranks] at reads
    dsimp only
    rw [bind_run_ok reads]
    exact store_effective_run found (top :: rest) (max (rank table top) r.basePriority)

end Donation

end KernelSync
