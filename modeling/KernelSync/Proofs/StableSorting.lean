import KernelSync.Proofs.DonorLists

/-!
Lists in order of priority, made in two ways: by sorting, and by putting each thread at its place as
it comes. `StablySorts` is all that a sort is relied on for, and it leaves a single list
(`StablySorts.unique`). To insert behind the members of one's own priority makes that very list, so
it does not matter which of the two was done (`insertion_agrees_with_sorting`).
-/

namespace KernelSync

/-! ### Stable sorts -/

/-- The members of `list` from the highest level to the lowest, and those of one level in the order
in which they stand in `list`. -/
structure StablySorts {α : Type} (level : α → Priority) (list sorted : List α) : Prop where
  perm : sorted.Perm list
  ordered : sorted.Pairwise fun a b => level b ≤ level a
  stable : ∀ p, (sorted.filter fun a => level a = p) = list.filter fun a => level a = p

section StablySorts

variable {α : Type} {level : α → Priority} {list sorted sorted' : List α}

/-- The first of an ordered list is at the highest level. -/
theorem level_le_head {a b : α} {rest : List α}
    (ordered : (a :: rest).Pairwise fun a b => level b ≤ level a) (mem : b ∈ a :: rest) :
    level b ≤ level a := by
  rcases List.mem_cons.mp mem with rfl | later
  · exact Nat.le_refl _
  · exact (List.pairwise_cons.mp ordered).1 b later

/-- Every member is among those of its own level. -/
theorem mem_iff_of_alike
    (alike : ∀ p, (sorted.filter fun a => level a = p) = sorted'.filter fun a => level a = p)
    (a : α) : a ∈ sorted ↔ a ∈ sorted' := by
  have here := congrArg (a ∈ ·) (alike (level a))
  simpa using here

/-- An ordered list is known by its members of each level. -/
theorem eq_of_alike (first : sorted.Pairwise fun a b => level b ≤ level a)
    (second : sorted'.Pairwise fun a b => level b ≤ level a)
    (alike : ∀ p, (sorted.filter fun a => level a = p) = sorted'.filter fun a => level a = p) :
    sorted = sorted' := by
  have mem_iff := mem_iff_of_alike alike
  induction sorted generalizing sorted' with
  | nil => exact (List.eq_nil_iff_forall_not_mem.mpr fun a => by simp [← mem_iff]).symm
  | cons a rest ih =>
    cases sorted' with
    | nil => exact absurd ((mem_iff a).mp List.mem_cons_self) List.not_mem_nil
    | cons b rest' =>
      have level_eq : level b = level a := Priority.ext_level <| Nat.le_antisymm
        (level_le_head first ((mem_iff b).mpr List.mem_cons_self))
        (level_le_head second ((mem_iff a).mp List.mem_cons_self))
      -- both heads are the first of one and the same level
      have heads := alike (level a)
      simp only [List.filter_cons, level_eq, decide_true, if_true] at heads
      obtain ⟨rfl, -⟩ := List.cons.inj heads
      have others : ∀ p, (rest.filter fun a => level a = p) =
          rest'.filter fun a => level a = p := by
        intro p
        have whole := alike p
        by_cases here : level a = p
        · simpa [List.filter_cons, here] using whole
        · simpa [List.filter_cons, here] using whole
      rw [ih (List.pairwise_cons.mp first).2 (List.pairwise_cons.mp second).2 others
        (mem_iff_of_alike others)]

/-- There is one stable sort of a list. -/
theorem StablySorts.unique (first : StablySorts level list sorted)
    (second : StablySorts level list sorted') : sorted = sorted' :=
  eq_of_alike first.ordered second.ordered fun p => (first.stable p).trans (second.stable p).symm

/-- What is in order stays as it is. -/
theorem stablySorts_self (ordered : list.Pairwise fun a b => level b ≤ level a) :
    StablySorts level list list :=
  ⟨.refl list, ordered, fun _ => rfl⟩

/-- To sort the first part of a list beforehand makes no difference. -/
theorem StablySorts.of_append {more : List α} (before : StablySorts level list sorted)
    (after : StablySorts level (sorted ++ more) sorted') :
    StablySorts level (list ++ more) sorted' where
  perm := after.perm.trans (before.perm.append_right more)
  ordered := after.ordered
  stable p := by rw [after.stable, List.filter_append, List.filter_append, before.stable]

end StablySorts

namespace Donation

open Stretch hiding pure bind
open ThreadTable

variable {table : ThreadTable} {id : ThreadId} {list : List ThreadId}

/-- Sorting by priority is stable. -/
theorem stablySorts_sortedByRank (table : ThreadTable) (list : List ThreadId) :
    StablySorts (rank table) list (sortedByRank table list) :=
  ⟨sortedByRank_perm table list, sortedByRank_pairwise table list,
    fun p => Priority.filter_sort (rank table) p list⟩

/-- To sort once more changes nothing. -/
theorem sortedByRank_of_ordered (ordered : list.Pairwise fun t u => rank table u ≤ rank table t) :
    sortedByRank table list = list :=
  (stablySorts_sortedByRank table list).unique (stablySorts_self ordered)

/-! ### Insertion -/

/-- To insert a thread into a list in order is to sort the list with the thread at its end. -/
theorem stablySorts_inserted (ordered : list.Pairwise fun t u => rank table u ≤ rank table t) :
    StablySorts (rank table) (list ++ [id]) (inserted table (rank table id) id list) := by
  induction list with
  | nil => exact stablySorts_self (List.pairwise_singleton _ id)
  | cons member rest ih =>
    obtain ⟨below, others⟩ := List.pairwise_cons.mp ordered
    have inner := ih others
    unfold inserted
    split
    · rename_i lower
      have first : ∀ t ∈ member :: rest, rank table t < rank table id := fun t mem =>
        Nat.lt_of_le_of_lt (level_le_head ordered mem) lower
      refine ⟨(List.perm_append_singleton id _).symm,
        List.pairwise_cons.mpr ⟨fun t mem => Nat.le_of_lt (first t mem), ordered⟩, fun p => ?_⟩
      -- nobody on the list is at the level of the newcomer
      by_cases own : rank table id = p
      · have nobody : ((member :: rest).filter fun t => rank table t = p) = [] := by
          refine List.filter_eq_nil_iff.mpr fun t mem same => ?_
          have level := (of_decide_eq_true same).trans own.symm
          exact Nat.lt_irrefl _ (level ▸ first t mem)
        rw [List.filter_append, List.filter_cons, nobody]
        simp [own]
      · rw [List.filter_append, List.filter_cons]
        simp [own]
    · rename_i notLower
      refine ⟨inner.perm.cons member, List.pairwise_cons.mpr ⟨fun t mem => ?_, inner.ordered⟩,
        fun p => ?_⟩
      · rcases mem_inserted.mp mem with rfl | old
        · exact Nat.le_of_not_lt notLower
        · exact below t old
      · rw [List.cons_append, List.filter_cons, List.filter_cons, inner.stable]

/-- Threads put at their places one after the other, as they come. -/
def insertEach : List ThreadId → List ThreadId → Stretch ThreadTable (List ThreadId)
  | [], list => pure list
  | id :: rest, list => do insertEach rest (← insertByPriority id list)

/-- Whoever has come earlier stands in order; so do all when the others have come. -/
theorem insertEach_run {earlier arrivals : List ThreadId}
    (here : ∀ t ∈ earlier, table.contains t = true)
    (live : ∀ t ∈ arrivals, table.contains t = true) :
    insertEach arrivals (sortedByRank table earlier) table =
      ⟨.ok (sortedByRank table (earlier ++ arrivals)), table, []⟩ := by
  induction arrivals generalizing earlier with
  | nil => simp [insertEach]
  | cons id rest ih =>
    have sorted := stablySorts_sortedByRank table earlier
    have present : ∀ t ∈ sortedByRank table earlier, table.contains t = true := fun t mem =>
      here t (sorted.perm.mem_iff.mp mem)
    have same : inserted table (rank table id) id (sortedByRank table earlier) =
        sortedByRank table (earlier ++ [id]) :=
      (sorted.of_append (stablySorts_inserted sorted.ordered)).unique
        (stablySorts_sortedByRank table _)
    have grown : ∀ t ∈ earlier ++ [id], table.contains t = true := by
      intro t mem
      rcases List.mem_append.mp mem with old | new
      · exact here t old
      · exact live t (List.mem_singleton.mp new ▸ List.mem_cons_self)
    unfold insertEach
    rw [bind_run_ok (insertByPriority_run (live id List.mem_cons_self) present), same,
      ih grown fun t mem => live t (List.mem_cons_of_mem _ mem), List.append_assoc]
    rfl

/-- For every list of live threads in order, to insert a live thread gives what sorting gives for
the list with the thread at its end, and any other stable sort would give the same. So threads that
are inserted one by one, as they come, stand as if they had been sorted in the end, whoever they
are; and to sort them again changes nothing. -/
theorem insertion_agrees_with_sorting (table : ThreadTable) :
    (∀ list id, (∀ t ∈ list, table.contains t = true) → table.contains id = true →
      list.Pairwise (fun t u => rank table u ≤ rank table t) →
      ∃ result, insertByPriority id list table = ⟨.ok result, table, []⟩ ∧
        sortByPriority (list ++ [id]) table = ⟨.ok result, table, []⟩ ∧
        StablySorts (rank table) (list ++ [id]) result ∧
        ∀ other, StablySorts (rank table) (list ++ [id]) other → other = result) ∧
    ∀ arrivals, (∀ t ∈ arrivals, table.contains t = true) →
      ∃ result, insertEach arrivals [] table = ⟨.ok result, table, []⟩ ∧
        sortByPriority arrivals table = ⟨.ok result, table, []⟩ ∧
        StablySorts (rank table) arrivals result ∧
        sortByPriority result table = ⟨.ok result, table, []⟩ := by
  constructor
  · intro list id live here ordered
    have sorts := @stablySorts_inserted table id list ordered
    have present : ∀ t ∈ list ++ [id], table.contains t = true := by
      intro t mem
      rcases List.mem_append.mp mem with old | new
      · exact live t old
      · exact List.mem_singleton.mp new ▸ here
    refine ⟨_, insertByPriority_run here live, ?_, sorts, fun other again => again.unique sorts⟩
    rw [sortByPriority_run present, (stablySorts_sortedByRank table _).unique sorts]
  · intro arrivals live
    have sorts := stablySorts_sortedByRank table arrivals
    have stays : ∀ t ∈ sortedByRank table arrivals, table.contains t = true := fun t mem =>
      live t (sorts.perm.mem_iff.mp mem)
    have inserts := @insertEach_run table [] arrivals (fun t mem => absurd mem List.not_mem_nil) live
    rw [sortedByRank_of_ordered .nil, List.nil_append] at inserts
    refine ⟨_, inserts, sortByPriority_run live, sorts, ?_⟩
    rw [sortByPriority_run stays, sortedByRank_of_ordered sorts.ordered]

/-- Four threads, of low and of high priority by turns. -/
def alternating : ThreadTable where
  slots := [⟨0, some (.fresh "a" .lowest)⟩, ⟨0, some (.fresh "b" .highest)⟩,
    ⟨0, some (.fresh "c" .lowest)⟩, ⟨0, some (.fresh "d" .highest)⟩]
  free := []
  holdings := []
  capacity := 4
  live := 4

/-- The last of the four is put behind the one of its own priority, and that is where the sort
leaves it too. -/
theorem newcomer_stands_behind_equals :
    sortByPriority ([⟨1, 0⟩, ⟨0, 0⟩, ⟨2, 0⟩] ++ [⟨3, 0⟩]) alternating =
        ⟨.ok [⟨1, 0⟩, ⟨3, 0⟩, ⟨0, 0⟩, ⟨2, 0⟩], alternating, []⟩ ∧
      sortByPriority [⟨0, 0⟩, ⟨1, 0⟩, ⟨2, 0⟩, ⟨3, 0⟩] alternating =
        ⟨.ok [⟨1, 0⟩, ⟨3, 0⟩, ⟨0, 0⟩, ⟨2, 0⟩], alternating, []⟩ := by
  obtain ⟨inserting, each⟩ := insertion_agrees_with_sorting alternating
  obtain ⟨_, inserts, sorts, -, -⟩ :=
    inserting [⟨1, 0⟩, ⟨0, 0⟩, ⟨2, 0⟩] ⟨3, 0⟩ (by decide) (by decide) (by decide)
  obtain ⟨_, insertsEach, sortsAll, -, -⟩ :=
    each [⟨0, 0⟩, ⟨1, 0⟩, ⟨2, 0⟩, ⟨3, 0⟩] (by decide)
  have placed : insertByPriority ⟨3, 0⟩ [⟨1, 0⟩, ⟨0, 0⟩, ⟨2, 0⟩] alternating =
      ⟨.ok [⟨1, 0⟩, ⟨3, 0⟩, ⟨0, 0⟩, ⟨2, 0⟩], alternating, []⟩ := rfl
  have placedEach : insertEach [⟨0, 0⟩, ⟨1, 0⟩, ⟨2, 0⟩, ⟨3, 0⟩] [] alternating =
      ⟨.ok [⟨1, 0⟩, ⟨3, 0⟩, ⟨0, 0⟩, ⟨2, 0⟩], alternating, []⟩ := rfl
  exact ⟨sorts.trans (inserts.symm.trans placed),
    sortsAll.trans (insertsEach.symm.trans placedEach)⟩

end Donation

end KernelSync
