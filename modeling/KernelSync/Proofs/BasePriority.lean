import KernelSync.Proofs.Registration

/-!
To set a base priority. Under donation the effective priority is recomputed from the donors, and
passed on if the thread waits for a lock itself. The wait graph stays as it is
(`changeBase_sameGraph`), so in a table without cycles nothing can go wrong (`changeBase_outcome`)
and nobody comes to outrank the thread ahead (`changeBase_covered`); and if the thread waits for
nothing, priorities stay settled (`changeBase_settled`).
-/

namespace KernelSync.Donation

open Stretch ThreadTable Relation Lock

variable {table : ThreadTable} {me : ThreadId} {r : ThreadRecord} {base : Priority}
  {mode : SchedulingMode}

/-! ### The tables on the way -/

/-- The table with another base priority for `me`. -/
def rebased (table : ThreadTable) (me : ThreadId) (base : Priority) : ThreadTable :=
  table.modify me ({ · with basePriority := base })

theorem rebased_sameGraph : SameGraph table (rebased table me base) :=
  sameGraph_modify (fun _ => rfl) fun _ _ => .refl _

/-- The table with another base priority for `me`, and donors and a priority in line with it. -/
def restored (table : ThreadTable) (me : ThreadId) (base : Priority) (donors : List ThreadId)
    (priority : Priority) : ThreadTable :=
  revised (rebased table me base) me donors priority table.holdings

theorem restored_sameGraph {donors : List ThreadId} {priority : Priority}
    (found : table.get? me = some r) (perm : donors.Perm r.donors) :
    SameGraph table (restored table me base donors priority) := by
  have foundRebased : (rebased table me base).get? me = some { r with basePriority := base } :=
    get?_modify_self found
  refine rebased_sameGraph.trans (sameGraph_modify (fun _ => rfl) fun r' found' => ?_)
  obtain rfl := Option.some.inj (foundRebased.symm.trans found')
  exact perm

theorem rank_rebased : rank (rebased table me base) = rank table := rank_modify fun _ => rfl

theorem baseRank_rebased (live : table.contains me = true) {t : ThreadId} :
    baseRank (rebased table me base) t = if t = me then base else baseRank table t := by
  obtain ⟨r, found⟩ := contains_iff.mp live
  split
  · rename_i here
    subst here
    exact baseRank_of_get? (get?_modify_self found)
  · rename_i apart
    unfold baseRank rebased
    rw [get?_modify_of_ne apart]

theorem regards_rebased {d h : ThreadId} :
    Regards (rebased table me base) table.holdings d h ↔ table.Awaits d h := by
  have same : SameGraph table (rebased table me base) := rebased_sameGraph
  rw [← same.awaits, awaits_iff]
  exact Iff.rfl

theorem coveredElsewhere_rebased (live : table.contains me = true) (covered : Covered table) :
    CoveredElsewhere (rebased table me base) me := by
  constructor
  · intro t apart
    rw [baseRank_rebased live, if_neg apart, rank_rebased]
    exact covered.base_le t
  · intro d t _ edge
    rw [rebased_sameGraph.awaits] at edge
    rw [rank_rebased]
    exact covered.rank_le d t edge

/-! ### What it does -/

/-- Without donation the effective priority is set along with the base priority. -/
theorem changeBase_run_plain (found : table.get? me = some r) (plain : mode.donates = false) :
    changeBasePriority me base mode table =
      ⟨.ok base, (rebased table me base).modify me ({ · with priority := base }), []⟩ := by
  have foundRebased : (rebased table me base).get? me = some { r with basePriority := base } :=
    get?_modify_self found
  have sets : setBasePriority me base table = ⟨.ok (), rebased table me base, []⟩ :=
    setBasePriority_run found base
  unfold changeBasePriority
  rw [bind_run_ok sets, if_neg (by simp [plain]), bind_run_ok (setPriority_run foundRebased base)]
  rfl

/-- Under donation the effective priority follows from the donors, and is passed on if the thread
waits. -/
theorem changeBase_run_donating (accounted : Accounted table) (found : table.get? me = some r)
    (donating : mode.donates = true) (base : Priority) :
    ∃ donors priority events, donors.Perm r.donors ∧ Fits table base donors priority ∧
      (∀ e ∈ events, ¬ Revisits e) ∧
      changeBasePriority me base mode table =
        if (table.waits me).isSome then
          match donate me (restored table me base donors priority) with
          | ⟨.ok _, after, more⟩ => ⟨.ok priority, after, events ++ more⟩
          | ⟨.error fault, after, more⟩ => ⟨.error fault, after, events ++ more⟩
        else
          ⟨.ok priority, restored table me base donors priority, events⟩ := by
  have foundRebased : (rebased table me base).get? me = some { r with basePriority := base } :=
    get?_modify_self found
  have sets : setBasePriority me base table = ⟨.ok (), rebased table me base, []⟩ :=
    setBasePriority_run found base
  have live : ∀ d ∈ r.donors, (rebased table me base).contains d = true := by
    intro d mem
    rw [rebased_sameGraph.contains]
    exact accounted.donors_live found d mem
  obtain ⟨donors, priority, events, updates, perm, fits, quiet⟩ :=
    updateDonation_fits foundRebased live
  let after := restored table me base donors priority
  have foundAfter : after.get? me =
      some { r with basePriority := base, donors := donors, priority := priority } :=
    get?_revised_self foundRebased
  have asks := waitingOn_run foundAfter
  have same : table.waits me = r.waitingOn := waits_of_get? found
  have updates' : updateDonation me (rebased table me base) = ⟨.ok priority, after, events⟩ :=
    updates
  refine ⟨donors, priority, events, perm, fits.congr rank_rebased.symm, quiet, ?_⟩
  rw [same]
  unfold changeBasePriority
  rw [bind_run_ok sets, if_pos donating, bind_run_ok updates', bind_run_ok asks]
  by_cases waiting : r.waitingOn.isSome = true
  · simp only [waiting, if_true, bind_run]
    rcases donate me after with ⟨outcome, later, more⟩
    cases outcome with
    | ok hops => simp
    | error fault => simp
  · rw [if_neg waiting, if_neg waiting]
    simp [after]

/-- Only a live thread can be given a base priority. -/
theorem contains_of_changeBase {table' : ThreadTable} {priority : Priority} {events : List Event}
    (run : changeBasePriority me base mode table = ⟨.ok priority, table', events⟩) :
    table.contains me = true := by
  unfold changeBasePriority at run
  obtain ⟨⟨⟩, mid, _, _, sets, -, -⟩ := bind_eq_ok.mp run
  exact (amend_eq_ok.mp sets).1

/-- However it ends, to set a base priority leaves the wait graph as it is. -/
theorem changeBase_sameGraph (accounted : Accounted table) :
    SameGraph table (changeBasePriority me base mode table).state := by
  cases found : table.get? me with
  | none =>
    have fails : setBasePriority me base table = ⟨.error (.staleHandle me), table, []⟩ := by
      simp [setBasePriority, amend, bind_run, record_run_of_stale found]
    unfold changeBasePriority
    rw [bind_run_error fails]
    exact SameGraph.refl _
  | some r =>
    by_cases donating : mode.donates = true
    · obtain ⟨donors, priority, events, perm, -, -, run⟩ :=
        changeBase_run_donating accounted found donating base
      have same : SameGraph table (restored table me base donors priority) :=
        restored_sameGraph found perm
      have live := (same.contains me).trans (contains_of_get? found)
      have walks := donate_reranks (same.accounted accounted) live
      rw [run]
      split
      · rcases hrun : donate me (restored table me base donors priority) with
          ⟨outcome, after, more⟩
        rw [hrun] at walks
        cases outcome with
        | ok hops => exact same.trans walks.sameGraph
        | error fault => exact same.trans walks.sameGraph
      · exact same
    · rw [changeBase_run_plain found (by simpa using donating)]
      exact rebased_sameGraph.trans (sameGraph_modify (fun _ => rfl) fun _ _ => .refl _)

/-- A cycle that avoids some edges is a cycle. -/
theorem onward_acyclic (acyclic : Acyclic table) : ∀ t, ¬ TransGen (Onward me table) t t :=
  fun t cycle => acyclic t (TransGen.mono (fun _ _ edge => edge.2) t t cycle)

section ChangeBase

variable (arena : Arena table) (accounted : Accounted table) (acyclic : Acyclic table)
  (live : table.contains me = true) (donating : mode.donates = true)

include arena accounted acyclic live donating in
/-- In a table without cycles, to set the base priority of a live thread cannot fail, and the walk
that passes it on is not stopped. -/
theorem changeBase_outcome :
    (∀ e ∈ (changeBasePriority me base mode table).events, ¬ Revisits e) ∧
      ∃ priority, (changeBasePriority me base mode table).outcome = .ok priority := by
  obtain ⟨r, found⟩ := contains_iff.mp live
  obtain ⟨donors, priority, events, perm, -, quiet, run⟩ :=
    changeBase_run_donating accounted found donating base
  have same : SameGraph table (restored table me base donors priority) :=
    restored_sameGraph found perm
  rw [run]
  split
  · obtain ⟨later, ends⟩ := donate_outcome (same.shape.arena arena) (same.accounted accounted)
      ((same.contains me).trans live) (onward_acyclic (same.acyclic acyclic))
    rcases hrun : donate me (restored table me base donors priority) with ⟨outcome, after, more⟩
    rw [hrun] at later ends
    rcases ends with ⟨cycle, -⟩ | ⟨-, total, rfl⟩
    · exact absurd cycle (same.acyclic acyclic me)
    · refine ⟨?_, priority, rfl⟩
      intro e mem
      rcases List.mem_append.mp mem with mem | mem
      · exact quiet e mem
      · exact later e mem
  · exact ⟨quiet, priority, rfl⟩

include accounted arena acyclic live donating in
/-- A walk from the thread covers whoever is ahead of it, if it waits. -/
theorem changeBase_covered (covered : Covered table) :
    Covered (changeBasePriority me base mode table).state := by
  obtain ⟨set, outcome⟩ : ∃ set, (changeBasePriority me base mode table).outcome = .ok set :=
    (changeBase_outcome arena accounted acyclic live donating).2
  obtain ⟨r, found⟩ := contains_iff.mp live
  obtain ⟨donors, priority, events, perm, fits, -, run⟩ :=
    changeBase_run_donating accounted found donating base
  have same : SameGraph table (restored table me base donors priority) :=
    restored_sameGraph found perm
  have behind : CoveredBut (restored table me base donors priority) me := by
    refine coveredBut_revised ((rebased_sameGraph.contains me).trans live) ?_
      (coveredElsewhere_rebased live covered) ?_ ?_
    · intro d h _
      rw [regards_rebased, rebased_sameGraph.awaits]
    · rw [baseRank_rebased live, if_pos rfl]
      exact (fits.congr rank_rebased).toClears
    · intro d
      rw [regards_rebased, perm.mem_iff, accounted.mem_donors_iff me r found]
  rw [run] at outcome ⊢
  by_cases waiting : (table.waits me).isSome = true
  · rw [if_pos waiting] at outcome ⊢
    have passes := @donate_covered (restored table me base donors priority) me
      (same.shape.arena arena) (same.accounted accounted) ((same.contains me).trans live)
      (onward_acyclic (same.acyclic acyclic))
    rcases hrun : donate me (restored table me base donors priority) with ⟨ended, after, more⟩
    rw [hrun] at passes outcome
    cases ended with
    | ok hops => exact passes rfl behind
    | error fault => exact nomatch outcome
  · rw [if_neg waiting]
    refine behind.arrived ?_
    unfold ahead?
    rw [same.waits, Option.not_isSome_iff_eq_none.mp waiting]
    rfl

include accounted live donating in
/-- Nobody is ahead of a thread that waits for nothing, so its own priority is all that changes. -/
theorem changeBase_settled (idle : table.waits me = none) (settled : Settled table) :
    Settled (changeBasePriority me base mode table).state := by
  obtain ⟨r, found⟩ := contains_iff.mp live
  obtain ⟨donors, priority, events, perm, fits, -, run⟩ :=
    changeBase_run_donating accounted found donating base
  have same : SameGraph table (rebased table me base) := rebased_sameGraph
  have elsewhere : SettledElsewhere (rebased table me base) me := by
    refine ⟨coveredElsewhere_rebased live settled.toCovered, ?_⟩
    intro t apart
    rw [baseRank_rebased live, if_neg apart, rank_rebased, same.awaits]
    exact settled.attained t
  rw [run, idle]
  refine settled_revised ((same.contains me).trans live) ?_ ((same.waits me).trans idle)
    elsewhere ?_ ?_
  · intro d h _
    rw [regards_rebased, same.awaits]
  · rw [baseRank_rebased live, if_pos rfl]
    exact fits.congr rank_rebased
  · intro d
    rw [regards_rebased, perm.mem_iff, accounted.mem_donors_iff me r found]

end ChangeBase

end KernelSync.Donation
