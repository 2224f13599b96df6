import KernelSync.Proofs.EffectivePriority
import KernelSync.Proofs.WaitChain

/-!
Setting a base priority, against recomputing all priorities from scratch. The walk that passes a
priority on can only raise. So as long as the effective priority of the thread does not fall, every
priority comes out as the greatest base priority along the chains that lead to it. If it falls while
the thread waits, the walk lifts nobody (`Walks.idle`), and those ahead of the thread stay where they
were; everybody else is where recomputation would put them (`changeBase_recomputes`,
`rebased_priorities`).
-/

namespace KernelSync.Donation

open Stretch ThreadTable Relation Lock

variable {table : ThreadTable} {me t u : ThreadId} {r : ThreadRecord} {base priority : Priority}
  {mode : SchedulingMode} {donors : List ThreadId}

/-! ### Recomputation -/

/-- To recompute a priority that is already what base priority and donors call for changes no
priority. -/
theorem updateDonation_idle (accounted : Accounted table) (covered : Covered table)
    (attained : Attained table t) (found : table.get? t = some r) :
    ∃ after events, updateDonation t table = ⟨.ok r.priority, after, events⟩ ∧
      rank after = rank table := by
  obtain ⟨donors, priority, events, run, perm, fits, -⟩ :=
    updateDonation_fits found (accounted.donors_live found)
  have mem_iff : ∀ d, d ∈ donors ↔ table.Awaits d t := fun d =>
    perm.mem_iff.trans (accounted.mem_donors_iff t r found d)
  have same : priority = r.priority := by
    unfold Attained at attained
    rw [rank_of_get? found, baseRank_of_get? found] at attained
    have base_le := covered.base_le t
    rw [rank_of_get? found, baseRank_of_get? found] at base_le
    apply Priority.ext_level
    apply Nat.le_antisymm
    · rcases fits.attained with own | ⟨d, mem, given⟩
      · exact own ▸ base_le
      · have above := covered.rank_le d t ((mem_iff d).mp mem)
        rw [rank_of_get? found] at above
        exact given ▸ above
    · rcases attained with own | ⟨d, edge, given⟩
      · exact own ▸ fits.base_le
      · exact given ▸ fits.rank_le d ((mem_iff d).mpr edge)
  subst same
  refine ⟨_, events, run, funext fun u => ?_⟩
  by_cases here : u = t
  · subst here
    rw [rank_of_get? (get?_modify_self found), rank_of_get? found]
  · exact rank_modify_of_ne here

/-! ### The table before the walk -/

section Restored

variable (live : table.contains me = true)
include live

theorem rank_restored : rank (restored table me base donors priority) t =
    if t = me then priority else rank table t := by
  rw [restored, rank_revised ((rebased_sameGraph.contains me).trans live), rank_rebased]

theorem baseRank_restored : baseRank (restored table me base donors priority) t =
    if t = me then base else baseRank table t := by
  rw [restored, baseRank_revised, baseRank_rebased live]

variable (accounted : Accounted table) (found : table.get? me = some r) (perm : donors.Perm r.donors)
  (fits : Fits table base donors priority)
include accounted found perm fits

/-- Everybody but the thread ahead of `me` is covered. -/
theorem coveredBut_restored (covered : Covered table) :
    CoveredBut (restored table me base donors priority) me := by
  refine coveredBut_revised ((rebased_sameGraph.contains me).trans live) ?_
    (coveredElsewhere_rebased live covered) ?_ ?_
  · intro d h _
    rw [regards_rebased, rebased_sameGraph.awaits]
  · rw [baseRank_rebased live, if_pos rfl]
    exact (fits.congr rank_rebased).toClears
  · intro d
    rw [regards_rebased, perm.mem_iff, accounted.mem_donors_iff me r found]

/-- A thread that `me` does not await is at its base priority or at that of a thread behind it. -/
theorem attained_restored (acyclic : Acyclic table) (settled : Settled table)
    (apart : ¬ table.Awaits me t) : Attained (restored table me base donors priority) t := by
  have edges : (restored table me base donors priority).Awaits = table.Awaits :=
    (restored_sameGraph found perm).awaits
  unfold Attained
  rw [rank_restored live, baseRank_restored live, edges]
  by_cases here : t = me
  · subst here
    rw [if_pos rfl, if_pos rfl]
    refine fits.attained.imp_right ?_
    rintro ⟨d, mem, given⟩
    have edge := (accounted.mem_donors_iff t r found d).mp (perm.mem_iff.mp mem)
    have other : d ≠ t := by
      rintro rfl
      exact acyclic d (.single edge)
    exact ⟨d, edge, by rw [rank_restored live, if_neg other, given]⟩
  · rw [if_neg here, if_neg here]
    refine (settled.attained t).imp_right ?_
    rintro ⟨d, edge, given⟩
    have other : d ≠ me := by
      rintro rfl
      exact apart edge
    exact ⟨d, edge, by rw [rank_restored live, if_neg other, given]⟩

/-- A thread that is not lowered leaves the thread ahead of it settled, or at a priority that it had
itself before. -/
theorem settledBut_restored (acyclic : Acyclic table) (settled : Settled table)
    (notLower : rank table me ≤ priority) :
    SettledBut (restored table me base donors priority) me := by
  have edges : (restored table me base donors priority).Awaits = table.Awaits :=
    (restored_sameGraph found perm).awaits
  refine ⟨coveredBut_restored live accounted found perm fits settled.toCovered, fun t => ?_⟩
  by_cases edge : table.Awaits me t
  · have other : t ≠ me := by
      rintro rfl
      exact acyclic t (.single edge)
    rw [edges, rank_restored live, baseRank_restored live, rank_restored live, if_neg other,
      if_neg other, if_pos rfl]
    rcases settled.attained t with own | ⟨d, edge', given⟩
    · exact Or.inl own
    · by_cases mine : d = me
      · subst mine
        exact Or.inr (Or.inr ⟨edge, given ▸ notLower⟩)
      · exact Or.inr (Or.inl ⟨d, edge', by rw [rank_restored live, if_neg mine, given]⟩)
  · rcases attained_restored live accounted found perm fits acyclic settled edge with own | given
    · exact Or.inl own
    · exact Or.inr (Or.inl given)

end Restored

/-! ### The walk -/

/-- Where everybody covers those behind it, a walk lifts nobody. -/
theorem Walks.idle {walker : ThreadId} {left hops : Nat} {run : Run ThreadTable Nat}
    (course : Walks me table left walker hops run) (covered : Covered table) :
    run.state = table := by
  induction course with
  | arrives | returns | stops => rfl
  | @hop table left hops walker holder events run edge onward live quiet rest ih =>
    have same : lifted table walker holder = table :=
      if_neg (Nat.not_lt.mpr (covered.rank_le walker holder edge))
    rw [same] at ih
    exact ih covered

section ChangeBase

variable (arena : Arena table) (accounted : Accounted table) (acyclic : Acyclic table)
  (found : table.get? me = some r) (donating : mode.donates = true)
include arena accounted acyclic found donating

/-- To set a base priority is to recompute the priority of the thread, and to walk on from there. A
thread that waits for nothing has its walk behind it. -/
theorem changeBase_course (base : Priority) :
    ∃ donors priority left total run, donors.Perm r.donors ∧ Fits table base donors priority ∧
      Walks me (restored table me base donors priority) left me 0 run ∧
      (∀ e ∈ run.events, ¬ Revisits e) ∧ run.outcome = .ok total ∧
      (changeBasePriority me base mode table).outcome = .ok priority ∧
      (changeBasePriority me base mode table).state = run.state := by
  have live := contains_of_get? found
  obtain ⟨donors, priority, events, perm, fits, -, changes⟩ :=
    changeBase_run_donating accounted found donating base
  have same : SameGraph table (restored table me base donors priority) :=
    restored_sameGraph found perm
  rw [changes]
  by_cases waiting : (table.waits me).isSome = true
  · rw [if_pos waiting]
    have accounts := same.accounted accounted
    have course : Walks me (restored table me base donors priority) _ me 0
        (donate me (restored table me base donors priority)) :=
      walks accounts ((same.contains me).trans live) _ 0
    obtain ⟨quiet, ⟨cycle, -⟩ | ⟨-, total, ok⟩⟩ := donate_outcome (same.shape.arena arena) accounts
      ((same.contains me).trans live) (onward_acyclic (same.acyclic acyclic))
    · exact absurd cycle (same.acyclic acyclic me)
    · refine ⟨donors, priority, _, total, _, perm, fits, course, quiet, ok, ?_⟩
      rcases hrun : donate me (restored table me base donors priority) with ⟨outcome, after, more⟩
      rw [hrun] at ok
      cases ok
      exact ⟨rfl, rfl⟩
  · rw [if_neg waiting]
    have last : (restored table me base donors priority).ahead? me = none := by
      unfold ahead?
      rw [same.waits, Option.not_isSome_iff_eq_none.mp waiting]
      rfl
    have quiet : ∀ e ∈ ([] : List Event), ¬ Revisits e := by simp
    exact ⟨donors, priority, 0, 0, _, perm, fits, .arrives last quiet, quiet, rfl, rfl, rfl⟩

/-- What a thread gets for its new base priority is what recomputation gives for everybody that is
not ahead of it, and for those ahead too unless the thread falls. If it falls, it falls alone. -/
theorem changeBase_recomputes (settled : Settled table) (base : Priority) :
    ∃ priority, (changeBasePriority me base mode table).outcome = .ok priority ∧
      rank (changeBasePriority me base mode table).state me = priority ∧
      (∀ t, baseRank (changeBasePriority me base mode table).state t =
        if t = me then base else baseRank table t) ∧
      (∀ t, ¬ table.Awaits me t ∨ rank table me ≤ priority →
        Attained (changeBasePriority me base mode table).state t) ∧
      (priority < rank table me → ∀ t, t ≠ me →
        rank (changeBasePriority me base mode table).state t = rank table t) := by
  have live := contains_of_get? found
  obtain ⟨donors, priority, left, total, run, perm, fits, course, quiet, ok, returned, state⟩ :=
    changeBase_course arena accounted acyclic found donating base
  have same : SameGraph table (restored table me base donors priority) :=
    restored_sameGraph found perm
  have own : rank run.state me = priority := by
    rw [course.rank_eq (same.acyclic acyclic me), rank_restored live, if_pos rfl]
  have bases : ∀ t, baseRank run.state t = if t = me then base else baseRank table t := by
    intro t
    rw [course.reranks.baseRank, baseRank_restored live]
  rw [returned, state]
  refine ⟨priority, rfl, own, bases, ?_⟩
  rcases Nat.lt_or_ge priority.level (rank table me).level with falls | stays
  · -- nobody ahead of the thread is below it, before and all the more after
    have covered : Covered (restored table me base donors priority) := by
      have but := coveredBut_restored live accounted found perm fits settled.toCovered
      refine ⟨but.base_le, fun d t edge => ?_⟩
      by_cases mine : d = me
      · subst mine
        have apart : t ≠ d := by
          rintro rfl
          exact same.acyclic acyclic t (.single edge)
        rw [same.awaits] at edge
        rw [rank_restored live, rank_restored live, if_pos rfl, if_neg apart]
        exact Nat.le_trans (Nat.le_of_lt falls) (settled.rank_le d t edge)
      · exact but.rank_le d t edge mine
    rw [course.idle covered]
    refine ⟨fun t apart => ?_, fun _ t other => ?_⟩
    · refine attained_restored live accounted found perm fits acyclic settled ?_
      exact apart.resolve_right (Nat.not_le_of_lt falls)
    · rw [rank_restored live, if_neg other]
  · have after : Settled run.state := course.settled quiet ok
      (settledBut_restored live accounted found perm fits acyclic settled stays)
    exact ⟨fun t _ => after.attained t, fun falls => absurd falls (Nat.not_lt_of_le stays)⟩

end ChangeBase

end KernelSync.Donation

namespace KernelSync.System

open ThreadTable Donation Relation

variable {s : System} {t : ThreadId}

/-- In a steady run with donation the base priority of any live thread can be set to any value, and
everybody's base priority and wait chain are as one expects. Every priority is then the greatest
base priority along the chains that lead to the thread, and to recompute it changes nothing; only if
the priority of `t` has fallen, those ahead of `t` are not followed up, as everybody but `t` stays
where it was. -/
theorem rebased_priorities (reachable : Reachable steady s)
    (donating : s.kernel.mode.donates = true) (live : s.table.contains t = true)
    (base : Priority) :
    ∃ priority after events,
      changeBasePriority t base s.kernel.mode s.table = ⟨.ok priority, after, events⟩ ∧
      rank after t = priority ∧ SameGraph s.table after ∧
      (∀ u, baseRank after u = if u = t then base else baseRank s.table u) ∧
      (∀ u r, after.get? u = some r →
        (¬ TransGen s.table.Awaits t u ∨ rank s.table t ≤ priority) →
          IsGreatest {level | ∃ v rv, after.get? v = some rv ∧ ReflTransGen after.Awaits v u ∧
            rv.basePriority.level = level} r.priority.level ∧
          ∃ later more, updateDonation u after = ⟨.ok r.priority, later, more⟩ ∧
            rank later = rank after) ∧
      (priority < rank s.table t → ∀ u, u ≠ t → rank after u = rank s.table u) := by
  have arena := reachable.orderly.sound.arena
  have accounted := reachable.orderly.sound.accounted
  have acyclic := reachable.acyclic donating
  have settled := reachable.settled donating
  obtain ⟨r, found⟩ := contains_iff.mp live
  have same : SameGraph s.table (changeBasePriority t base s.kernel.mode s.table).state :=
    changeBase_sameGraph accounted
  have covered := @changeBase_covered _ _ base _ arena accounted acyclic live donating
    settled.toCovered
  obtain ⟨priority, returned, own, bases, attained, alone⟩ :=
    changeBase_recomputes arena accounted acyclic found donating settled base
  rcases hrun : changeBasePriority t base s.kernel.mode s.table with ⟨outcome, after, events⟩
  rw [hrun] at same covered returned own bases attained alone
  cases returned
  refine ⟨priority, after, events, rfl, own, same, bases, fun u ru foundAfter cond => ?_, alone⟩
  have behind : ∀ v, ReflTransGen after.Awaits v u → Attained after v := by
    intro v leads
    refine attained v (cond.imp_left fun apart edge => apart ?_)
    rw [same.awaits] at leads
    exact TransGen.head' edge leads
  exact ⟨isGreatest_of_attained (same.acyclic acyclic) behind covered foundAfter,
    updateDonation_idle (same.accounted accounted) covered (behind u .refl) foundAfter⟩

/-! The holder of base 10 again, whose lock a thread of base 40 queues for. -/

/-- The table of `s` after the second thread of `contention` has got another base priority. -/
def rebasedWaiter (s : System) (base : Priority) : ThreadTable :=
  (changeBasePriority ⟨1, 0⟩ base s.kernel.mode s.table).state

/-- Raised to 50, the waiter takes the holder along. -/
theorem raised_waiter_takes_holder_along : ∃ s r,
    play steady contention (start 2 .priorityDonation) = some s ∧
      s.kernel.mode.donates = true ∧ s.table.contains ⟨1, 0⟩ = true ∧
      (rebasedWaiter s ⟨50, by decide⟩).get? ⟨0, 0⟩ = some r ∧ r.priority.level = 50 ∧
      IsGreatest {level | ∃ v rv, (rebasedWaiter s ⟨50, by decide⟩).get? v = some rv ∧
        ReflTransGen (rebasedWaiter s ⟨50, by decide⟩).Awaits v ⟨0, 0⟩ ∧
          rv.basePriority.level = level} 50 := by
  have plays : (play steady contention (start 2 .priorityDonation)).map
      (fun s => (s.kernel.mode.donates, s.table.contains ⟨1, 0⟩, rank s.table ⟨1, 0⟩,
        rank (rebasedWaiter s ⟨50, by decide⟩) ⟨1, 0⟩,
        (rebasedWaiter s ⟨50, by decide⟩).get? ⟨0, 0⟩)) =
        some (true, true, ⟨40, by decide⟩, ⟨50, by decide⟩,
          some ⟨"low", ⟨50, by decide⟩, ⟨10, by decide⟩, none, [⟨1, 0⟩]⟩) := by
    decide +kernel
  obtain ⟨s, played, facts⟩ := Option.map_eq_some_iff.mp plays
  obtain ⟨donating, live, before, own, found⟩ : s.kernel.mode.donates = true ∧
      s.table.contains ⟨1, 0⟩ = true ∧ rank s.table ⟨1, 0⟩ = _ ∧
      rank (rebasedWaiter s ⟨50, by decide⟩) ⟨1, 0⟩ = _ ∧
      (rebasedWaiter s ⟨50, by decide⟩).get? ⟨0, 0⟩ = some _ := by
    simpa only [Prod.mk.injEq] using facts
  have reachable : Reachable steady s := (Reachable.start (by decide)).play played
  obtain ⟨priority, after, events, run, same, -, -, recomputed, -⟩ :=
    rebased_priorities reachable donating live ⟨50, by decide⟩
  obtain rfl : rebasedWaiter s ⟨50, by decide⟩ = after := by
    unfold rebasedWaiter
    rw [run]
  refine ⟨s, _, played, donating, live, found, rfl, (recomputed _ _ found (Or.inr ?_)).1⟩
  rw [before, ← same, own]
  decide

/-- Lowered to 5, the waiter leaves the holder at 40, though no base priority on the way to the
holder is above 10, and to recompute its priority gives 10. -/
theorem lowered_waiter_leaves_holder : ∃ s r,
    play steady contention (start 2 .priorityDonation) = some s ∧
      s.kernel.mode.donates = true ∧ s.table.contains ⟨1, 0⟩ = true ∧
      (rebasedWaiter s ⟨5, by decide⟩).get? ⟨0, 0⟩ = some r ∧ r.priority.level = 40 ∧
      (¬ IsGreatest {level | ∃ v rv, (rebasedWaiter s ⟨5, by decide⟩).get? v = some rv ∧
        ReflTransGen (rebasedWaiter s ⟨5, by decide⟩).Awaits v ⟨0, 0⟩ ∧
          rv.basePriority.level = level} r.priority.level) ∧
      rank (updateDonation ⟨0, 0⟩ (rebasedWaiter s ⟨5, by decide⟩)).state ⟨0, 0⟩ =
        ⟨10, by decide⟩ := by
  have plays : (play steady contention (start 2 .priorityDonation)).map
      (fun s => (s.kernel.mode.donates, s.table.contains ⟨1, 0⟩,
        (rebasedWaiter s ⟨5, by decide⟩).get? ⟨0, 0⟩,
        (rebasedWaiter s ⟨5, by decide⟩).entries.map (·.2.basePriority.level),
        rank (updateDonation ⟨0, 0⟩ (rebasedWaiter s ⟨5, by decide⟩)).state ⟨0, 0⟩)) =
        some (true, true, some ⟨"low", ⟨40, by decide⟩, ⟨10, by decide⟩, none, [⟨1, 0⟩]⟩, [10, 5],
          ⟨10, by decide⟩) := by
    decide +kernel
  obtain ⟨s, played, facts⟩ := Option.map_eq_some_iff.mp plays
  obtain ⟨donating, live, found, bases, recomputed⟩ : s.kernel.mode.donates = true ∧
      s.table.contains ⟨1, 0⟩ = true ∧
      (rebasedWaiter s ⟨5, by decide⟩).get? ⟨0, 0⟩ = some _ ∧
      (rebasedWaiter s ⟨5, by decide⟩).entries.map (·.2.basePriority.level) = [10, 5] ∧
      rank (updateDonation ⟨0, 0⟩ (rebasedWaiter s ⟨5, by decide⟩)).state ⟨0, 0⟩ = _ := by
    simpa only [Prod.mk.injEq] using facts
  have sound := ((Reachable.start (by decide)).play played : Reachable steady s).orderly.sound
  have arena : Arena (rebasedWaiter s ⟨5, by decide⟩) :=
    (changeBase_sameGraph sound.accounted).shape.arena sound.arena
  refine ⟨s, _, played, donating, live, found, rfl, ?_, recomputed⟩
  rintro ⟨⟨v, rv, foundV, -, level⟩, -⟩
  have mem := List.mem_map_of_mem (f := (·.2.basePriority.level))
    ((mem_entries_iff arena).mpr foundV)
  rw [bases, level] at mem
  exact absurd mem (by decide)

end KernelSync.System
