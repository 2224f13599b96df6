import KernelSync.Lock
import KernelSync.Proofs.Walk

/-!
To take a lock or to give it up. Either changes who holds the lock, and with that the donors and the
priority of the one thread concerned (`revised`). Such a change keeps the donor lists accounted for,
closes no cycle of waiting threads, and leaves priorities covered or settled, as long as the thread
itself waits for nothing. `takeOwnership_run` and `giveUp_run` say that both operations come to such
a change and cannot fail for a thread that may make them.
-/

namespace KernelSync.Lock

open Stretch ThreadTable Donation Relation

variable {table : ThreadTable} {me holder t u d : ThreadId} {lock other : LockId}
  {r : ThreadRecord} {donors : List ThreadId} {priority : Priority} {holdings : Holdings}

/-! ### Changing one thread and the holders -/

/-- The table with other donors and another priority for `me`, and other holders. -/
def revised (table : ThreadTable) (me : ThreadId) (donors : List ThreadId) (priority : Priority)
    (holdings : Holdings) : ThreadTable :=
  { table.modify me ({ · with donors, priority }) with holdings }

/-- The edges of the graph that the locks awaited in `table` make with other holders. -/
def Regards (table : ThreadTable) (holdings : Holdings) (t u : ThreadId) : Prop :=
  ∃ lock, table.waits t = some lock ∧ holdings.holder? lock = some u

/-- The priority is no lower than a base priority and the donors'. -/
structure Clears (table : ThreadTable) (base : Priority) (donors : List ThreadId)
    (priority : Priority) : Prop where
  base_le : base ≤ priority
  rank_le : ∀ d ∈ donors, rank table d ≤ priority

/-- The priority is the one that a base priority and the donors call for. -/
structure Fits (table : ThreadTable) (base : Priority) (donors : List ThreadId)
    (priority : Priority) : Prop extends Clears table base donors priority where
  attained : priority = base ∨ ∃ d ∈ donors, priority = rank table d

/-- Covered, as far as threads other than `me` are concerned. -/
structure CoveredElsewhere (table : ThreadTable) (me : ThreadId) : Prop where
  base_le : ∀ t, t ≠ me → baseRank table t ≤ rank table t
  rank_le : ∀ d t, t ≠ me → table.Awaits d t → rank table d ≤ rank table t

/-- Settled, as far as threads other than `me` are concerned. -/
structure SettledElsewhere (table : ThreadTable) (me : ThreadId) : Prop
    extends CoveredElsewhere table me where
  attained : ∀ t, t ≠ me → rank table t = baseRank table t ∨
    ∃ d, table.Awaits d t ∧ rank table t = rank table d

theorem coveredElsewhere (covered : Covered table) : CoveredElsewhere table me :=
  ⟨fun t _ => covered.base_le t, fun d t _ => covered.rank_le d t⟩

theorem settledElsewhere (settled : Settled table) : SettledElsewhere table me :=
  ⟨coveredElsewhere settled.toCovered, fun t _ => settled.attained t⟩

theorem get?_revised : (revised table me donors priority holdings).get? t =
    if t = me then (table.get? me).map ({ · with donors, priority }) else table.get? t :=
  get?_modify table me t _

theorem get?_revised_self (found : table.get? me = some r) :
    (revised table me donors priority holdings).get? me = some { r with donors, priority } :=
  get?_modify_self found

theorem contains_revised :
    (revised table me donors priority holdings).contains t = table.contains t :=
  contains_modify

theorem waits_revised : (revised table me donors priority holdings).waits t = table.waits t := by
  have same : Agree (·.waitingOn) table (table.modify me ({ · with donors, priority })) :=
    agree_modify fun _ _ => rfl
  exact same.waits t

theorem holder?_revised :
    (revised table me donors priority holdings).holder? lock = holdings.holder? lock := rfl

theorem awaits_revised :
    (revised table me donors priority holdings).Awaits = Regards table holdings := by
  funext t u
  rw [awaits_iff]
  unfold Regards
  simp only [waits_revised, holder?_revised]

theorem baseRank_revised :
    baseRank (revised table me donors priority holdings) = baseRank table :=
  baseRank_of_agree (agree_modify fun _ _ => rfl)

theorem rank_revised (live : table.contains me = true) :
    rank (revised table me donors priority holdings) t =
      if t = me then priority else rank table t := by
  obtain ⟨r, found⟩ := contains_iff.mp live
  split
  · rename_i same
    subst same
    exact rank_of_get? (get?_revised_self found)
  · rename_i apart
    exact rank_modify_of_ne apart

theorem revised_sameShape : SameShape table (revised table me donors priority holdings) :=
  (sameShape_modify me _).trans (sameShape_holdings holdings)

theorem arena_revised (arena : Arena table) : Arena (revised table me donors priority holdings) :=
  revised_sameShape.arena arena

section Revised

variable (live : table.contains me = true)
  (others : ∀ d h, h ≠ me → (Regards table holdings d h ↔ table.Awaits d h))

include others in
/-- The donors of `me` have to be those that the new holders make its donors. -/
theorem accounted_revised (accounted : Accounted table) (nodup : donors.Nodup)
    (mem_iff : ∀ d, d ∈ donors ↔ Regards table holdings d me)
    (holders : ∀ lock h, holdings.holder? lock = some h → table.contains h = true) :
    Accounted (revised table me donors priority holdings) where
  mem_donors_iff := by
    intro h r found d
    rw [awaits_revised]
    rw [get?_revised] at found
    by_cases here : h = me
    · subst here
      rw [if_pos rfl] at found
      obtain ⟨before, -, rfl⟩ := Option.map_eq_some_iff.mp found
      exact mem_iff d
    · rw [if_neg here] at found
      rw [others d h here]
      exact accounted.mem_donors_iff h r found d
  donors_nodup := by
    intro h r found
    rw [get?_revised] at found
    by_cases here : h = me
    · rw [if_pos here] at found
      obtain ⟨before, -, rfl⟩ := Option.map_eq_some_iff.mp found
      exact nodup
    · rw [if_neg here] at found
      exact accounted.donors_nodup h r found
  holder_live := by
    intro lock h held
    rw [contains_revised]
    exact holders lock h held

include live others in
/-- The thread ahead of `me`, if there is one, may be left behind. -/
theorem coveredBut_revised (covered : CoveredElsewhere table me)
    (clears : Clears table (baseRank table me) donors priority)
    (mem_iff : ∀ d, d ∈ donors ↔ Regards table holdings d me) :
    CoveredBut (revised table me donors priority holdings) me where
  base_le := by
    intro t
    rw [baseRank_revised, rank_revised live]
    split
    · rename_i same
      exact same ▸ clears.base_le
    · rename_i other
      exact covered.base_le t other
  rank_le := by
    intro d t edge apart
    rw [awaits_revised] at edge
    rw [rank_revised live, rank_revised live, if_neg apart]
    split
    · rename_i same
      exact clears.rank_le d ((mem_iff d).mpr (same ▸ edge))
    · rename_i other
      exact covered.rank_le d t other ((others d t other).mp edge)

variable (idle : table.waits me = none)

include idle in
theorem not_regards_of_waits_none : ¬ Regards table holdings me u := by
  rintro ⟨lock, waiting, -⟩
  rw [idle] at waiting
  exact nomatch waiting

include others idle in
/-- A thread that waits for nothing closes no cycle, whatever it takes or gives up. -/
theorem acyclic_revised (acyclic : Acyclic table) :
    Acyclic (revised table me donors priority holdings) := by
  have edges : ∀ d h, (revised table me donors priority holdings).Awaits d h →
      table.Awaits d h ∨ d = me ∨ h = me := by
    intro d h edge
    rw [awaits_revised] at edge
    by_cases here : h = me
    · exact Or.inr (Or.inr here)
    · exact Or.inl ((others d h here).mp edge)
  refine acyclic.of_edges edges fun cycle => ?_
  obtain ⟨lock, waiting⟩ := waits_of_transGen cycle
  rw [waits_revised, idle] at waiting
  exact nomatch waiting

include live others idle in
/-- Nobody is ahead of a thread that waits for nothing, so only its own priority has to fit. -/
theorem covered_revised (covered : CoveredElsewhere table me)
    (clears : Clears table (baseRank table me) donors priority)
    (mem_iff : ∀ d, d ∈ donors ↔ Regards table holdings d me) :
    Covered (revised table me donors priority holdings) := by
  refine (coveredBut_revised live others covered clears mem_iff).arrived ?_
  unfold ahead?
  rw [waits_revised, idle]
  rfl

include live others idle in
theorem settled_revised (settled : SettledElsewhere table me)
    (fits : Fits table (baseRank table me) donors priority)
    (mem_iff : ∀ d, d ∈ donors ↔ Regards table holdings d me) :
    Settled (revised table me donors priority holdings) := by
  have covered := covered_revised live others idle settled.toCoveredElsewhere fits.toClears mem_iff
  refine ⟨covered, fun t => ?_⟩
  rw [baseRank_revised, awaits_revised, rank_revised live]
  have kept : ∀ d, Regards table holdings d t →
      rank (revised table me donors priority holdings) d = rank table d := by
    intro d edge
    have apart : d ≠ me := by
      rintro rfl
      exact not_regards_of_waits_none idle edge
    rw [rank_revised live, if_neg apart]
  by_cases here : t = me
  · subst here
    rw [if_pos rfl]
    refine fits.attained.imp_right ?_
    rintro ⟨d, mem, level⟩
    have edge := (mem_iff d).mp mem
    exact ⟨d, edge, by rw [kept d edge, level]⟩
  · rw [if_neg here]
    refine (settled.attained t here).imp_right ?_
    rintro ⟨d, edge, level⟩
    have regards := (others d t here).mpr edge
    exact ⟨d, regards, by rw [kept d regards, level]⟩

end Revised

/-! ### Taking a lock and giving it up -/

/-- The donors are those that other holders give `me`. Under donation the priority is in line with
them, unless they are the same as before. -/
structure Revises (donates : Bool) (table : ThreadTable) (me : ThreadId) (holdings : Holdings)
    (donors : List ThreadId) (priority : Priority) : Prop where
  nodup : donors.Nodup
  mem_iff : ∀ d, d ∈ donors ↔ Regards table holdings d me
  plain : donates = false → priority = rank table me
  due : donates = true → Fits table (baseRank table me) donors priority ∨
    priority = rank table me ∧ ∀ d, Regards table holdings d me ↔ table.Awaits d me

section Revises

variable (revises : Revises true table me holdings donors priority)
include revises

theorem Revises.clears (covered : Covered table) :
    Clears table (baseRank table me) donors priority := by
  rcases revises.due rfl with fits | ⟨rfl, same⟩
  · exact fits.toClears
  · refine ⟨covered.base_le me, fun d mem => covered.rank_le d me ?_⟩
    exact (same d).mp ((revises.mem_iff d).mp mem)

theorem Revises.fits (settled : Settled table) :
    Fits table (baseRank table me) donors priority := by
  rcases revises.due rfl with fits | ⟨rfl, same⟩
  · exact fits
  · refine ⟨revises.clears settled.toCovered, (settled.attained me).imp_right ?_⟩
    rintro ⟨d, edge, level⟩
    exact ⟨d, (revises.mem_iff d).mpr ((same d).mpr edge), level⟩

end Revises

theorem regards_insert_iff (free : table.holder? lock = none) :
    Regards table (table.holdings.insert lock me) d t ↔
      table.Awaits d t ∨ table.waits d = some lock ∧ t = me := by
  unfold Regards
  rw [awaits_iff]
  constructor
  · rintro ⟨other, waiting, held⟩
    rw [Holdings.holder?_insert] at held
    by_cases same : other = lock
    · rw [if_pos same] at held
      exact Or.inr ⟨same ▸ waiting, (Option.some.inj held).symm⟩
    · rw [if_neg same] at held
      exact Or.inl ⟨other, waiting, held⟩
  · rintro (⟨other, waiting, held⟩ | ⟨waiting, rfl⟩)
    · refine ⟨other, waiting, ?_⟩
      have apart : other ≠ lock := by
        rintro rfl
        exact nomatch held.symm.trans free
      rw [Holdings.holder?_insert, if_neg apart]
      exact held
    · exact ⟨lock, waiting, by rw [Holdings.holder?_insert, if_pos rfl]⟩

theorem regards_erase_iff :
    Regards table (table.holdings.erase lock) d t ↔
      table.Awaits d t ∧ table.waits d ≠ some lock := by
  unfold Regards
  rw [awaits_iff]
  constructor
  · rintro ⟨other, waiting, held⟩
    rw [Holdings.holder?_erase] at held
    by_cases same : other = lock
    · rw [if_pos same] at held
      exact nomatch held
    · rw [if_neg same] at held
      refine ⟨⟨other, waiting, held⟩, fun awaited => ?_⟩
      exact same (Option.some.inj (waiting.symm.trans awaited))
  · rintro ⟨⟨other, waiting, held⟩, apart⟩
    have differ : other ≠ lock := by
      rintro rfl
      exact apart waiting
    refine ⟨other, waiting, ?_⟩
    rw [Holdings.holder?_erase, if_neg differ]
    exact held

/-- Only for the new holder do the edges change when a free lock is taken. -/
theorem others_insert (free : table.holder? lock = none) (apart : t ≠ me) :
    Regards table (table.holdings.insert lock me) d t ↔ table.Awaits d t := by
  rw [regards_insert_iff free]
  simp [apart]

/-- Only for the old holder do the edges change when a lock is given up. -/
theorem others_erase (held : table.holder? lock = some me) (apart : t ≠ me) :
    Regards table (table.holdings.erase lock) d t ↔ table.Awaits d t := by
  rw [regards_erase_iff]
  constructor
  · exact And.left
  · intro edge
    refine ⟨edge, fun waiting => ?_⟩
    obtain ⟨other, waits, holds⟩ := awaits_iff.mp edge
    obtain rfl := Option.some.inj (waits.symm.trans waiting)
    exact apart (Option.some.inj (holds.symm.trans held))

theorem holders_insert (accounted : Accounted table) (live : table.contains me = true)
    (held : (table.holdings.insert lock me).holder? other = some t) :
    table.contains t = true := by
  rw [Holdings.holder?_insert] at held
  split at held
  · exact Option.some.inj held ▸ live
  · exact accounted.holder_live other t held

theorem holders_erase (accounted : Accounted table)
    (held : (table.holdings.erase lock).holder? other = some t) : table.contains t = true := by
  rw [Holdings.holder?_erase] at held
  split at held
  · exact nomatch held
  · exact accounted.holder_live other t held

theorem mem_waitersOf (arena : Arena table) :
    d ∈ waitersOf table me lock ↔ d ≠ me ∧ table.waits d = some lock := by
  unfold waitersOf
  rw [List.mem_map]
  constructor
  · rintro ⟨⟨id, r⟩, mem, rfl⟩
    obtain ⟨entry, waiting⟩ := List.mem_filter.mp mem
    have found := (mem_entries_iff arena).mp entry
    simp only [Bool.and_eq_true, decide_eq_true_eq] at waiting
    exact ⟨waiting.1, (waits_of_get? found).trans waiting.2⟩
  · rintro ⟨apart, waiting⟩
    obtain ⟨r, found, awaited⟩ := waits_eq_some_iff.mp waiting
    refine ⟨(d, r), List.mem_filter.mpr ⟨(mem_entries_iff arena).mpr found, ?_⟩, rfl⟩
    simp [apart, awaited]

/-- The table with `me` the holder of `lock`, and nothing else changed. -/
def withHolder (table : ThreadTable) (lock : LockId) (me : ThreadId) : ThreadTable :=
  { table with holdings := table.holdings.insert lock me }

theorem setHolder_run (free : table.holder? lock = none) :
    setHolder lock me table = ⟨.ok (), withHolder table lock me, []⟩ := by
  simp [setHolder, withHolder, bind_run, free]

theorem adoptWaiters_run (arena : Arena table) (found : table.get? me = some r)
    (live : ∀ d ∈ r.donors, table.contains d = true) (nodup : r.donors.Nodup) :
    ∃ donors, adoptWaiters me lock table =
        ⟨.ok (waitersOf table me lock).length, table.modify me ({ · with donors }), []⟩ ∧
      donors.Nodup ∧ ∀ d, d ∈ donors ↔ d ∈ r.donors ∨ d ∈ waitersOf table me lock := by
  have waiting : ∀ d ∈ waitersOf table me lock, table.contains d = true := fun d mem =>
    contains_of_waits ((mem_waitersOf arena).mp mem).2
  obtain ⟨donors, adds, unique, mem_iff⟩ := addDonors_run found waiting live nodup
  refine ⟨donors, ?_, unique, mem_iff⟩
  unfold adoptWaiters
  rw [bind_run_ok (read_run _ _), bind_run_ok adds]
  rfl

/-- Recomputed donors and priority: the donors are the same, in another order. -/
theorem updateDonation_fits (found : table.get? me = some r)
    (live : ∀ d ∈ r.donors, table.contains d = true) :
    ∃ donors priority events, updateDonation me table =
        ⟨.ok priority, table.modify me ({ · with donors, priority }), events⟩ ∧
      donors.Perm r.donors ∧ Fits table r.basePriority donors priority ∧
      ∀ e ∈ events, ¬ Revisits e := by
  have quiet : ∀ e ∈ restoreEvents me r.priority
      (effective table r.basePriority (sortedByRank table r.donors)), ¬ Revisits e := by
    rintro e mem ⟨donor, walker, lock, hops, rfl⟩
    unfold restoreEvents at mem
    split at mem
    · simp at mem
    · exact absurd mem List.not_mem_nil
  have perm := sortedByRank_perm table r.donors
  obtain ⟨base_le, rank_le, attained⟩ := effective_spec table r.basePriority r.donors
  refine ⟨_, _, _, updateDonation_run found live, perm,
    ⟨⟨base_le, fun d mem => rank_le d (perm.mem_iff.mp mem)⟩, ?_⟩, quiet⟩
  refine attained.imp_right ?_
  rintro ⟨d, mem, level⟩
  exact ⟨d, perm.mem_iff.mpr mem, level⟩

theorem Fits.congr {table' : ThreadTable} {base : Priority} (same : rank table' = rank table)
    (fits : Fits table base donors priority) : Fits table' base donors priority := by
  refine ⟨⟨fits.base_le, ?_⟩, ?_⟩
  · rw [same]
    exact fits.rank_le
  · rw [same]
    exact fits.attained

/-- A new holder adopts those that the lock makes its donors, next to those that it has. -/
theorem adopts_run (arena : Arena table) (accounted : Accounted table)
    (found : table.get? me = some r) (idle : table.waits me = none)
    (free : table.holder? lock = none) :
    ∃ donors, adoptWaiters me lock (withHolder table lock me) =
        ⟨.ok (waitersOf (withHolder table lock me) me lock).length,
          (withHolder table lock me).modify me ({ · with donors }), []⟩ ∧
      donors.Nodup ∧
      (∀ d, d ∈ donors ↔ Regards table (table.holdings.insert lock me) d me) ∧
      ∀ d, d ∈ donors ↔ d ∈ r.donors ∨ d ∈ waitersOf (withHolder table lock me) me lock := by
  have arenaHeld : Arena (withHolder table lock me) := (sameShape_holdings _).arena arena
  have foundHeld : (withHolder table lock me).get? me = some r := found
  obtain ⟨adopted, adopts, nodup, mem_iff⟩ := @adoptWaiters_run _ me lock r arenaHeld foundHeld
    (accounted.donors_live found) (accounted.donors_nodup me r found)
  refine ⟨adopted, adopts, nodup, fun d => ?_, mem_iff⟩
  have waiting : d ∈ waitersOf (withHolder table lock me) me lock ↔
      d ≠ me ∧ table.waits d = some lock := mem_waitersOf arenaHeld
  rw [mem_iff, regards_insert_iff free, accounted.mem_donors_iff me r found, waiting]
  constructor
  · rintro (edge | ⟨-, waits⟩)
    · exact Or.inl edge
    · exact Or.inr ⟨waits, rfl⟩
  · rintro (edge | ⟨waits, -⟩)
    · exact Or.inl edge
    · refine Or.inr ⟨?_, waits⟩
      rintro rfl
      exact nomatch waits.symm.trans idle

/-- To become the holder of a free lock cannot fail. -/
theorem takeOwnership_run (arena : Arena table) (accounted : Accounted table)
    (found : table.get? me = some r) (idle : table.waits me = none)
    (free : table.holder? lock = none) (donates : Bool) :
    ∃ donors priority events, takeOwnership lock me donates table =
        ⟨.ok (), revised table me donors priority (table.holdings.insert lock me), events⟩ ∧
      Revises donates table me (table.holdings.insert lock me) donors priority := by
  have foundHeld : (withHolder table lock me).get? me = some r := found
  obtain ⟨adopted, adopts, nodup, regards, mem_iff⟩ := adopts_run arena accounted found idle free
  let grown : ThreadTable := (withHolder table lock me).modify me ({ · with donors := adopted })
  let count := (waitersOf (withHolder table lock me) me lock).length
  have foundGrown : grown.get? me = some { r with donors := adopted } :=
    get?_modify_self foundHeld
  unfold takeOwnership
  rw [bind_run_ok (setHolder_run free), bind_run_ok adopts]
  by_cases recompute : 0 < count ∧ donates = true
  · rw [if_pos recompute]
    have live : ∀ d ∈ adopted, grown.contains d = true := by
      intro d mem
      obtain ⟨_, waiting, -⟩ := (regards d).mp mem
      rw [contains_modify]
      exact contains_of_waits waiting
    obtain ⟨donors, priority, events, updates, perm, fits, -⟩ :=
      updateDonation_fits foundGrown live
    have ranks : rank grown = rank table := rank_modify fun _ => rfl
    rw [modify_modify] at updates
    refine ⟨donors, priority, events ++ [.log (.waitersAdopted me lock count priority)], ?_,
      perm.nodup_iff.mpr nodup, fun d => ?_, ?_, fun _ => ?_⟩
    · rw [bind_run_ok updates, log_run]
      rfl
    · rw [perm.mem_iff, regards]
    · intro plain
      rw [plain] at recompute
      exact nomatch recompute.2
    · rw [baseRank_of_get? found]
      exact Or.inl (fits.congr ranks.symm)
  · rw [if_neg recompute]
    refine ⟨adopted, r.priority, [], ?_, nodup, regards, fun _ => (rank_of_get? found).symm,
      fun donating => Or.inr ⟨(rank_of_get? found).symm, fun d => ?_⟩⟩
    · have same : table.modify me ({ · with donors := adopted, priority := r.priority }) =
          table.modify me ({ · with donors := adopted }) := modify_congr found rfl
      unfold revised
      rw [same]
      rfl
    · have nobody : d ∉ waitersOf (withHolder table lock me) me lock := by
        intro mem
        exact recompute ⟨List.length_pos_of_mem mem, donating⟩
      rw [← regards, mem_iff, accounted.mem_donors_iff me r found]
      simp [nobody]

/-- For its holder, to give up a lock cannot fail either. -/
theorem giveUp_run (accounted : Accounted table) (found : table.get? me = some r)
    (held : table.holder? lock = some me) (donates : Bool) :
    ∃ donors priority events, giveUp lock me donates table =
        ⟨.ok (), revised table me donors priority (table.holdings.erase lock), events⟩ ∧
      Revises donates table me (table.holdings.erase lock) donors priority := by
  have removes := @removeDonorsFor_run table me r lock found (accounted.donors_live found)
  let withdrawn := r.donors.countP fun d => table.waits d = some lock
  let kept := r.donors.filter fun d => table.waits d ≠ some lock
  let shrunk : ThreadTable := table.modify me ({ · with donors := kept })
  have foundShrunk : shrunk.get? me = some { r with donors := kept } := get?_modify_self found
  have nodup : kept.Nodup := (accounted.donors_nodup me r found).filter _
  have regards : ∀ d, d ∈ kept ↔ Regards table (table.holdings.erase lock) d me := by
    intro d
    rw [List.mem_filter, regards_erase_iff, accounted.mem_donors_iff me r found]
    simp
  unfold giveUp
  rw [bind_run_ok (read_run _ _), bind_run_ok (require_run held _ _), bind_run_ok removes]
  cases donates with
  | true =>
    have live : ∀ d ∈ kept, shrunk.contains d = true := by
      intro d mem
      rw [contains_modify]
      exact accounted.donors_live found d (List.mem_filter.mp mem).1
    obtain ⟨donors, priority, events, updates, perm, fits, -⟩ :=
      updateDonation_fits foundShrunk live
    have ranks : rank shrunk = rank table := rank_modify fun _ => rfl
    rw [modify_modify] at updates
    refine ⟨donors, priority, events ++ [.log (.donationsWithdrawn me lock withdrawn priority)], ?_,
      perm.nodup_iff.mpr nodup, fun d => ?_, nofun, fun _ => ?_⟩
    · rw [if_pos rfl, bind_run_ok updates, bind_run_ok (log_run _ _)]
      rfl
    · rw [perm.mem_iff, regards]
    · rw [baseRank_of_get? found]
      exact Or.inl (fits.congr ranks.symm)
  | false =>
    refine ⟨kept, r.priority, [], ?_, nodup, regards, fun _ => (rank_of_get? found).symm, nofun⟩
    have same : table.modify me ({ · with donors := kept, priority := r.priority }) = shrunk :=
      modify_congr found rfl
    rw [if_neg (by simp)]
    unfold revised
    rw [same]
    rfl

/-- Only the holder can give up a lock. -/
theorem giveUp_run_of_not (notMine : table.holder? lock ≠ some me) (donates : Bool) :
    giveUp lock me donates table =
      ⟨.error (.notReleasable me lock (table.holder? lock)), table, []⟩ := by
  unfold giveUp
  rw [bind_run_ok (read_run _ _), bind_run_error (require_run_of_not notMine _ _)]
  rfl

end KernelSync.Lock
