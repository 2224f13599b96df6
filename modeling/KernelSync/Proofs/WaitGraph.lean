import Mathlib.Data.Finite.Prod
import Mathlib.Data.Fintype.Card
import Mathlib.Logic.Relation
import Mathlib.Order.Bounds.Basic
import KernelSync.Proofs.Arena
import KernelSync.Proofs.DonorLists

/-!
The wait graph: which thread awaits which, through the lock it waits for and the holder of that
lock. `Accounted` says that the donor lists are this graph read backwards, and `Settled` that each
priority is the greatest of a base priority and the priorities of those that await the thread. In a
table without a cycle of waiting threads, a settled priority is the greatest base priority found
along all wait chains that end at the thread (`isGreatest_of_settled`).
-/

namespace KernelSync.ThreadTable

open Relation Donation

variable {table table' : ThreadTable} {t u v me : ThreadId} {r : ThreadRecord}

/-- `t` waits for a lock that `u` holds. -/
def Awaits (table : ThreadTable) (t u : ThreadId) : Prop := table.ahead? t = some u

/-- Nobody waits for a lock that, over any number of other threads, waits for them. -/
def Acyclic (table : ThreadTable) : Prop := ∀ t, ¬ TransGen table.Awaits t t

/-- Donor lists and holders are those of live threads, and the donors of a thread are those that
await it, each listed once. -/
structure Accounted (table : ThreadTable) : Prop where
  mem_donors_iff : ∀ h r, table.get? h = some r → ∀ d, d ∈ r.donors ↔ table.Awaits d h
  donors_nodup : ∀ h r, table.get? h = some r → r.donors.Nodup
  holder_live : ∀ lock h, table.holder? lock = some h → table.contains h = true

/-- No thread is below its base priority, or below a thread that awaits it. -/
structure Covered (table : ThreadTable) : Prop where
  base_le : ∀ t, baseRank table t ≤ rank table t
  rank_le : ∀ d t, table.Awaits d t → rank table d ≤ rank table t

/-- Every thread has the greatest of its base priority and the priorities of those that await
it. -/
structure Settled (table : ThreadTable) : Prop extends Covered table where
  attained : ∀ t, rank table t = baseRank table t ∨
    ∃ d, table.Awaits d t ∧ rank table t = rank table d

/-! ### Edges -/

theorem Awaits.unique (first : table.Awaits t u) (second : table.Awaits t v) : u = v :=
  Option.some.inj (first.symm.trans second)

theorem awaits_iff :
    table.Awaits t u ↔ ∃ lock, table.waits t = some lock ∧ table.holder? lock = some u :=
  ahead?_eq_some_iff

theorem Awaits.contains (edge : table.Awaits t u) : table.contains t = true :=
  contains_of_ahead? edge

theorem not_awaits_of_waits_none (idle : table.waits t = none) : ¬ table.Awaits t u := by
  rw [awaits_iff]
  rintro ⟨lock, waiting, -⟩
  rw [idle] at waiting
  exact nomatch waiting

/-- A chain starts with a thread that waits for a lock. -/
theorem waits_of_transGen (chain : TransGen table.Awaits t u) :
    ∃ lock, table.waits t = some lock := by
  obtain ⟨next, edge, -⟩ := TransGen.head'_iff.mp chain
  obtain ⟨lock, waiting, -⟩ := awaits_iff.mp edge
  exact ⟨lock, waiting⟩

theorem Accounted.live_of_awaits (accounted : Accounted table) (edge : table.Awaits t u) :
    table.contains u = true := by
  obtain ⟨lock, -, held⟩ := awaits_iff.mp edge
  exact accounted.holder_live lock u held

theorem Accounted.donors_live (accounted : Accounted table) (found : table.get? t = some r) :
    ∀ d ∈ r.donors, table.contains d = true := fun d mem =>
  ((accounted.mem_donors_iff t r found d).mp mem).contains

/-- Tables in which every thread has the same thread ahead of it have the same edges. -/
theorem awaits_congr (same : ∀ t, table'.ahead? t = table.ahead? t) :
    table'.Awaits = table.Awaits := by
  funext t u
  unfold Awaits
  rw [same]

/-- Donor lists stay accounted for if edges and members stay. -/
theorem Accounted.congr (accounted : Accounted table) (edges : table'.Awaits = table.Awaits)
    (donors : ∀ id r, table'.get? id = some r →
      ∃ r', table.get? id = some r' ∧ r.donors.Perm r'.donors)
    (holders : ∀ lock h, table'.holder? lock = some h → table'.contains h = true) :
    Accounted table' where
  mem_donors_iff := by
    intro h r found d
    obtain ⟨r', found', perm⟩ := donors h r found
    rw [edges, ← accounted.mem_donors_iff h r' found' d, perm.mem_iff]
  donors_nodup := by
    intro h r found
    obtain ⟨r', found', perm⟩ := donors h r found
    exact perm.nodup_iff.mpr (accounted.donors_nodup h r' found')
  holder_live := holders

/-! ### Cycles -/

theorem Acyclic.mono (acyclic : Acyclic table)
    (fewer : ∀ t u, table'.Awaits t u → table.Awaits t u) : Acyclic table' :=
  fun t cycle => acyclic t (TransGen.mono fewer t t cycle)

theorem Acyclic.congr (acyclic : Acyclic table) (edges : table'.Awaits = table.Awaits) :
    Acyclic table' := by
  unfold Acyclic
  rw [edges]
  exact acyclic

/-- If all new edges touch `me`, a chain either is an old one or passes through `me`. -/
theorem chain_old_or_through
    (edges : ∀ t u, table'.Awaits t u → table.Awaits t u ∨ t = me ∨ u = me)
    (chain : TransGen table'.Awaits t u) :
    TransGen table.Awaits t u ∨
      ReflTransGen table'.Awaits t me ∧ ReflTransGen table'.Awaits me u := by
  induction chain with
  | single edge =>
    rcases edges _ _ edge with old | rfl | rfl
    · exact Or.inl (.single old)
    · exact Or.inr ⟨.refl, .single edge⟩
    · exact Or.inr ⟨.single edge, .refl⟩
  | tail before edge ih =>
    rcases ih with old | ⟨into, out⟩
    · rcases edges _ _ edge with older | rfl | rfl
      · exact Or.inl (old.tail older)
      · exact Or.inr ⟨before.to_reflTransGen, .single edge⟩
      · exact Or.inr ⟨(before.tail edge).to_reflTransGen, .refl⟩
    · exact Or.inr ⟨into, out.tail edge⟩

/-- New edges close no cycle if they all touch `me` and `me` is on no cycle. -/
theorem Acyclic.of_edges (acyclic : Acyclic table)
    (edges : ∀ t u, table'.Awaits t u → table.Awaits t u ∨ t = me ∨ u = me)
    (apart : ¬ TransGen table'.Awaits me me) : Acyclic table' := by
  intro t cycle
  rcases chain_old_or_through edges cycle with old | ⟨into, out⟩
  · exact acyclic t old
  · exact apart ((TransGen.trans_right out cycle).trans_left into)

instance : Finite ThreadId :=
  Finite.of_injective (fun t : ThreadId => (t.slot.toFin, t.generation.toFin)) <| by
    rintro ⟨slot, generation⟩ ⟨slot', generation'⟩ same
    simp only [Prod.mk.injEq, UInt32.toFin_inj] at same
    obtain ⟨rfl, rfl⟩ := same
    rfl

/-- Without a cycle the chains that lead to a thread are of bounded length. -/
theorem Acyclic.wellFounded (acyclic : Acyclic table) : WellFounded table.Awaits := by
  have irrefl : Std.Irrefl (TransGen table.Awaits) := ⟨acyclic⟩
  have chains := Finite.wellFounded_of_trans_of_irrefl (TransGen table.Awaits)
  exact Subrelation.wf (fun edge => TransGen.single edge) chains

/-! ### Tables with the same graph -/

/-- The tables have the same live threads, waiting for the same locks with the same holders; donor
lists may be in another order. -/
structure SameGraph (before after : ThreadTable) : Prop where
  waiting : Agree (·.waitingOn) before after
  donors : ∀ id r, after.get? id = some r →
    ∃ r', before.get? id = some r' ∧ r.donors.Perm r'.donors
  holdings : after.holdings = before.holdings
  shape : SameShape before after

theorem SameGraph.refl (table : ThreadTable) : SameGraph table table :=
  ⟨Agree.refl _ _, fun _ r found => ⟨r, found, .refl _⟩, rfl, .refl _⟩

theorem SameGraph.trans {table'' : ThreadTable} (first : SameGraph table table')
    (second : SameGraph table' table'') : SameGraph table table'' where
  waiting := first.waiting.trans second.waiting
  donors := by
    intro id r found
    obtain ⟨r', found', perm'⟩ := second.donors id r found
    obtain ⟨r'', found'', perm''⟩ := first.donors id r' found'
    exact ⟨r'', found'', perm'.trans perm''⟩
  holdings := second.holdings.trans first.holdings
  shape := first.shape.trans second.shape

/-- To change priorities and the order of the donors of one thread leaves the graph. -/
theorem sameGraph_modify {f : ThreadRecord → ThreadRecord}
    (waiting : ∀ r, (f r).waitingOn = r.waitingOn)
    (donors : ∀ r, table.get? t = some r → (f r).donors.Perm r.donors) :
    SameGraph table (table.modify t f) where
  waiting := agree_modify fun r _ => waiting r
  donors := by
    intro id r found
    by_cases here : id = t
    · subst here
      obtain ⟨r', found'⟩ := contains_iff.mp
        (contains_modify.symm.trans (contains_of_get? found))
      obtain rfl := Option.some.inj ((get?_modify_self found').symm.trans found)
      exact ⟨r', found', donors r' found'⟩
    · rw [get?_modify_of_ne here] at found
      exact ⟨r, found, .refl _⟩
  holdings := rfl
  shape := sameShape_modify t f

section SameGraph

variable (same : SameGraph table table')
include same

theorem SameGraph.contains (id : ThreadId) : table'.contains id = table.contains id :=
  same.waiting.contains id

theorem SameGraph.holder? (lock : LockId) : table'.holder? lock = table.holder? lock := by
  unfold ThreadTable.holder?
  rw [same.holdings]

theorem SameGraph.waits (id : ThreadId) : table'.waits id = table.waits id :=
  same.waiting.waits id

theorem SameGraph.awaits : table'.Awaits = table.Awaits :=
  awaits_congr (same.waiting.ahead? same.holder?)

theorem SameGraph.acyclic (acyclic : Acyclic table) : Acyclic table' :=
  acyclic.congr same.awaits

theorem SameGraph.accounted (accounted : Accounted table) : Accounted table' := by
  refine accounted.congr same.awaits same.donors fun lock h held => ?_
  rw [same.holder?] at held
  rw [same.contains]
  exact accounted.holder_live lock h held

end SameGraph

/-! ### Settled priorities -/

section Isolated

variable (edges : table'.Awaits = table.Awaits)
  (alone : ∀ d, ¬ table.Awaits d t ∧ ¬ table.Awaits t d)
  (ranks : ∀ u, u ≠ t → rank table' u = rank table u ∧ baseRank table' u = baseRank table u)
  (own : rank table' t = baseRank table' t)
include edges alone ranks own

/-- A thread that awaits nobody and is awaited by nobody may come and go. -/
theorem Covered.of_isolated (covered : Covered table) : Covered table' where
  base_le := by
    intro u
    by_cases here : u = t
    · subst here
      rw [own]
      exact Nat.le_refl _
    · rw [(ranks u here).1, (ranks u here).2]
      exact covered.base_le u
  rank_le := by
    intro d u edge
    rw [edges] at edge
    have giver : d ≠ t := by
      rintro rfl
      exact (alone u).2 edge
    have receiver : u ≠ t := by
      rintro rfl
      exact (alone d).1 edge
    rw [(ranks d giver).1, (ranks u receiver).1]
    exact covered.rank_le d u edge

theorem Settled.of_isolated (settled : Settled table) : Settled table' where
  toCovered := settled.toCovered.of_isolated edges alone ranks own
  attained := by
    intro u
    by_cases here : u = t
    · subst here
      exact Or.inl own
    · rw [(ranks u here).1, (ranks u here).2, edges]
      refine (settled.attained u).imp_right ?_
      rintro ⟨d, edge, level⟩
      have giver : d ≠ t := by
        rintro rfl
        exact (alone u).2 edge
      exact ⟨d, edge, by rw [(ranks d giver).1, level]⟩

end Isolated

section Congr

variable (edges : table'.Awaits = table.Awaits) (ranks : rank table' = rank table)
  (bases : baseRank table' = baseRank table)
include edges ranks bases

theorem Covered.congr (covered : Covered table) : Covered table' := by
  constructor
  · rw [ranks, bases]
    exact covered.base_le
  · rw [ranks, edges]
    exact covered.rank_le

theorem Settled.congr (settled : Settled table) : Settled table' := by
  refine ⟨settled.toCovered.congr edges ranks bases, ?_⟩
  rw [ranks, bases, edges]
  exact settled.attained

end Congr

/-- A thread that nobody awaits has its base priority. -/
theorem Settled.priority_eq_base (settled : Settled table) (found : table.get? t = some r)
    (nobody : ∀ d, ¬ table.Awaits d t) : r.priority = r.basePriority := by
  rcases settled.attained t with own | ⟨d, edge, -⟩
  · rwa [rank_of_get? found, baseRank_of_get? found] at own
  · exact absurd edge (nobody d)

/-- Priorities do not fall along a wait chain. -/
theorem Covered.rank_le_of_chain (covered : Covered table)
    (chain : ReflTransGen table.Awaits u t) : rank table u ≤ rank table t := by
  induction chain with
  | refl => exact Nat.le_refl _
  | tail before edge ih => exact Nat.le_trans ih (covered.rank_le _ _ edge)

/-- `t` has its base priority, or the priority of a thread that awaits it. -/
def Attained (table : ThreadTable) (t : ThreadId) : Prop :=
  rank table t = baseRank table t ∨ ∃ d, table.Awaits d t ∧ rank table t = rank table d

section Attained

variable (acyclic : Acyclic table)
  (attained : ∀ u, ReflTransGen table.Awaits u t → Attained table u)
include acyclic attained

/-- Without cycles, some thread whose chain ends at `t` has the priority of `t` as its base. -/
theorem exists_base (live : table.contains t = true) :
    ∃ u, table.contains u = true ∧ ReflTransGen table.Awaits u t ∧
      baseRank table u = rank table t := by
  -- by induction on the chains that lead to `t`
  induction t using acyclic.wellFounded.induction with
  | h t ih =>
    rcases attained t .refl with own | ⟨d, edge, same⟩
    · exact ⟨t, live, .refl, own.symm⟩
    · obtain ⟨u, start, chain, base⟩ :=
        ih d edge (fun u leads => attained u (leads.tail edge)) edge.contains
      exact ⟨u, start, chain.tail edge, base.trans same.symm⟩

/-- Where every thread behind `t` is at its base priority or at that of a thread behind it, the
priority of `t` is the greatest base priority along the wait chains that end at it. -/
theorem isGreatest_of_attained (covered : Covered table) (found : table.get? t = some r) :
    IsGreatest {level | ∃ u ru, table.get? u = some ru ∧ ReflTransGen table.Awaits u t ∧
      ru.basePriority.level = level} r.priority.level := by
  rw [← rank_of_get? found]
  constructor
  · obtain ⟨u, start, chain, base⟩ := exists_base acyclic attained (contains_of_get? found)
    obtain ⟨ru, foundStart⟩ := contains_iff.mp start
    refine ⟨u, ru, foundStart, chain, ?_⟩
    rw [← baseRank_of_get? foundStart, base]
  · rintro level ⟨u, ru, foundStart, chain, rfl⟩
    rw [← baseRank_of_get? foundStart]
    exact Nat.le_trans (covered.base_le u) (covered.rank_le_of_chain chain)

end Attained

/-- A settled priority is the greatest base priority along the wait chains that end at the
thread. -/
theorem isGreatest_of_settled (settled : Settled table) (acyclic : Acyclic table)
    (found : table.get? t = some r) :
    IsGreatest {level | ∃ u ru, table.get? u = some ru ∧ ReflTransGen table.Awaits u t ∧
      ru.basePriority.level = level} r.priority.level :=
  isGreatest_of_attained acyclic (fun u _ => settled.attained u) settled.toCovered found

end KernelSync.ThreadTable
