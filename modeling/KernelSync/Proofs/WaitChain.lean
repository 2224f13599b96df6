import Mathlib.Data.List.Nodup
import Mathlib.Data.Nat.Find
import KernelSync.Proofs.Walk

/-!
Wait chains in arbitrary tables. The chain of a thread is the sequence of those ahead of it: the
holder of the lock it waits for, the holder of the lock that one waits for, and so on. A chain ends,
or leads back to its first thread, or runs into a cycle that avoids that thread (`chain_shapes`). In
the first case a donation reaches the end and leaves each thread on the way at the greatest priority
up to there; in the second it fails; in the third it is stopped when it has used up as many hops as
there are live threads, and by then everybody on the chain has been reached (`donate_along_chain`).
-/

namespace KernelSync.ThreadTable

open Relation Donation

variable {table table' : ThreadTable} {t u v : ThreadId} {i j k n : Nat}

/-- The thread that is so many hops ahead of `t`. -/
def chain (table : ThreadTable) (t : ThreadId) : Nat → Option ThreadId
  | 0 => some t
  | hops + 1 => (chain table t hops).bind table.ahead?

/-! ### Sequences of threads -/

theorem chain_succ_of_some (here : table.chain t i = some u) :
    table.chain t (i + 1) = table.ahead? u := by
  unfold chain
  rw [here]
  rfl

theorem chain_succ_eq_some : table.chain t (i + 1) = some v ↔
    ∃ u, table.chain t i = some u ∧ table.Awaits u v :=
  Option.bind_eq_some_iff

/-- A chain goes on where its second thread's chain does. -/
theorem chain_cons (edge : table.Awaits t u) (i : Nat) :
    table.chain t (i + 1) = table.chain u i := by
  induction i with
  | zero => exact edge
  | succ i ih =>
    unfold chain
    rw [ih]

theorem chain_add (here : table.chain t i = some u) (k : Nat) :
    table.chain t (i + k) = table.chain u k := by
  induction k with
  | zero => exact here
  | succ k ih =>
    rw [← Nat.add_assoc]
    unfold chain
    rw [ih]

/-- From two places with the same thread a chain goes on alike. -/
theorem chain_repeats (same : table.chain t i = table.chain t j) (k : Nat) :
    table.chain t (i + k) = table.chain t (j + k) := by
  induction k with
  | zero => exact same
  | succ k ih =>
    rw [← Nat.add_assoc, ← Nat.add_assoc]
    unfold chain
    rw [ih]

theorem chain_none_of_le (ended : table.chain t i = none) (le : i ≤ j) :
    table.chain t j = none := by
  induction le with
  | refl => exact ended
  | step _ ih =>
    unfold chain
    rw [ih]
    rfl

theorem chain_isSome_of_le (there : (table.chain t j).isSome) (le : i ≤ j) :
    (table.chain t i).isSome := by
  by_contra ended
  rw [chain_none_of_le (Option.not_isSome_iff_eq_none.mp ended) le] at there
  cases there

theorem chain_congr (same : ∀ t, table'.ahead? t = table.ahead? t) :
    table'.chain = table.chain := by
  funext t i
  induction i with
  | zero => rfl
  | succ i ih =>
    unfold chain
    rw [ih]
    exact congrArg _ (funext same)

/-- On a chain are those to whom it leads. -/
theorem exists_chain_iff : (∃ i, table.chain t i = some u) ↔ ReflTransGen table.Awaits t u := by
  constructor
  · rintro ⟨i, here⟩
    induction i generalizing u with
    | zero =>
      cases here
      exact .refl
    | succ i ih =>
      obtain ⟨v, before, edge⟩ := chain_succ_eq_some.mp here
      exact (ih before).tail edge
  · intro leads
    induction leads with
    | refl => exact ⟨0, rfl⟩
    | tail _ edge ih =>
      obtain ⟨i, before⟩ := ih
      exact ⟨i + 1, chain_succ_eq_some.mpr ⟨_, before, edge⟩⟩

/-! ### How a chain can go on -/

/-- The first places of a chain have different threads. -/
def Simple (table : ThreadTable) (t : ThreadId) (n : Nat) : Prop :=
  ∀ i j, i < j → j ≤ n → table.chain t i ≠ table.chain t j

/-- Different live threads are no more than there are in the table. -/
theorem Simple.lt_live (simple : Simple table t n) (arena : Arena table)
    (live : ∀ u, ReflTransGen table.Awaits t u → table.contains u = true)
    (there : (table.chain t n).isSome) : n < table.live := by
  let member (i : Nat) : ThreadId := (table.chain t i).getD t
  have is : ∀ i ≤ n, table.chain t i = some (member i) := by
    intro i le
    obtain ⟨u, here⟩ := Option.isSome_iff_exists.mp (chain_isSome_of_le there le)
    have same : member i = u := by simp only [member, here, Option.getD_some]
    rw [here, same]
  have different : ((List.range (n + 1)).map member).Nodup := by
    refine List.Nodup.map_on (fun i memI j memJ same => ?_) List.nodup_range
    have leI : i ≤ n := Nat.le_of_lt_succ (List.mem_range.mp memI)
    have leJ : j ≤ n := Nat.le_of_lt_succ (List.mem_range.mp memJ)
    have equal : table.chain t i = table.chain t j := by rw [is i leI, is j leJ, same]
    rcases Nat.lt_trichotomy i j with before | here | after
    · exact absurd equal (simple i j before leJ)
    · exact here
    · exact absurd equal.symm (simple j i after leI)
  have few := length_le_live arena different fun u mem => by
    obtain ⟨i, memI, rfl⟩ := List.mem_map.mp mem
    have le : i ≤ n := Nat.le_of_lt_succ (List.mem_range.mp memI)
    exact live _ (exists_chain_iff.mp ⟨i, is i le⟩)
  rwa [List.length_map, List.length_range] at few

/-- A chain that ends repeats nobody. -/
theorem simple_of_ends (there : (table.chain t n).isSome) (ended : table.chain t (n + 1) = none) :
    Simple table t n := by
  intro i j before le same
  have onward := chain_repeats same (n + 1 - j)
  rw [show j + (n + 1 - j) = n + 1 by omega, ended] at onward
  rw [chain_none_of_le onward (by omega)] at there
  cases there

/-- A chain that returns does not end. -/
theorem chain_isSome_of_returns (back : table.chain t (k + 1) = some t) (n : Nat) :
    (table.chain t n).isSome := by
  have round : ∀ m, table.chain t ((k + 1) * m) = some t := by
    intro m
    induction m with
    | zero => rfl
    | succ m ih => rw [Nat.mul_succ, chain_add ih, back]
  refine chain_isSome_of_le (by rw [round n]; rfl) ?_
  exact Nat.le_mul_of_pos_left n (Nat.succ_pos k)

/-- A place that comes again does so among the first as many as there are live threads. -/
theorem exists_place_le_live (arena : Arena table)
    (live : ∀ u, ReflTransGen table.Awaits t u → table.contains u = true)
    (here : table.chain t i = some u) : ∃ j < table.live, table.chain t j = some u := by
  -- the first place of `u` has different threads before it
  have first := Nat.find_spec (⟨i, here⟩ : ∃ j, table.chain t j = some u)
  have least : ∀ m < Nat.find (⟨i, here⟩ : ∃ j, table.chain t j = some u),
      table.chain t m ≠ some u := fun m before => Nat.find_min _ before
  generalize Nat.find (⟨i, here⟩ : ∃ j, table.chain t j = some u) = j at first least
  refine ⟨j, ?_, first⟩
  have simple : Simple table t j := by
    intro a b before le same
    have onward := chain_repeats same (j - b)
    rw [show b + (j - b) = j by omega, first] at onward
    exact least (a + (j - b)) (by omega) onward
  exact simple.lt_live arena live (by rw [first]; rfl)

/-- The chain leads into a cycle that its first thread is not on. -/
structure RunsIntoCycle (table : ThreadTable) (t : ThreadId) : Prop where
  repeats : ∃ i j, i < j ∧ table.chain t i = table.chain t j ∧ (table.chain t i).isSome
  avoids : ∀ k, table.chain t (k + 1) ≠ some t

/-- A chain that is over has a last thread. -/
theorem exists_last (ended : table.chain t n = none) :
    ∃ m last, table.chain t m = some last ∧ table.ahead? last = none := by
  induction n with
  | zero => cases ended
  | succ n ih =>
    cases here : table.chain t n with
    | none => exact ih here
    | some last => exact ⟨n, last, here, (chain_succ_of_some here).symm.trans ended⟩

/-- A chain that runs into a cycle does not end. -/
theorem RunsIntoCycle.endless (cyclic : RunsIntoCycle table t) (n : Nat) :
    table.chain t n ≠ none := by
  intro ended
  obtain ⟨i, j, before, same, there⟩ := cyclic.repeats
  obtain ⟨m, last, here, ends⟩ := exists_last ended
  have gone : table.chain t (m + 1) = none := (chain_succ_of_some here).trans ends
  refine simple_of_ends (by rw [here]; rfl) gone i j before (Nat.le_of_not_lt fun beyond => ?_) same
  rw [same, chain_none_of_le gone beyond] at there
  cases there

/-- A chain ends, or returns to its first thread, or runs into a cycle elsewhere. -/
theorem chain_shapes (arena : Arena table)
    (live : ∀ u, ReflTransGen table.Awaits t u → table.contains u = true) :
    (∃ n last, table.chain t n = some last ∧ table.ahead? last = none) ∨
      (∃ k, table.chain t (k + 1) = some t) ∨ RunsIntoCycle table t := by
  by_cases returns : ∃ k, table.chain t (k + 1) = some t
  · exact Or.inr (Or.inl returns)
  · cases there : table.chain t table.live with
    | none => exact Or.inl (exists_last there)
    | some u =>
      obtain ⟨j, before, again⟩ := exists_place_le_live arena live there
      refine Or.inr (Or.inr ⟨⟨j, table.live, before, again.trans there.symm, ?_⟩, ?_⟩)
      · rw [again]
        rfl
      · exact fun k back => returns ⟨k, back⟩

end KernelSync.ThreadTable

namespace KernelSync.Donation

open ThreadTable Relation

variable {table : ThreadTable} {donor walker holder t u : ThreadId} {left hops i n : Nat}
  {run : Run ThreadTable Nat}

/-! ### Where a walk ends -/

/-- How a walk ends that sets out from `walker`: at the end of the chain, at the first return to the
donor, or after the last hop. -/
inductive Ends (donor : ThreadId) (table : ThreadTable) (left : Nat) (walker : ThreadId)
    (hops : Nat) : Except Fault Nat → Prop where
  | arrives {n : Nat} {last : ThreadId} (here : table.chain walker n = some last)
      (ends : table.ahead? last = none) : Ends donor table left walker hops (.ok (hops + n))
  | returns {n : Nat} {last : ThreadId} {lock : LockId} (here : table.chain walker n = some last)
      (waiting : table.waits last = some lock) (held : table.holder? lock = some donor)
      (first : ∀ i, 0 < i → i ≤ n → table.chain walker i ≠ some donor) :
      Ends donor table left walker hops (.error (.donationCycle donor lock))
  | stops (there : (table.chain walker (left + 1)).isSome)
      (onward : ∀ i, 0 < i → i ≤ left + 1 → table.chain walker i ≠ some donor) :
      Ends donor table left walker hops (.ok (hops + left))

theorem Walks.ends (course : Walks donor table left walker hops run) :
    Ends donor table left walker hops run.outcome := by
  induction course with
  | arrives last quiet => exact .arrives (n := 0) rfl last
  | returns edge waiting =>
    obtain ⟨lock, waits, held⟩ := awaits_iff.mp edge
    obtain rfl := Option.some.inj (waiting.symm.trans waits)
    exact .returns (n := 0) rfl waiting held (by omega)
  | stops edge onward bound =>
    have next := chain_cons edge 0
    refine .stops (by rw [next]; rfl) fun i pos le back => ?_
    obtain rfl : i = 1 := by omega
    exact onward (Option.some.inj (next.symm.trans back))
  | @hop table left hops walker holder events run edge onward live quiet rest ih =>
    have same := (lifted_reranks table walker holder).sameGraph
    have chains : (lifted table walker holder).chain = table.chain :=
      chain_congr (same.waiting.ahead? same.holder?)
    -- the hop to the holder comes before what the rest of the walk meets
    have later : ∀ {m}, (∀ i, 0 < i → i ≤ m → table.chain holder i ≠ some donor) →
        ∀ i, 0 < i → i ≤ m + 1 → table.chain walker i ≠ some donor := by
      intro m first i pos le back
      obtain ⟨i, rfl⟩ := Nat.exists_eq_succ_of_ne_zero (Nat.ne_of_gt pos)
      rw [Nat.succ_eq_add_one, chain_cons edge] at back
      rcases Nat.eq_zero_or_pos i with rfl | further
      · exact onward (Option.some.inj back)
      · exact first i further (Nat.le_of_succ_le_succ le) back
    show Ends donor table (left + 1) walker hops run.outcome
    generalize run.outcome = outcome at ih ⊢
    cases ih with
    | @arrives n last here ends =>
      rw [chains, ← chain_cons edge] at here
      rw [same.waiting.ahead? same.holder?] at ends
      rw [Nat.add_assoc, Nat.add_comm 1]
      exact .arrives here ends
    | @returns n last lock here waiting held first =>
      rw [chains] at here first
      rw [← chain_cons edge] at here
      rw [same.waits] at waiting
      rw [same.holder?] at held
      exact .returns here waiting held (later first)
    | stops there first =>
      rw [chains] at there first
      rw [← chain_cons edge] at there
      rw [Nat.add_assoc, Nat.add_comm 1]
      exact .stops there (later first)

/-! ### What a walk does to priorities -/

/-- Nobody is lowered. -/
theorem Walks.rank_le (course : Walks donor table left walker hops run) (t : ThreadId) :
    rank table t ≤ rank run.state t := by
  induction course with
  | arrives | returns | stops => exact Nat.le_refl _
  | hop edge onward live quiet rest ih => exact Nat.le_trans (le_rank_lifted live t) ih

/-- Only those ahead of the walker are raised. -/
theorem Walks.rank_eq (course : Walks donor table left walker hops run)
    (behind : ¬ TransGen table.Awaits walker t) : rank run.state t = rank table t := by
  induction course with
  | arrives | returns | stops => rfl
  | @hop table left hops walker holder events run edge onward live quiet rest ih =>
    have edges := (lifted_reranks table walker holder).awaits
    have apart : t ≠ holder := by
      rintro rfl
      exact behind (.single edge)
    rw [ih (by rw [edges]; exact fun chain => behind (chain.head edge)), rank_lifted live,
      if_neg apart]

/-- Whom a walk has reached is not below the thread from which it set out. -/
theorem Walks.le_rank (course : Walks donor table left walker hops run) {total : Nat}
    (ok : run.outcome = .ok total) (here : table.chain walker i = some t) (le : i ≤ left) :
    rank table walker ≤ rank run.state t := by
  induction course generalizing i with
  | @arrives table left hops walker events last quiet =>
    cases i with
    | zero =>
      cases here
      exact Nat.le_refl _
    | succ i =>
      have ended : table.chain walker 1 = none := last
      exact nomatch here.symm.trans (chain_none_of_le ended (Nat.succ_le_succ (Nat.zero_le i)))
  | returns => cases ok
  | stops =>
    obtain rfl := Nat.le_zero.mp le
    cases here
    exact Nat.le_refl _
  | @hop table left hops walker holder events run edge onward live quiet rest ih =>
    have same := (lifted_reranks table walker holder).sameGraph
    cases i with
    | zero =>
      cases here
      exact Nat.le_trans (le_rank_lifted live _) (rest.rank_le _)
    | succ i =>
      rw [chain_cons edge, ← chain_congr (same.waiting.ahead? same.holder?)] at here
      refine Nat.le_trans ?_ (ih ok here (Nat.le_of_succ_le_succ le))
      have raised : rank (lifted table walker holder) holder =
        max (rank table holder) (rank table walker) := by rw [rank_lifted live, if_pos rfl]
      rw [raised, Priority.level_max]
      exact Nat.le_max_right _ _

/-- Along a chain without a cycle, each thread ends at the greater of the priority it had and that
of the thread behind it. -/
theorem Walks.rank_succ (course : Walks donor table left walker hops run) {total : Nat}
    (ok : run.outcome = .ok total) (short : table.chain walker (left + 1) = none)
    (acyclic : ∀ v, ReflTransGen table.Awaits walker v → ¬ TransGen table.Awaits v v)
    (leads : ReflTransGen table.Awaits walker t) (edge : table.Awaits t u) :
    rank run.state u = max (rank table u) (rank run.state t) := by
  induction course with
  | @arrives table left hops walker events last =>
    obtain ⟨next, first, -⟩ := TransGen.head'_iff.mp (TransGen.tail' leads edge)
    exact nomatch first.symm.trans last
  | returns => cases ok
  | stops first => exact nomatch (chain_cons first 0).symm.trans short
  | @hop table left hops walker holder events run first onward live quiet rest ih =>
    have same := (lifted_reranks table walker holder).sameGraph
    have edges := same.awaits
    have apart : ∀ v, ReflTransGen table.Awaits holder v → ¬ TransGen table.Awaits v holder :=
      fun v leads back => acyclic holder (.single first) (back.trans_right leads)
    have further := ih ok
      (by rwa [chain_congr (same.waiting.ahead? same.holder?), ← chain_cons first])
      (by rw [edges]; exact fun v leads => acyclic v (leads.head first))
    rw [edges] at further
    rcases leads.cases_head with rfl | ⟨next, start, leads⟩
    · obtain rfl := first.unique edge
      have ahead : ¬ TransGen (lifted table walker holder).Awaits holder holder := by
        rw [edges]
        exact apart holder .refl
      have behind : ¬ TransGen (lifted table walker holder).Awaits holder walker := by
        rw [edges]
        exact fun back => acyclic walker .refl (back.head first)
      have self : walker ≠ holder := by
        rintro rfl
        exact acyclic walker .refl (.single first)
      rw [rest.rank_eq ahead, rest.rank_eq behind, rank_lifted live, rank_lifted live, if_pos rfl,
        if_neg self]
    · obtain rfl := first.unique start
      have other : u ≠ holder := by
        rintro rfl
        exact apart t leads (.single edge)
      have onwards := further leads edge
      rwa [rank_lifted live, if_neg other] at onwards

/-- A record in a table that differs in priorities only. -/
theorem Reranks.get? {after : ThreadTable} (same : Reranks table after) {r : ThreadRecord}
    (found : table.get? t = some r) :
    after.get? t = some { r with priority := rank after t } := by
  obtain ⟨r', found', alike⟩ := same.agree.get? found
  rw [found', rank_of_get? found']
  cases r
  cases r'
  simp_all

/-- The priorities of the first threads of a chain. -/
def Levels (table : ThreadTable) (t : ThreadId) (i : Nat) (level : Nat) : Prop :=
  ∃ j ≤ i, ∃ u r, table.chain t j = some u ∧ table.get? u = some r ∧ r.priority.level = level

/-- What a donation leaves that has reached the end of the chain: each thread of the chain at the
greatest of the priorities up to its own, and all else as it was. -/
structure Carries (donor : ThreadId) (table after : ThreadTable) : Prop where
  raised : ∀ i t, table.chain donor i = some t → ∃ r priority, table.get? t = some r ∧
    after.get? t = some { r with priority } ∧
      IsGreatest {level | Levels table donor i level} priority.level
  others : ∀ t, (∀ i, table.chain donor i ≠ some t) → after.get? t = table.get? t
  holdings : after.holdings = table.holdings
  shape : SameShape table after

section Walks

variable (course : Walks donor table left donor hops run)
  (live : ∀ u, ReflTransGen table.Awaits donor u → table.contains u = true)
include course live

theorem Walks.isGreatest {total : Nat} (ok : run.outcome = .ok total)
    (short : table.chain donor (left + 1) = none)
    (acyclic : ∀ v, ReflTransGen table.Awaits donor v → ¬ TransGen table.Awaits v v)
    (here : table.chain donor i = some t) :
    IsGreatest {level | Levels table donor i level} (rank run.state t).level := by
  induction i generalizing t with
  | zero =>
    cases here
    obtain ⟨r, found⟩ := contains_iff.mp (live donor .refl)
    rw [course.rank_eq (acyclic donor .refl), rank_of_get? found]
    refine ⟨⟨0, Nat.le_refl 0, donor, r, rfl, found, rfl⟩, ?_⟩
    rintro level ⟨j, le, u, ru, place, foundU, rfl⟩
    obtain rfl := Nat.le_zero.mp le
    cases place
    cases found.symm.trans foundU
    exact Nat.le_refl _
  | succ i ih =>
    obtain ⟨v, before, edge⟩ := chain_succ_eq_some.mp here
    have leads := exists_chain_iff.mp ⟨i, before⟩
    obtain ⟨r, found⟩ := contains_iff.mp (live t (leads.tail edge))
    obtain ⟨attained, above⟩ := ih before
    rw [course.rank_succ ok short acyclic leads edge, Priority.level_max, rank_of_get? found]
    constructor
    · rcases Nat.le_total r.priority.level (rank run.state v).level with le | le
      · rw [Nat.max_eq_right le]
        obtain ⟨j, small, rest⟩ := attained
        exact ⟨j, Nat.le_succ_of_le small, rest⟩
      · rw [Nat.max_eq_left le]
        exact ⟨i + 1, Nat.le_refl _, t, r, here, found, rfl⟩
    · rintro level ⟨j, le, u, ru, place, foundU, rfl⟩
      rcases Nat.le_succ_iff.mp le with earlier | rfl
      · exact Nat.le_trans (above ⟨j, earlier, u, ru, place, foundU, rfl⟩) (Nat.le_max_right _ _)
      · cases here.symm.trans place
        cases found.symm.trans foundU
        exact Nat.le_max_left _ _

theorem Walks.carries {total : Nat} (ok : run.outcome = .ok total)
    (short : table.chain donor (left + 1) = none)
    (acyclic : ∀ v, ReflTransGen table.Awaits donor v → ¬ TransGen table.Awaits v v) :
    Carries donor table run.state where
  raised := by
    intro i t here
    obtain ⟨r, found⟩ := contains_iff.mp (live t (exists_chain_iff.mp ⟨i, here⟩))
    exact ⟨r, _, found, course.reranks.get? found, course.isGreatest live ok short acyclic here⟩
  others := by
    intro t off
    have behind : ¬ TransGen table.Awaits donor t := fun chain => by
      obtain ⟨i, here⟩ := exists_chain_iff.mpr chain.to_reflTransGen
      exact off i here
    cases found : table.get? t with
    | none =>
      have gone := course.reranks.agree t
      rw [found] at gone
      exact Option.map_eq_none_iff.mp gone
    | some r => rw [course.reranks.get? found, course.rank_eq behind, rank_of_get? found]
  holdings := course.reranks.holdings
  shape := course.reranks.shape

end Walks

/-! ### Donation along a chain -/

/-- The donation fails at the first return to the donor, and names the lock that leads there. -/
def FailsAtReturn (donor : ThreadId) (table : ThreadTable) (outcome : Except Fault Nat) : Prop :=
  ∃ k last lock, (∀ i, 0 < i → i ≤ k → table.chain donor i ≠ some donor) ∧
    table.chain donor k = some last ∧ table.waits last = some lock ∧
      table.holder? lock = some donor ∧ outcome = .error (.donationCycle donor lock)

section Donate

variable (arena : Arena table)
  (live : ∀ u, ReflTransGen table.Awaits donor u → table.contains u = true)
include live

theorem donate_walks : Walks donor table table.live donor 0 (donate donor table) := by
  rw [donate_run]
  exact walks_of_live live table.live 0

include arena

/-- A chain that ends is followed to its end. -/
theorem donate_arrives {last : ThreadId} (here : table.chain donor n = some last)
    (ends : table.ahead? last = none) :
    (donate donor table).outcome = .ok n ∧ n + 1 ≤ table.live ∧
      Carries donor table (donate donor table).state := by
  have ended : table.chain donor (n + 1) = none := (chain_succ_of_some here).trans ends
  have few : n < table.live :=
    (simple_of_ends (by rw [here]; rfl) ended).lt_live arena live (by rw [here]; rfl)
  have course := donate_walks live
  have outcome : (donate donor table).outcome = .ok n := by
    have ending := course.ends
    generalize (donate donor table).outcome = outcome at ending
    cases ending with
    | @arrives m last' here' ends' =>
      have ended' : table.chain donor (m + 1) = none := (chain_succ_of_some here').trans ends'
      rcases Nat.lt_trichotomy m n with before | rfl | after
      · exact nomatch here.symm.trans (chain_none_of_le ended' before)
      · rw [Nat.zero_add]
      · exact nomatch here'.symm.trans (chain_none_of_le ended after)
    | @returns m last' lock here' waiting held =>
      have back : table.chain donor (m + 1) = some donor :=
        chain_succ_eq_some.mpr ⟨last', here', awaits_iff.mpr ⟨lock, waiting, held⟩⟩
      have there := chain_isSome_of_returns back (n + 1)
      rw [ended] at there
      cases there
    | stops there =>
      rw [chain_none_of_le ended (by omega)] at there
      cases there
  refine ⟨outcome, few, course.carries live outcome (chain_none_of_le ended (by omega)) ?_⟩
  -- a cycle ahead of the donor would have no end
  intro v leads cycle
  obtain ⟨i, place⟩ := exists_chain_iff.mpr leads
  obtain ⟨next, edge, back⟩ := TransGen.head'_iff.mp cycle
  obtain ⟨m, again⟩ := exists_chain_iff.mpr back
  have returns : table.chain v (m + 1) = some v := (chain_cons edge m).trans again
  have there := chain_isSome_of_returns returns (n + 1)
  rw [← chain_add place, chain_none_of_le ended (by omega)] at there
  cases there

/-- A chain that leads back to the donor is a failure. -/
theorem donate_returns {k : Nat} (back : table.chain donor (k + 1) = some donor) :
    FailsAtReturn donor table (donate donor table).outcome := by
  have ending := (donate_walks live).ends
  generalize (donate donor table).outcome = outcome at ending ⊢
  cases ending with
  | @arrives m last here ends =>
    have there := chain_isSome_of_returns back (m + 1)
    rw [chain_succ_of_some here, ends] at there
    cases there
  | @returns m last lock here waiting held first =>
    exact ⟨m, last, lock, first, here, waiting, held, rfl⟩
  | stops there onward =>
    -- the first return comes within as many hops as there are live threads
    obtain ⟨last, here, edge⟩ := chain_succ_eq_some.mp back
    obtain ⟨j, before, again⟩ := exists_place_le_live arena live here
    exact absurd (chain_succ_eq_some.mpr ⟨last, again, edge⟩) (onward (j + 1) (by omega) (by omega))

/-- A chain that runs into a cycle elsewhere uses up all hops, and everybody on it is reached. -/
theorem donate_stops (cyclic : RunsIntoCycle table donor) :
    (donate donor table).outcome = .ok table.live ∧
      ∀ i t, table.chain donor i = some t →
        rank table donor ≤ rank (donate donor table).state t := by
  have course := donate_walks live
  have outcome : (donate donor table).outcome = .ok table.live := by
    have ending := course.ends
    generalize (donate donor table).outcome = outcome at ending
    cases ending with
    | @arrives m last here ends =>
      exact absurd ((chain_succ_of_some here).trans ends) (cyclic.endless (m + 1))
    | @returns m last lock here waiting held =>
      exact absurd (chain_succ_eq_some.mpr ⟨last, here, awaits_iff.mpr ⟨lock, waiting, held⟩⟩)
        (cyclic.avoids m)
    | stops => rw [Nat.zero_add]
  refine ⟨outcome, fun i t here => ?_⟩
  obtain ⟨j, before, place⟩ := exists_place_le_live arena live here
  exact course.le_rank outcome place (Nat.le_of_lt before)

end Donate

/-- Donation in an arbitrary table in which all threads ahead of the donor are live. It changes
nothing but priorities. A chain that ends is followed to its end, and leaves each thread on it at the
greatest of the priorities up to there. A chain that leads back to the donor is a failure, which
names the donor and the lock that it holds. On a chain that runs into a cycle elsewhere the donation
stops when it has made as many hops as there are live threads, and nobody on the chain is left below
the donor. There are no other chains, so a donation always ends. -/
theorem donate_along_chain (arena : Arena table)
    (live : ∀ i t, table.chain donor i = some t → table.contains t = true) :
    Reranks table (donate donor table).state ∧
      (∀ n last, table.chain donor n = some last → table.ahead? last = none →
        (donate donor table).outcome = .ok n ∧ n + 1 ≤ table.live ∧
          Carries donor table (donate donor table).state) ∧
      (∀ k, table.chain donor (k + 1) = some donor →
        FailsAtReturn donor table (donate donor table).outcome) ∧
      (RunsIntoCycle table donor →
        (donate donor table).outcome = .ok table.live ∧
          ∀ i t, table.chain donor i = some t →
            rank table donor ≤ rank (donate donor table).state t) ∧
      ((∃ n last, table.chain donor n = some last ∧ table.ahead? last = none) ∨
        (∃ k, table.chain donor (k + 1) = some donor) ∨ RunsIntoCycle table donor) := by
  have ahead : ∀ u, ReflTransGen table.Awaits donor u → table.contains u = true := by
    intro u leads
    obtain ⟨i, here⟩ := exists_chain_iff.mpr leads
    exact live i u here
  refine ⟨(donate_walks ahead).reranks, fun n last here ends => ?_, fun k back => ?_,
    donate_stops arena ahead, chain_shapes arena ahead⟩
  · exact donate_arrives arena ahead here ends
  · exact donate_returns arena ahead back

/-! A thread of highest priority waits for the first of two threads that wait for each other. -/

/-- Two threads that hold one lock each and wait for the other's, and a third behind them. -/
def deadlocked : ThreadTable where
  slots := [⟨0, some ⟨"x", .lowest, .lowest, some ⟨2⟩, []⟩⟩,
    ⟨0, some ⟨"y", .lowest, .lowest, some ⟨1⟩, []⟩⟩,
    ⟨0, some ⟨"d", .highest, .highest, some ⟨1⟩, []⟩⟩]
  free := []
  holdings := [(⟨1⟩, ⟨0, 0⟩), (⟨2⟩, ⟨1, 0⟩)]
  capacity := 4
  live := 3

theorem arena_deadlocked : Arena deadlocked where
  free_nodup := List.nodup_nil
  mem_free_iff := by
    intro index
    refine ⟨nofun, ?_⟩
    rintro ⟨generation, empty⟩
    have mem := List.mem_of_getElem? empty
    simp [deadlocked] at mem
  length_le := by decide
  capacity_le := by decide
  live_eq := by decide

/-- The third thread is behind the two others for ever. -/
theorem chain_deadlocked (i : Nat) : deadlocked.chain ⟨2, 0⟩ (i + 1) = some ⟨0, 0⟩ ∨
    deadlocked.chain ⟨2, 0⟩ (i + 1) = some ⟨1, 0⟩ := by
  induction i with
  | zero => exact Or.inl rfl
  | succ i ih =>
    rcases ih with here | here
    · exact Or.inr (chain_succ_of_some here)
    · exact Or.inl (chain_succ_of_some here)

/-- The donation makes three hops, and both of the others end at the highest priority. -/
theorem foreign_cycle_uses_up_hops : RunsIntoCycle deadlocked ⟨2, 0⟩ ∧
    (donate ⟨2, 0⟩ deadlocked).outcome = .ok 3 ∧
      63 ≤ (rank (donate ⟨2, 0⟩ deadlocked).state ⟨0, 0⟩).level ∧
      63 ≤ (rank (donate ⟨2, 0⟩ deadlocked).state ⟨1, 0⟩).level := by
  have live : ∀ i t, deadlocked.chain ⟨2, 0⟩ i = some t → deadlocked.contains t = true := by
    rintro (_ | i) t here
    · cases here
      decide
    · rcases chain_deadlocked i with there | there
      · cases there.symm.trans here
        decide
      · cases there.symm.trans here
        decide
  have cyclic : RunsIntoCycle deadlocked ⟨2, 0⟩ := by
    refine ⟨⟨1, 3, by decide, rfl, rfl⟩, fun k back => ?_⟩
    rcases chain_deadlocked k with there | there
    · exact absurd (there.symm.trans back) (by decide)
    · exact absurd (there.symm.trans back) (by decide)
  obtain ⟨-, -, -, stops, -⟩ := donate_along_chain arena_deadlocked live
  obtain ⟨outcome, reached⟩ := stops cyclic
  exact ⟨cyclic, outcome, reached 1 ⟨0, 0⟩ rfl, reached 2 ⟨1, 0⟩ rfl⟩

end KernelSync.Donation
