import KernelSync.Proofs.WaitGraph

/-!
The donation walk, one hop at a time. A hop changes one priority and nothing else (`Reranks`,
`walk_hop`). In a table without a cycle that avoids the donor, the bound on the hops is never met:
the walk fails exactly if the chain leads back to the donor (`walk_course`). A walk that meets
neither passes the donor's priority on to everyone ahead of it (`walk_covers`, `walk_settles`).
-/

namespace KernelSync.Donation

open Stretch ThreadTable Relation

variable {table table' table'' : ThreadTable} {donor walker holder id other : ThreadId}
  {r : ThreadRecord} {left hops : Nat}

/-! ### Tables that differ in priorities -/

/-- The tables differ in effective priorities only. -/
structure Reranks (before after : ThreadTable) : Prop where
  agree : Agree (fun r : ThreadRecord => { r with priority := Priority.lowest }) before after
  holdings : after.holdings = before.holdings
  shape : SameShape before after

theorem Reranks.refl (table : ThreadTable) : Reranks table table :=
  ⟨Agree.refl _ _, rfl, .refl _⟩

theorem Reranks.trans (first : Reranks table table') (second : Reranks table' table'') :
    Reranks table table'' :=
  ⟨first.agree.trans second.agree, second.holdings.trans first.holdings,
    first.shape.trans second.shape⟩

theorem reranks_modify (priority : Priority) :
    Reranks table (table.modify id ({ · with priority })) :=
  ⟨agree_modify fun _ _ => rfl, rfl, sameShape_modify _ _⟩

theorem Reranks.baseRank (same : Reranks table table') : baseRank table' = baseRank table :=
  baseRank_of_agree (same.agree.map (·.basePriority))

theorem Reranks.sameGraph (same : Reranks table table') : SameGraph table table' where
  waiting := same.agree.map (·.waitingOn)
  donors := by
    intro id r found
    obtain ⟨r', found', eq⟩ := same.agree.get?_before found
    have equal : r.donors = r'.donors := congrArg (·.donors) eq
    exact ⟨r', found', equal ▸ .refl _⟩
  holdings := same.holdings
  shape := same.shape

theorem Reranks.awaits (same : Reranks table table') : table'.Awaits = table.Awaits :=
  same.sameGraph.awaits

/-! ### One hop -/

/-- The table after `giver` has donated to `receiver`. -/
def lifted (table : ThreadTable) (giver receiver : ThreadId) : ThreadTable :=
  if rank table receiver < rank table giver then
    table.modify receiver ({ · with priority := rank table giver })
  else table

theorem lifted_reranks (table : ThreadTable) (giver receiver : ThreadId) :
    Reranks table (lifted table giver receiver) := by
  unfold lifted
  split
  · exact reranks_modify _
  · exact Reranks.refl _

theorem rank_lifted {giver receiver : ThreadId} (live : table.contains receiver = true) :
    rank (lifted table giver receiver) id =
      if id = receiver then max (rank table receiver) (rank table giver) else rank table id := by
  obtain ⟨r, found⟩ := contains_iff.mp live
  have levels : (max (rank table receiver) (rank table giver)).level = _ := Priority.level_max
  unfold lifted
  split
  · rename_i lower
    by_cases same : id = receiver
    · subst same
      rw [if_pos rfl, rank_of_get? (get?_modify_self found)]
      apply Priority.ext_level
      rw [levels]
      exact (Nat.max_eq_right (Nat.le_of_lt lower)).symm
    · rw [if_neg same, rank_modify_of_ne same]
  · rename_i notLower
    split
    · rename_i same
      subst same
      apply Priority.ext_level
      rw [levels]
      exact (Nat.max_eq_left (Nat.le_of_not_lt notLower)).symm
    · rfl

/-- Reports that a walk was stopped by the bound on its hops. -/
def Revisits (e : Event) : Prop :=
  ∃ donor walker lock hops, e = .log (.chainRevisits donor walker lock hops)

/-- The course of a walk: it arrives at the end of the chain, returns to the donor, is stopped by
the bound, or hops on to the next holder. -/
inductive Walks (donor : ThreadId) :
    ThreadTable → Nat → ThreadId → Nat → Run ThreadTable Nat → Prop where
  | arrives {table : ThreadTable} {left hops : Nat} {walker : ThreadId} {events : List Event}
      (last : table.ahead? walker = none) (quiet : ∀ e ∈ events, ¬ Revisits e) :
      Walks donor table left walker hops ⟨.ok hops, table, events⟩
  | returns {table : ThreadTable} {left hops : Nat} {walker : ThreadId} {lock : LockId}
      (edge : table.Awaits walker donor) (waiting : table.waits walker = some lock) :
      Walks donor table left walker hops ⟨.error (.donationCycle donor lock), table, []⟩
  | stops {table : ThreadTable} {hops : Nat} {walker holder : ThreadId} {e : Event}
      (edge : table.Awaits walker holder) (onward : holder ≠ donor) (bound : Revisits e) :
      Walks donor table 0 walker hops ⟨.ok hops, table, [e]⟩
  | hop {table : ThreadTable} {left hops : Nat} {walker holder : ThreadId} {events : List Event}
      {run : Run ThreadTable Nat} (edge : table.Awaits walker holder) (onward : holder ≠ donor)
      (live : table.contains holder = true) (quiet : ∀ e ∈ events, ¬ Revisits e)
      (rest : Walks donor (lifted table walker holder) left holder (hops + 1) run) :
      Walks donor table (left + 1) walker hops ⟨run.outcome, run.state, events ++ run.events⟩

/-- A walk from a thread with nobody but the donor ahead of it is over. -/
theorem walks_end (live : table.contains walker = true)
    (last : ∀ holder, table.Awaits walker holder → holder = donor) (left hops : Nat) :
    Walks donor table left walker hops (walk donor left walker hops table) := by
  obtain ⟨w, found⟩ := contains_iff.mp live
  unfold walk
  rw [bind_run_ok (waitingOn_run found)]
  cases waiting : w.waitingOn with
  | none => exact .arrives (by simp [ahead?, waits_of_get? found, waiting]) (by simp)
  | some lock =>
    dsimp only
    rw [bind_run_ok (read_run _ _)]
    have ahead : table.ahead? walker = table.holder? lock := by
      simp [ahead?, waits_of_get? found, waiting]
    cases held : table.holder? lock with
    | none => exact .arrives (ahead.trans held) (by simp [Revisits, bind_run])
    | some holder =>
      have edge : table.Awaits walker holder := ahead.trans held
      obtain rfl := last holder edge
      dsimp only
      rw [bind_run_error (require_run_of_not (by simp) _ _)]
      exact .returns edge ((waits_of_get? found).trans waiting)

/-- A walk that has no hop left is stopped by the bound. -/
theorem walks_bound (edge : table.Awaits walker holder) (onward : holder ≠ donor) (hops : Nat) :
    Walks donor table 0 walker hops (walk donor 0 walker hops table) := by
  obtain ⟨lock, waiting, held⟩ := awaits_iff.mp edge
  obtain ⟨w, found, awaited⟩ := waits_eq_some_iff.mp waiting
  unfold walk
  rw [bind_run_ok (waitingOn_run found), awaited]
  dsimp only
  rw [bind_run_ok (read_run _ _), held]
  dsimp only
  rw [bind_run_ok (require_run onward _ _)]
  exact .stops edge onward ⟨donor, walker, lock, hops, rfl⟩

/-- Any other walk goes on from the next holder, which has been donated to. -/
theorem walk_hop (edge : table.Awaits walker holder) (onward : holder ≠ donor)
    (live : table.contains holder = true) (left hops : Nat) :
    ∃ events, walk donor (left + 1) walker hops table =
        ⟨(walk donor left holder (hops + 1) (lifted table walker holder)).outcome,
          (walk donor left holder (hops + 1) (lifted table walker holder)).state,
          events ++ (walk donor left holder (hops + 1) (lifted table walker holder)).events⟩ ∧
      ∀ e ∈ events, ¬ Revisits e := by
  obtain ⟨lock, waiting, held⟩ := awaits_iff.mp edge
  obtain ⟨w, found, awaited⟩ := waits_eq_some_iff.mp waiting
  obtain ⟨h, foundHolder⟩ := contains_iff.mp live
  generalize again : walk donor left holder (hops + 1) = rest
  unfold walk lifted
  rw [bind_run_ok (waitingOn_run found), awaited]
  dsimp only
  rw [bind_run_ok (read_run _ _), held]
  dsimp only
  rw [bind_run_ok (require_run onward _ _), bind_run_ok (priority_run found),
    bind_run_ok (priority_run foundHolder), rank_of_get? found, rank_of_get? foundHolder, again]
  by_cases lower : h.priority < w.priority
  · simp only [if_pos lower]
    rw [bind_run_ok (log_run _ _), bind_run_ok (setPriority_run foundHolder _)]
    exact ⟨[.log (.donating walker holder lock w.priority)], rfl, by simp [Revisits]⟩
  · simp only [if_neg lower]
    exact ⟨[], rfl, by simp⟩

/-- Where all threads ahead are live, every walk takes its course. -/
theorem walks_of_live (live : ∀ u, ReflTransGen table.Awaits walker u → table.contains u = true)
    (left hops : Nat) : Walks donor table left walker hops (walk donor left walker hops table) := by
  induction left generalizing table walker hops with
  | zero =>
    by_cases last : ∀ holder, table.Awaits walker holder → holder = donor
    · exact walks_end (live walker .refl) last 0 hops
    · simp only [not_forall] at last
      obtain ⟨holder, edge, onward⟩ := last
      exact walks_bound edge onward hops
  | succ left ih =>
    by_cases last : ∀ holder, table.Awaits walker holder → holder = donor
    · exact walks_end (live walker .refl) last (left + 1) hops
    · simp only [not_forall] at last
      obtain ⟨holder, edge, onward⟩ := last
      have liveHolder := live holder (.single edge)
      have hop := lifted_reranks table walker holder
      obtain ⟨events, run, quiet⟩ := walk_hop edge onward liveHolder left hops
      rw [run]
      refine .hop edge onward liveHolder quiet (ih (fun u chain => ?_) (hops + 1))
      rw [hop.awaits] at chain
      rw [hop.sameGraph.contains]
      exact live u (chain.head edge)

/-- Among live threads every walk takes its course. -/
theorem walks (accounted : Accounted table) (live : table.contains walker = true)
    (left hops : Nat) : Walks donor table left walker hops (walk donor left walker hops table) := by
  refine walks_of_live (fun u chain => ?_) left hops
  induction chain with
  | refl => exact live
  | tail _ edge _ => exact accounted.live_of_awaits edge

/-- A walk changes priorities and nothing else, however it ends. -/
theorem Walks.reranks {run : Run ThreadTable Nat}
    (course : Walks donor table left walker hops run) : Reranks table run.state := by
  induction course with
  | arrives => exact Reranks.refl _
  | returns => exact Reranks.refl _
  | stops => exact Reranks.refl _
  | hop _ _ _ _ _ ih => exact (lifted_reranks _ _ _).trans ih

/-! ### Where a walk leads -/

/-- An edge that does not start from the donor. -/
def Onward (donor : ThreadId) (table : ThreadTable) (t u : ThreadId) : Prop :=
  t ≠ donor ∧ table.Awaits t u

/-- What a walk has behind it: the different live threads `seen`, which all lead to the walker and
are as many as the hops it has used up. -/
structure Trail (donor : ThreadId) (table : ThreadTable) (left : Nat) (walker : ThreadId)
    (seen : List ThreadId) : Prop where
  nodup : (walker :: seen).Nodup
  live : ∀ t ∈ walker :: seen, table.contains t = true
  behind : ∀ t ∈ seen, t = donor ∨ TransGen (Onward donor table) t walker
  start : walker = donor → seen = []
  count : left + seen.length = table.live

theorem trail_start (live : table.contains donor = true) :
    Trail donor table table.live donor [] where
  nodup := List.nodup_singleton donor
  live := by simpa using live
  behind := by simp
  start := fun _ => rfl
  count := rfl

/-- The bound on the hops is not met on the way: there are too few threads for that. -/
theorem Trail.left_pos {seen : List ThreadId} (trail : Trail donor table left walker seen)
    (arena : Arena table) : 0 < left := by
  have few := length_le_live arena trail.nodup trail.live
  have count := trail.count
  rw [List.length_cons] at few
  omega

theorem Trail.hop {seen : List ThreadId} (trail : Trail donor table (left + 1) walker seen)
    (acyclic : ∀ t, ¬ TransGen (Onward donor table) t t) (edge : table.Awaits walker holder)
    (onward : holder ≠ donor) (live : table.contains holder = true) :
    Trail donor table left holder (walker :: seen) where
  nodup := by
    refine List.nodup_cons.mpr ⟨?_, trail.nodup⟩
    intro mem
    rcases List.mem_cons.mp mem with rfl | mem
    · exact acyclic holder (.single ⟨onward, edge⟩)
    · have apart : walker ≠ donor := fun same => by simp [trail.start same] at mem
      rcases trail.behind holder mem with same | chain
      · exact onward same
      · exact acyclic holder (chain.tail ⟨apart, edge⟩)
  live := by
    intro t mem
    rcases List.mem_cons.mp mem with rfl | mem
    · exact live
    · exact trail.live t mem
  behind := by
    intro t mem
    by_cases first : walker = donor
    · rw [trail.start first, List.mem_singleton] at mem
      exact Or.inl (mem.trans first)
    · rcases List.mem_cons.mp mem with rfl | mem
      · exact Or.inr (.single ⟨first, edge⟩)
      · exact (trail.behind t mem).imp_right fun chain => chain.tail ⟨first, edge⟩
  start := fun same => absurd same onward
  count := by
    have count := trail.count
    rw [List.length_cons]
    omega

theorem Trail.reranks {seen : List ThreadId} (trail : Trail donor table left walker seen)
    (same : Reranks table table') : Trail donor table' left walker seen where
  nodup := trail.nodup
  live := fun t mem => (same.sameGraph.contains t).trans (trail.live t mem)
  behind := by
    unfold Onward
    rw [same.awaits]
    exact trail.behind
  start := trail.start
  count := trail.count.trans same.shape.live.symm

/-- In a table without a cycle that avoids the donor, a walk fails if the chain leads back to the
donor and arrives if it does not; the bound on the hops plays no part. -/
theorem Walks.outcome_of_trail {run : Run ThreadTable Nat} {seen : List ThreadId}
    (course : Walks donor table left walker hops run) (arena : Arena table)
    (acyclic : ∀ t, ¬ TransGen (Onward donor table) t t)
    (trail : Trail donor table left walker seen) :
    (∀ e ∈ run.events, ¬ Revisits e) ∧
      (TransGen table.Awaits walker donor ∧
          (∃ lock, run.outcome = .error (.donationCycle donor lock)) ∨
        ¬ TransGen table.Awaits walker donor ∧ ∃ total, run.outcome = .ok total) := by
  induction course generalizing seen with
  | arrives last quiet =>
    refine ⟨quiet, Or.inr ⟨?_, _, rfl⟩⟩
    intro chain
    obtain ⟨next, edge, -⟩ := TransGen.head'_iff.mp chain
    exact nomatch edge.symm.trans last
  | returns edge => exact ⟨by simp, Or.inl ⟨.single edge, _, rfl⟩⟩
  | stops edge onward bound => exact absurd (trail.left_pos arena) (Nat.lt_irrefl 0)
  | @hop table left hops walker holder events run edge onward live quiet rest ih =>
    have same := lifted_reranks table walker holder
    obtain ⟨later, ends⟩ := ih (same.shape.arena arena)
      (by
        unfold Onward
        rw [same.awaits]
        exact acyclic)
      ((trail.hop acyclic edge onward live).reranks same)
    have leads : TransGen table.Awaits walker donor ↔ TransGen table.Awaits holder donor := by
      constructor
      · intro chain
        obtain ⟨next, first, others⟩ := TransGen.head'_iff.mp chain
        obtain rfl := first.unique edge
        rcases reflTransGen_iff_eq_or_transGen.mp others with back | onwards
        · exact absurd back.symm onward
        · exact onwards
      · intro chain
        exact chain.head edge
    rw [same.awaits, ← leads] at ends
    refine ⟨?_, ends⟩
    intro e mem
    rcases List.mem_append.mp mem with mem | mem
    · exact quiet e mem
    · exact later e mem

/-! ### What a walk passes on -/

/-- Covered, except that the thread ahead of `walker` may be below it. -/
structure CoveredBut (table : ThreadTable) (walker : ThreadId) : Prop where
  base_le : ∀ t, baseRank table t ≤ rank table t
  rank_le : ∀ d t, table.Awaits d t → d ≠ walker → rank table d ≤ rank table t

/-- Settled, except that the thread ahead of `walker` may be below it, or at a priority that the
walker had before it was raised. -/
structure SettledBut (table : ThreadTable) (walker : ThreadId) : Prop
    extends CoveredBut table walker where
  attained : ∀ t, rank table t = baseRank table t ∨
    (∃ d, table.Awaits d t ∧ rank table t = rank table d) ∨
      table.Awaits walker t ∧ rank table t ≤ rank table walker

theorem CoveredBut.arrived (covered : CoveredBut table walker)
    (last : table.ahead? walker = none) : Covered table := by
  refine ⟨covered.base_le, fun d t edge => covered.rank_le d t edge ?_⟩
  rintro rfl
  exact nomatch edge.symm.trans last

theorem SettledBut.arrived (settled : SettledBut table walker)
    (last : table.ahead? walker = none) : Settled table := by
  refine ⟨settled.toCoveredBut.arrived last, fun t => ?_⟩
  rcases settled.attained t with own | given | ⟨edge, -⟩
  · exact Or.inl own
  · exact Or.inr given
  · exact nomatch edge.symm.trans last

theorem le_rank_lifted (live : table.contains holder = true) (t : ThreadId) :
    rank table t ≤ rank (lifted table walker holder) t := by
  rw [rank_lifted live]
  split
  · rename_i same
    rw [same, Priority.le_iff, Priority.level_max]
    exact Nat.le_max_left _ _
  · exact Nat.le_refl _

/-- A hop covers the holder, and moves the exception on to the thread ahead of it. -/
theorem CoveredBut.hop (covered : CoveredBut table walker) (edge : table.Awaits walker holder)
    (live : table.contains holder = true) : CoveredBut (lifted table walker holder) holder where
  base_le := by
    intro t
    rw [(lifted_reranks table walker holder).baseRank]
    exact Nat.le_trans (covered.base_le t) (le_rank_lifted live t)
  rank_le := by
    intro d t later apart
    rw [(lifted_reranks table walker holder).awaits] at later
    have kept : rank (lifted table walker holder) d = rank table d := by
      rw [rank_lifted live, if_neg apart]
    rw [kept]
    by_cases first : d = walker
    · subst first
      obtain rfl := edge.unique later
      rw [rank_lifted live, if_pos rfl, Priority.le_iff, Priority.level_max]
      exact Nat.le_max_right _ _
    · exact Nat.le_trans (covered.rank_le d t later first) (le_rank_lifted live t)

/-- A hop that raises nobody finds the holder where the walker put it, or already above. -/
theorem SettledBut.idle_hop (settled : SettledBut table walker) (edge : table.Awaits walker holder)
    (live : table.contains holder = true) (notLower : ¬ rank table holder < rank table walker) :
    SettledBut (lifted table walker holder) holder := by
  refine ⟨settled.toCoveredBut.hop edge live, fun t => ?_⟩
  have same : lifted table walker holder = table := if_neg notLower
  rw [same]
  rcases settled.attained t with own | given | ⟨edge', le⟩
  · exact Or.inl own
  · exact Or.inr (Or.inl given)
  · obtain rfl := edge.unique edge'
    have level : rank table holder = rank table walker :=
      Priority.ext_level (Nat.le_antisymm le (Nat.le_of_not_lt notLower))
    exact Or.inr (Or.inl ⟨walker, edge, level⟩)

theorem SettledBut.hop (settled : SettledBut table walker) (edge : table.Awaits walker holder)
    (live : table.contains holder = true) : SettledBut (lifted table walker holder) holder := by
  by_cases lower : rank table holder < rank table walker
  · have apart : walker ≠ holder := by
      rintro rfl
      exact Nat.lt_irrefl _ lower
    have kept : ∀ t, t ≠ holder → rank (lifted table walker holder) t = rank table t := by
      intro t other
      rw [rank_lifted live, if_neg other]
    have raised : rank (lifted table walker holder) holder = rank table walker := by
      apply Priority.ext_level
      rw [rank_lifted live, if_pos rfl, Priority.level_max]
      exact Nat.max_eq_right (Nat.le_of_lt lower)
    refine ⟨settled.toCoveredBut.hop edge live, fun t => ?_⟩
    rw [(lifted_reranks table walker holder).awaits, (lifted_reranks table walker holder).baseRank]
    by_cases here : t = holder
    · subst here
      exact Or.inr (Or.inl ⟨walker, edge, by rw [raised, kept walker apart]⟩)
    · rw [kept t here]
      rcases settled.attained t with own | ⟨d, given, level⟩ | ⟨edge', -⟩
      · exact Or.inl own
      · by_cases next : d = holder
        · subst next
          refine Or.inr (Or.inr ⟨given, ?_⟩)
          rw [level]
          exact le_rank_lifted live d
        · exact Or.inr (Or.inl ⟨d, given, by rw [level, kept d next]⟩)
      · exact absurd (edge'.unique edge) here
  · exact settled.idle_hop edge live lower

/-- A walk that neither returns to the donor nor is stopped covers everyone ahead of it. -/
theorem Walks.covered {run : Run ThreadTable Nat} (course : Walks donor table left walker hops run)
    (quiet : ∀ e ∈ run.events, ¬ Revisits e) {total : Nat} (ok : run.outcome = .ok total)
    (covered : CoveredBut table walker) : Covered run.state := by
  induction course with
  | arrives last _ => exact covered.arrived last
  | returns => exact nomatch ok
  | stops _ _ bound => exact absurd bound (quiet _ (List.mem_singleton.mpr rfl))
  | hop edge _ live _ _ ih =>
    exact ih (fun e mem => quiet e (List.mem_append_right _ mem)) ok (covered.hop edge live)

/-- A walk that neither returns to the donor nor is stopped settles everyone ahead of it. -/
theorem Walks.settled {run : Run ThreadTable Nat} (course : Walks donor table left walker hops run)
    (quiet : ∀ e ∈ run.events, ¬ Revisits e) {total : Nat} (ok : run.outcome = .ok total)
    (settled : SettledBut table walker) : Settled run.state := by
  induction course with
  | arrives last _ => exact settled.arrived last
  | returns => exact nomatch ok
  | stops _ _ bound => exact absurd bound (quiet _ (List.mem_singleton.mpr rfl))
  | hop edge _ live _ _ ih =>
    exact ih (fun e mem => quiet e (List.mem_append_right _ mem)) ok (settled.hop edge live)

/-! ### Donation -/

theorem donate_run (donor : ThreadId) (table : ThreadTable) :
    donate donor table = walk donor table.live donor 0 table := rfl

section Donate

variable (arena : Arena table) (accounted : Accounted table) (live : table.contains donor = true)

include accounted live in
theorem donate_reranks : Reranks table (donate donor table).state := by
  rw [donate_run]
  exact (walks accounted live table.live 0).reranks

include arena accounted live in
/-- A donation in a table without a cycle that avoids the donor fails if the chain leads back to the
donor, and otherwise reaches its end. -/
theorem donate_outcome (acyclic : ∀ t, ¬ TransGen (Onward donor table) t t) :
    (∀ e ∈ (donate donor table).events, ¬ Revisits e) ∧
      (TransGen table.Awaits donor donor ∧
          (∃ lock, (donate donor table).outcome = .error (.donationCycle donor lock)) ∨
        ¬ TransGen table.Awaits donor donor ∧
          ∃ total, (donate donor table).outcome = .ok total) := by
  rw [donate_run]
  exact (walks accounted live table.live 0).outcome_of_trail arena acyclic (trail_start live)

include arena accounted live in
theorem donate_covered (acyclic : ∀ t, ¬ TransGen (Onward donor table) t t) {total : Nat}
    (ok : (donate donor table).outcome = .ok total) (covered : CoveredBut table donor) :
    Covered (donate donor table).state := by
  have quiet := (donate_outcome arena accounted live acyclic).1
  rw [donate_run] at ok quiet ⊢
  exact (walks accounted live table.live 0).covered quiet ok covered

include arena accounted live in
theorem donate_settled (acyclic : ∀ t, ¬ TransGen (Onward donor table) t t) {total : Nat}
    (ok : (donate donor table).outcome = .ok total) (settled : SettledBut table donor) :
    Settled (donate donor table).state := by
  have quiet := (donate_outcome arena accounted live acyclic).1
  rw [donate_run] at ok quiet ⊢
  exact (walks accounted live table.live 0).settled quiet ok settled

end Donate

end KernelSync.Donation
