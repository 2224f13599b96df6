import KernelSync.Proofs.Ownership

/-!
To register for a held lock: one thread comes to wait for the lock, becomes a donor of the holder,
and under donation passes its priority on. This adds one edge to the wait graph (`enrolled`).
Registering fails if that edge would close a cycle, and only then (`register_outcome`), so the graph
stays without one; and priorities stay covered and settled.
-/

namespace KernelSync.Lock

open Stretch ThreadTable Donation Relation

variable {table : ThreadTable} {me holder t u d : ThreadId} {lock other : LockId}
  {r : ThreadRecord}

/-- The table with `me` waiting for `lock`. -/
def awaiting (table : ThreadTable) (lock : LockId) (me : ThreadId) : ThreadTable :=
  table.modify me ({ · with waitingOn := some lock })

/-- The table with `me` waiting for `lock` and among the donors of `holder`. -/
def enrolled (table : ThreadTable) (lock : LockId) (me holder : ThreadId) : ThreadTable :=
  (awaiting table lock me).modify holder fun r => { r with
    donors := inserted (awaiting table lock me) (rank (awaiting table lock me) me) me
      (r.donors.filter (· ≠ me)) }

theorem contains_enrolled : (enrolled table lock me holder).contains t = table.contains t := by
  unfold enrolled awaiting
  rw [contains_modify, contains_modify]

theorem holder?_enrolled :
    (enrolled table lock me holder).holder? other = table.holder? other := rfl

theorem enrolled_sameShape : SameShape table (enrolled table lock me holder) :=
  (sameShape_modify _ _).trans (sameShape_modify _ _)

theorem arena_enrolled (arena : Arena table) : Arena (enrolled table lock me holder) :=
  enrolled_sameShape.arena arena

theorem rank_enrolled : rank (enrolled table lock me holder) = rank table := by
  have second : rank (enrolled table lock me holder) = rank (awaiting table lock me) :=
    rank_modify fun _ => rfl
  have first : rank (awaiting table lock me) = rank table := rank_modify fun _ => rfl
  exact second.trans first

theorem baseRank_enrolled : baseRank (enrolled table lock me holder) = baseRank table := by
  have second : Agree (·.basePriority) (awaiting table lock me) (enrolled table lock me holder) :=
    agree_modify fun _ _ => rfl
  have first : Agree (·.basePriority) table (awaiting table lock me) := agree_modify fun _ _ => rfl
  exact baseRank_of_agree (first.trans second)

theorem waits_enrolled (live : table.contains me = true) :
    (enrolled table lock me holder).waits t =
      if t = me then some lock else table.waits t := by
  have same : Agree (·.waitingOn) (awaiting table lock me) (enrolled table lock me holder) :=
    agree_modify fun _ _ => rfl
  rw [same.waits]
  split
  · rename_i here
    subst here
    obtain ⟨r, found⟩ := contains_iff.mp live
    exact waits_of_get? (get?_modify_self found)
  · rename_i apart
    unfold waits awaiting
    rw [get?_modify_of_ne apart]

/-- The one new edge goes from the waiter to the holder. -/
theorem awaits_enrolled (live : table.contains me = true)
    (held : table.holder? lock = some holder) :
    (enrolled table lock me holder).Awaits t u ↔
      if t = me then u = holder else table.Awaits t u := by
  rw [awaits_iff]
  simp only [waits_enrolled live, holder?_enrolled]
  split
  · constructor
    · rintro ⟨other, same, holds⟩
      obtain rfl := Option.some.inj same
      exact Option.some.inj (holds.symm.trans held)
    · rintro rfl
      exact ⟨lock, rfl, held⟩
  · exact awaits_iff.symm

/-- What `me` may be waiting for when it registers: nothing, or the lock already. -/
def MayRegister (table : ThreadTable) (lock : LockId) (me : ThreadId) : Prop :=
  table.waits me = none ∨ table.waits me = some lock

section Enrolled

variable (live : table.contains me = true) (held : table.holder? lock = some holder)
  (may : MayRegister table lock me)

include held may in
/-- Before it registers, `me` awaits nobody but the holder. -/
theorem MayRegister.eq_holder (edge : table.Awaits me u) : u = holder := by
  obtain ⟨other, waiting, holds⟩ := awaits_iff.mp edge
  rcases may with idle | again
  · exact nomatch waiting.symm.trans idle
  · obtain rfl := Option.some.inj (waiting.symm.trans again)
    exact Option.some.inj (holds.symm.trans held)

include live held may in
/-- Edges are added, none is lost. -/
theorem awaits_enrolled_of_awaits (edge : table.Awaits t u) :
    (enrolled table lock me holder).Awaits t u := by
  rw [awaits_enrolled live held]
  split
  · rename_i here
    subst here
    exact may.eq_holder held edge
  · exact edge

include live held may in
theorem accounted_enrolled (accounted : Accounted table) :
    Accounted (enrolled table lock me holder) := by
  have waiting : ∀ h, h ≠ holder → ∀ r, (enrolled table lock me holder).get? h = some r →
      ∃ r', table.get? h = some r' ∧ r.donors = r'.donors := by
    intro h apart r found
    unfold enrolled at found
    rw [get?_modify_of_ne apart] at found
    have same : Agree (·.donors) table (awaiting table lock me) := agree_modify fun _ _ => rfl
    exact same.get?_before found
  have registered : ∀ r, (enrolled table lock me holder).get? holder = some r →
      ∃ r', table.get? holder = some r' ∧
        r.donors = inserted (awaiting table lock me) (rank (awaiting table lock me) me) me
          (r'.donors.filter (· ≠ me)) := by
    intro r found
    have same : Agree (·.donors) table (awaiting table lock me) := agree_modify fun _ _ => rfl
    unfold enrolled at found
    rw [get?_modify, if_pos rfl] at found
    obtain ⟨between, foundBetween, rfl⟩ := Option.map_eq_some_iff.mp found
    obtain ⟨r', found', eq⟩ := same.get?_before foundBetween
    exact ⟨r', found', by rw [← eq]⟩
  refine ⟨?_, ?_, ?_⟩
  · intro h r found d
    by_cases here : h = holder
    · subst here
      obtain ⟨r', found', eq⟩ := registered r found
      rw [eq, mem_inserted, List.mem_filter, accounted.mem_donors_iff h r' found',
        awaits_enrolled live held]
      by_cases same : d = me
      · simp [same]
      · simp [same]
    · obtain ⟨r', found', eq⟩ := waiting h here r found
      rw [eq, accounted.mem_donors_iff h r' found', awaits_enrolled live held]
      by_cases same : d = me
      · subst same
        simp only [if_true]
        constructor
        · exact fun edge => may.eq_holder held edge
        · exact fun eq => absurd eq here
      · rw [if_neg same]
  · intro h r found
    by_cases here : h = holder
    · subst here
      obtain ⟨r', found', eq⟩ := registered r found
      rw [eq]
      exact nodup_inserted (by simp) ((accounted.donors_nodup h r' found').filter _)
    · obtain ⟨r', found', eq⟩ := waiting h here r found
      rw [eq]
      exact accounted.donors_nodup h r' found'
  · intro other h holds
    rw [contains_enrolled]
    exact accounted.holder_live other h holds

include live held in
/-- The new edge is the donor's own, so an old cycle would be needed for one that avoids it. -/
theorem onward_acyclic_enrolled (acyclic : Acyclic table) :
    ∀ t, ¬ TransGen (Onward me (enrolled table lock me holder)) t t := by
  intro t cycle
  refine acyclic t (TransGen.mono ?_ t t cycle)
  rintro a b ⟨apart, edge⟩
  rw [awaits_enrolled live held, if_neg apart] at edge
  exact edge

include live held may in
/-- The chain of the waiter leads back to it exactly if the holder's did before. -/
theorem returns_enrolled_iff :
    TransGen (enrolled table lock me holder).Awaits me me ↔
      ReflTransGen table.Awaits holder me := by
  -- the first visit to `me` on the way is reached by old edges
  have old : ∀ a, ReflTransGen (enrolled table lock me holder).Awaits a me →
      ReflTransGen table.Awaits a me := by
    intro a chain
    induction chain using ReflTransGen.head_induction_on with
    | refl => exact .refl
    | @head first second edge _ ih =>
      by_cases here : first = me
      · exact here ▸ .refl
      · rw [awaits_enrolled live held, if_neg here] at edge
        exact ih.head edge
  constructor
  · intro cycle
    obtain ⟨next, first, rest⟩ := TransGen.head'_iff.mp cycle
    rw [awaits_enrolled live held, if_pos rfl] at first
    exact first ▸ old next rest
  · intro chain
    have first : (enrolled table lock me holder).Awaits me holder := by
      rw [awaits_enrolled live held, if_pos rfl]
    have rest := ReflTransGen.mono
      (fun a b edge => awaits_enrolled_of_awaits live held may edge) holder me chain
    exact TransGen.head' first rest

include live held may in
/-- The new edge closes no cycle if the holder's chain does not lead to the waiter. -/
theorem acyclic_enrolled (acyclic : Acyclic table)
    (onwards : ¬ ReflTransGen table.Awaits holder me) :
    Acyclic (enrolled table lock me holder) := by
  have edges : ∀ a b, (enrolled table lock me holder).Awaits a b →
      table.Awaits a b ∨ a = me ∨ b = me := by
    intro a b edge
    by_cases here : a = me
    · exact Or.inr (Or.inl here)
    · rw [awaits_enrolled live held, if_neg here] at edge
      exact Or.inl edge
  refine acyclic.of_edges edges fun cycle => ?_
  exact onwards ((returns_enrolled_iff live held may).mp cycle)

include live held in
theorem coveredBut_enrolled (covered : Covered table) :
    CoveredBut (enrolled table lock me holder) me where
  base_le := by
    intro t
    rw [rank_enrolled, baseRank_enrolled]
    exact covered.base_le t
  rank_le := by
    intro d t edge apart
    rw [awaits_enrolled live held, if_neg apart] at edge
    rw [rank_enrolled]
    exact covered.rank_le d t edge

include live held may in
theorem settledBut_enrolled (settled : Settled table) :
    SettledBut (enrolled table lock me holder) me := by
  refine ⟨coveredBut_enrolled live held settled.toCovered, fun t => ?_⟩
  rw [rank_enrolled, baseRank_enrolled]
  refine (settled.attained t).imp_right ?_
  rintro ⟨d, edge, level⟩
  exact Or.inl ⟨d, awaits_enrolled_of_awaits live held may edge, level⟩

end Enrolled

/-! ### What registering does -/

theorem register_run_unheld (free : table.holder? lock = none) (donates : Bool) :
    register lock me donates table = ⟨.ok (), table, []⟩ := by
  unfold register
  rw [bind_run_ok (read_run _ _), free]
  rfl

theorem register_run_own (held : table.holder? lock = some me) (donates : Bool) :
    register lock me donates table = ⟨.error (.reacquired me lock), table, []⟩ := by
  unfold register
  rw [bind_run_ok (read_run _ _), held]
  dsimp only
  rw [bind_run_error (require_run_of_not (by simp) _ _)]
  rfl

section Register

variable (accounted : Accounted table) (live : table.contains me = true)
  (held : table.holder? lock = some holder) (apart : holder ≠ me)

include accounted live held apart in
/-- The waiter is enrolled, and under donation donates. -/
theorem register_run (donates : Bool) :
    register lock me donates table =
      (if donates then do log (.donated me holder lock (← donate me)) else Pure.pure () :
        Stretch ThreadTable Unit) (enrolled table lock me holder) := by
  obtain ⟨m, found⟩ := contains_iff.mp live
  obtain ⟨h, foundHolder⟩ := contains_iff.mp (accounted.holder_live lock holder held)
  have waiting : (awaiting table lock me).get? holder = some h := by
    unfold awaiting
    rw [get?_modify_of_ne apart]
    exact foundHolder
  have enrols : addDonor holder me (awaiting table lock me) =
      ⟨.ok (), enrolled table lock me holder, []⟩ := by
    rw [addDonor_run waiting (contains_modify.trans live)
      (fun d mem => contains_modify.trans (accounted.donors_live foundHolder d mem))]
    have same : (awaiting table lock me).modify holder ({ · with
        donors := inserted (awaiting table lock me) (rank (awaiting table lock me) me) me
          (h.donors.filter (· ≠ me)) }) = enrolled table lock me holder :=
      modify_congr waiting rfl
    rw [same]
  unfold register
  rw [bind_run_ok (read_run _ _), held]
  dsimp only
  rw [bind_run_ok (require_run apart _ _), bind_run_ok (setWaitingOn_run found _)]
  unfold awaiting at enrols
  rw [bind_run_ok enrols]
  cases donates with
  | true => rfl
  | false => rfl

include accounted live held apart in
theorem register_run_donating :
    register lock me true table =
      match donate me (enrolled table lock me holder) with
      | ⟨.ok hops, after, events⟩ =>
          ⟨.ok (), after, events ++ [.log (.donated me holder lock hops)]⟩
      | ⟨.error fault, after, events⟩ => ⟨.error fault, after, events⟩ := by
  rw [register_run accounted live held apart, if_pos rfl, bind_run]
  rcases donate me (enrolled table lock me holder) with ⟨outcome, after, events⟩
  cases outcome with
  | ok hops => rfl
  | error fault => rfl

variable (may : MayRegister table lock me)

include accounted live held apart may in
/-- However it ends, registering enters the one edge and otherwise changes priorities only. -/
theorem register_sameGraph (donates : Bool) :
    SameGraph (enrolled table lock me holder) (register lock me donates table).state := by
  cases donates with
  | false =>
    rw [register_run accounted live held apart]
    exact SameGraph.refl _
  | true =>
    have enrolledAccounted := accounted_enrolled live held may accounted
    have same := donate_reranks enrolledAccounted (contains_enrolled.trans live)
    rw [register_run_donating accounted live held apart]
    rcases hrun : donate me (enrolled table lock me holder) with ⟨outcome, after, events⟩
    rw [hrun] at same
    cases outcome with
    | ok hops => exact same.sameGraph
    | error fault => exact same.sameGraph

variable (arena : Arena table) (acyclic : Acyclic table)

include accounted live held apart may arena acyclic in
/-- In a table without cycles, registering fails exactly if the chain of the holder leads to the
caller, and the bound on the hops plays no part. -/
theorem register_outcome :
    (∀ e ∈ (register lock me true table).events, ¬ Revisits e) ∧
      (ReflTransGen table.Awaits holder me ∧
          (∃ last, (register lock me true table).outcome = .error (.donationCycle me last)) ∨
        ¬ ReflTransGen table.Awaits holder me ∧
          (register lock me true table).outcome = .ok ()) := by
  obtain ⟨quiet, ends⟩ := donate_outcome (arena_enrolled arena)
    (accounted_enrolled live held may accounted) (contains_enrolled.trans live)
    (onward_acyclic_enrolled live held acyclic)
  rw [returns_enrolled_iff live held may] at ends
  rw [register_run_donating accounted live held apart]
  rcases hrun : donate me (enrolled table lock me holder) with ⟨outcome, after, events⟩
  rw [hrun] at quiet ends
  cases outcome with
  | ok hops =>
    refine ⟨?_, ends.imp (fun back => ⟨back.1, ?_⟩) fun onwards => ⟨onwards.1, rfl⟩⟩
    · intro e mem
      rcases List.mem_append.mp mem with mem | mem
      · exact quiet e mem
      · rw [List.mem_singleton.mp mem]
        simp [Revisits]
    · obtain ⟨last, fails⟩ := back.2
      cases fails
  | error fault =>
    refine ⟨quiet, ?_⟩
    rcases ends with ⟨back, last, fails⟩ | ⟨-, total, arrives⟩
    · exact Or.inl ⟨back, last, congrArg Except.error (Except.error.inj fails)⟩
    · cases arrives

variable (ok : (register lock me true table).outcome = .ok ())

include accounted live held apart may arena acyclic ok in
theorem register_acyclic : Acyclic (register lock me true table).state := by
  have same := register_sameGraph accounted live held apart may true
  rcases (register_outcome accounted live held apart may arena acyclic).2 with
    ⟨-, last, fails⟩ | ⟨onwards, -⟩
  · exact nomatch ok.symm.trans fails
  · exact same.acyclic (acyclic_enrolled live held may acyclic onwards)

include accounted live held apart may arena acyclic ok in
theorem register_covered (covered : Covered table) :
    Covered (register lock me true table).state := by
  rw [register_run_donating accounted live held apart] at ok ⊢
  rcases hrun : donate me (enrolled table lock me holder) with ⟨outcome, after, events⟩
  rw [hrun] at ok
  have passes := @donate_covered (enrolled table lock me holder) me (arena_enrolled arena)
    (accounted_enrolled live held may accounted) (contains_enrolled.trans live)
    (onward_acyclic_enrolled live held acyclic)
  rw [hrun] at passes
  cases outcome with
  | ok hops => exact passes rfl (coveredBut_enrolled live held covered)
  | error fault => exact nomatch ok

include accounted live held apart may arena acyclic ok in
theorem register_settled (settled : Settled table) :
    Settled (register lock me true table).state := by
  rw [register_run_donating accounted live held apart] at ok ⊢
  rcases hrun : donate me (enrolled table lock me holder) with ⟨outcome, after, events⟩
  rw [hrun] at ok
  have passes := @donate_settled (enrolled table lock me holder) me (arena_enrolled arena)
    (accounted_enrolled live held may accounted) (contains_enrolled.trans live)
    (onward_acyclic_enrolled live held acyclic)
  rw [hrun] at passes
  cases outcome with
  | ok hops => exact passes rfl (settledBut_enrolled live held may settled)
  | error fault => exact nomatch ok

end Register

end KernelSync.Lock
