import KernelSync.Proofs.OrderlyMove

/-!
Effective priorities in runs with donation. No cycle of waiting threads comes up
(`Reachable.acyclic`), and whatever base priorities are set, no holder is below a thread that waits
for its lock (`waiters_below_holder`). As long as base priorities are changed for threads alone that
wait for no lock, every priority is what is due to the thread and its donors (`Reachable.settled`).
So the effective priority has a closed form that the primitives never compute: the greatest base
priority among all threads whose wait chain leads to the thread.
-/

namespace KernelSync.System

open ThreadTable Donation Relation

variable {s s' : System} {rule : Rule} {t : ThreadId} {move : Move}

/-! ### Donation all along -/

/-- No move changes the scheduling mode. -/
theorem Moved.mode (moved : Moved s move s') : s'.kernel.mode = s.kernel.mode := by
  cases moved with
  | answered answers => cases answers <;> rfl
  | went busy advances => exact advances.mode
  | newSemaphore | newLock | newCondvar | spawned | full | removed | rebased | reranked
  | interrupt | called => rfl

section Start

variable {capacity : Nat} {mode : SchedulingMode}

theorem not_awaits_start (d h : ThreadId) : ¬ (start capacity mode).table.Awaits d h := by
  intro edge
  obtain ⟨r, found⟩ := contains_iff.mp edge.contains
  exact nomatch (get?_start d).symm.trans found

theorem settled_start : Settled (start capacity mode).table := by
  have own : ∀ t, rank (start capacity mode).table t = baseRank (start capacity mode).table t := by
    intro t
    unfold rank baseRank
    rw [get?_start]
  exact {
    base_le := fun t => Nat.le_of_eq (congrArg Priority.level (own t)).symm
    rank_le := fun d t edge => absurd edge (not_awaits_start d t)
    attained := fun t => Or.inl (own t) }

end Start

/-- In a run with donation no thread ever waits, through others, for itself. -/
theorem Reachable.acyclic (reachable : Reachable rule s) (donating : s.kernel.mode.donates = true) :
    Acyclic s.table := by
  induction reachable with
  | start small =>
    intro t chain
    obtain ⟨d, edge, -⟩ := TransGen.head'_iff.mp chain
    exact not_awaits_start _ _ edge
  | @move s s' move events before allowed obeys ends ih =>
    have moved := before.moved allowed ends
    rw [moved.mode] at donating
    obtain ⟨deed, change, -⟩ := moved.change before.orderly allowed
    exact change.acyclic before.orderly.sound donating (ih donating)

/-- In a steady run with donation every priority is the greatest of the base priority and those of
the donors. -/
theorem Reachable.settled (reachable : Reachable steady s)
    (donating : s.kernel.mode.donates = true) : Settled s.table := by
  induction reachable with
  | start small => exact settled_start
  | @move s s' move events before allowed obeys ends ih =>
    have moved := before.moved allowed ends
    rw [moved.mode] at donating
    obtain ⟨deed, change, calm, -⟩ := moved.change before.orderly allowed
    exact change.settled before.orderly.sound donating (before.acyclic donating) (calm obeys)
      (ih donating)

/-- Forbids to set an effective priority from outside. The base priority of any thread may be set,
whatever it waits for. -/
def unforced : Rule
  | _, .setEffective _ _ => False
  | _, _ => True

instance : (s : System) → (move : Move) → Decidable (unforced s move)
  | _, .setEffective _ _ => instDecidableFalse
  | _, .newSemaphore _ | _, .newLock | _, .newCondvar | _, .spawn _ _ | _, .remove _
  | _, .setBase _ _ | _, .interrupt _ | _, .call _ _ | _, .short _ _ | _, .go _ =>
    instDecidableTrue

/-- In an unforced run with donation nobody is below its base priority or below a thread that awaits
it. -/
theorem Reachable.covered (reachable : Reachable unforced s)
    (donating : s.kernel.mode.donates = true) : Covered s.table := by
  induction reachable with
  | start small => exact settled_start.toCovered
  | @move s s' move events before allowed obeys ends ih =>
    have moved := before.moved allowed ends
    rw [moved.mode] at donating
    obtain ⟨deed, change, -, -, sets, -⟩ := moved.change before.orderly allowed
    refine change.covered before.orderly.sound donating (before.acyclic donating) ?_ (ih donating)
    intro id priority is
    rw [sets id priority is] at obeys
    exact obeys

/-! ### Waiters and holders -/

/-- The holder of a lock has a priority no lower than any thread that waits for the lock, and no
thread is below its base priority, whatever base priorities are set on the way. -/
theorem waiters_below_holder (reachable : Reachable unforced s)
    (donating : s.kernel.mode.donates = true) :
    (∀ t r id h, s.table.get? t = some r → r.waitingOn = some id → s.table.holder? id = some h →
      ∃ rh, s.table.get? h = some rh ∧ r.priority ≤ rh.priority) ∧
    ∀ t r, s.table.get? t = some r → r.basePriority ≤ r.priority := by
  have covered := reachable.covered donating
  constructor
  · intro t r id h found waiting held
    obtain ⟨rh, foundHolder⟩ :=
      contains_iff.mp (reachable.orderly.sound.accounted.holder_live id h held)
    have edge : s.table.Awaits t h :=
      awaits_iff.mpr ⟨id, (waits_of_get? found).trans waiting, held⟩
    have le := covered.rank_le t h edge
    rw [rank_of_get? found, rank_of_get? foundHolder] at le
    exact ⟨rh, foundHolder, le⟩
  · intro t r found
    have le := covered.base_le t
    rwa [baseRank_of_get? found, rank_of_get? found] at le

/-! A chain of three, in which base priorities are set at both ends: the last in the chain gets a
higher one while it is queued, the first a lower one while it holds. -/

/-- The second thread holds a lock that the third queues for, and queues for one that the first
holds. -/
def relay : List Move :=
  [.newLock, .newLock, .spawn "first" ⟨10, by decide⟩, .spawn "second" ⟨20, by decide⟩,
    .spawn "third" ⟨30, by decide⟩,
    .call ⟨0, 0⟩ (.acquire ⟨⟨1⟩, ⟨0⟩⟩), .go ⟨0, 0⟩, .go ⟨0, 0⟩, .go ⟨0, 0⟩,
    .call ⟨1, 0⟩ (.acquire ⟨⟨2⟩, ⟨1⟩⟩), .go ⟨1, 0⟩, .go ⟨1, 0⟩, .go ⟨1, 0⟩,
    .call ⟨1, 0⟩ (.acquire ⟨⟨1⟩, ⟨0⟩⟩), .go ⟨1, 0⟩, .go ⟨1, 0⟩,
    .call ⟨2, 0⟩ (.acquire ⟨⟨2⟩, ⟨1⟩⟩), .go ⟨2, 0⟩, .go ⟨2, 0⟩,
    .setBase ⟨2, 0⟩ ⟨50, by decide⟩, .setBase ⟨0, 0⟩ .lowest]

/-- The new base priority of the third has been passed on over both locks. -/
theorem relay_covers_first : ∃ s r,
    play unforced relay (start 3 .priorityDonation) = some s ∧
      s.kernel.mode.donates = true ∧ s.table.get? ⟨1, 0⟩ = some r ∧
      r.waitingOn = some ⟨1⟩ ∧ s.table.holder? ⟨1⟩ = some ⟨0, 0⟩ ∧ r.priority.level = 50 ∧
      ∃ rh, s.table.get? ⟨0, 0⟩ = some rh ∧ r.priority ≤ rh.priority := by
  have plays : (play unforced relay (start 3 .priorityDonation)).map
      (fun s => (s.kernel.mode.donates, s.table.get? ⟨1, 0⟩, s.table.holder? ⟨1⟩)) =
        some (true, some ⟨"second", ⟨50, by decide⟩, ⟨20, by decide⟩, some ⟨1⟩, [⟨2, 0⟩]⟩,
          some ⟨0, 0⟩) := by
    decide +kernel
  obtain ⟨s, played, facts⟩ := Option.map_eq_some_iff.mp plays
  obtain ⟨donating, found, held⟩ : s.kernel.mode.donates = true ∧ s.table.get? ⟨1, 0⟩ = some _ ∧
      s.table.holder? ⟨1⟩ = some ⟨0, 0⟩ := by
    simpa only [Prod.mk.injEq] using facts
  have reachable : Reachable unforced s := (Reachable.start (by decide)).play played
  exact ⟨s, _, played, donating, found, rfl, held, rfl,
    (waiters_below_holder reachable donating).1 _ _ _ _ found rfl held⟩

/-! ### The closed form -/

/-- The effective priority of a live thread is the greatest base priority of the thread itself and
of all threads that wait, directly or through others, for a lock that it holds. Without a waiter
for any lock of its own, the thread is at its base priority. -/
theorem priority_isGreatest_base {r : ThreadRecord} (reachable : Reachable steady s)
    (donating : s.kernel.mode.donates = true) (found : s.table.get? t = some r) :
    IsGreatest {level | ∃ u ru, s.table.get? u = some ru ∧ ReflTransGen s.table.Awaits u t ∧
        ru.basePriority.level = level} r.priority.level ∧
      ((∀ u id, s.table.waits u = some id → s.table.holder? id ≠ some t) →
        r.priority = r.basePriority) := by
  have settled := reachable.settled donating
  refine ⟨isGreatest_of_settled settled (reachable.acyclic donating) found, fun nobody => ?_⟩
  refine settled.priority_eq_base found fun d edge => ?_
  obtain ⟨id, waiting, held⟩ := awaits_iff.mp edge
  exact nobody d id waiting held

/-! A holder of base 10 whose lock a thread of base 40 waits for. -/

/-- Two threads come to want one lock: the first holds it, the second queues for it. -/
def contention : List Move :=
  [.newLock, .spawn "low" ⟨10, by decide⟩, .spawn "high" ⟨40, by decide⟩,
    .call ⟨0, 0⟩ (.acquire ⟨⟨1⟩, ⟨0⟩⟩), .go ⟨0, 0⟩, .go ⟨0, 0⟩, .go ⟨0, 0⟩,
    .call ⟨1, 0⟩ (.acquire ⟨⟨1⟩, ⟨0⟩⟩), .go ⟨1, 0⟩, .go ⟨1, 0⟩]

/-- The holder of base 10 has the priority of the waiter of base 40. -/
theorem priority_of_contended_holder : ∃ s r,
    play steady contention (start 2 .priorityDonation) = some s ∧
      s.kernel.mode.donates = true ∧ s.table.get? ⟨0, 0⟩ = some r ∧
      r.basePriority.level = 10 ∧ r.priority.level = 40 ∧
      IsGreatest {level | ∃ u ru, s.table.get? u = some ru ∧
        ReflTransGen s.table.Awaits u ⟨0, 0⟩ ∧ ru.basePriority.level = level} 40 := by
  have plays : (play steady contention (start 2 .priorityDonation)).map
      (fun s => (s.kernel.mode.donates, s.table.get? ⟨0, 0⟩)) =
        some (true, some ⟨"low", ⟨40, by decide⟩, ⟨10, by decide⟩, none, [⟨1, 0⟩]⟩) := by
    decide +kernel
  obtain ⟨s, played, facts⟩ := Option.map_eq_some_iff.mp plays
  obtain ⟨donating, found⟩ := Prod.mk.inj facts
  have reachable : Reachable steady s := (Reachable.start (by decide)).play played
  exact ⟨s, _, played, donating, found, rfl, rfl,
    (priority_isGreatest_base reachable donating found).1⟩

end KernelSync.System
