import Mathlib
import KernelSync.Proofs.Deadlocks
import KernelSync.Proofs.WakeUps

/-!
No wake-up is lost. A semaphore with a queue has no more permits than there are threads on their way
to it, so a lock that nobody holds is on its way to a thread if any is queued for it, and where a
simulation reports a deadlock there is no permit that a thread is queued for (`no_lost_wake_up`).
-/

namespace KernelSync

open List

namespace System

variable {s s' s'' : System} {move : Move} {rule : Rule} {t u : ThreadId} {x : SemaphoreId}
  {path more : List Made}

/-! ### Who takes threads out of queues -/

theorem wakes_of_path (leads : Path s path s') (reachable : Reachable anyMove s) :
    ∀ made ∈ path, ∀ x, ∀ u ∈ made.takenOut x, made.Wakes x u := by
  induction leads with
  | rest => exact forall_mem_nil _
  | move allowed ends _ ih =>
    rintro made (_ | ⟨_, later⟩) x u taken
    · exact (reachable.moved allowed ends).wakes reachable.orderly taken
    · exact ih (.move reachable allowed trivial ends) made later x u taken

/-! ### Deadlocks -/

/-- Where nobody is awake, no permit is there for which a thread is queued. -/
theorem permits_of_nobody (reachable : Reachable exitsIdle s)
    (nobody : ∀ t, s.Live t → (s.activity t).blocked = true) (x : SemaphoreId)
    (waits : s.kernel.queue x ≠ []) : s.kernel.permits x = 0 := by
  obtain ⟨capacity, mode, path, small, leads, obeys⟩ := reachable.exists_path
  have tracked : Tracked s x (inFlight x path) :=
    tracked_of_path (.start small) leads obeys tracked_start
  have backed : Backed s x (inFlight x path) :=
    backed_of_path (.start small) leads fun queued => absurd rfl queued
  have grounded : inFlight x path = [] := by
    refine eq_nil_iff_forall_not_mem.mpr fun t flying => ?_
    obtain ⟨live, awake, -⟩ := tracked.underway t flying
    exact nomatch awake.symm.trans (nobody t live)
  have none := backed waits
  rw [grounded] at none
  exact Nat.le_zero.mp none

end System

namespace Simulation

/-- At a switch for which nobody contends, no permit is there for which a thread is queued. -/
theorem Reached.permits_of_nobody {settings : Settings} {script : List Action} {s s₁ : Simulation}
    {how : Switch} (fits : settings.Fits script) (reached : Reached settings script s)
    (switches : s.Switches how s₁) (nobody : s₁.contenders (some how) = []) (x : SemaphoreId)
    (waits : s₁.kernel.queue x ≠ []) : s₁.kernel.permits x = 0 := by
  obtain ⟨σ, reachable, mirrors⟩ := reached.mirrored_switches fits switches
  have queue : σ.kernel.queue x = s₁.kernel.queue x := by rw [mirrors.kernel]; rfl
  have permits : σ.kernel.permits x = s₁.kernel.permits x := by rw [mirrors.kernel]; rfl
  rw [← permits]
  refine System.permits_of_nobody (exitsIdle_of_scheduled reachable) (fun t live => ?_) x
    (queue ▸ waits)
  refine Bool.eq_true_of_not_eq_false fun awake => ?_
  have contends := (mirrors.contends t).mpr ⟨live, awake⟩
  exact absurd (nobody ▸ contends) List.not_mem_nil

end Simulation

section

open KernelSync.System

/-- No wake-up is lost. On every run a semaphore with a queue has no more permits than there are
threads that have been taken out of its queue and have not tried again since, all of them by a
thread that added a permit and unblocked them. If threads leave between calls alone, each of these
is a live thread on its way to the semaphore, and a lock that nobody holds and for which a thread is
queued is on its way to a woken thread. Where a simulation reports a deadlock, no permit is there
for which a thread is queued. -/
theorem no_lost_wake_up :
    (∀ capacity mode path s, capacity ≤ ThreadTable.maxCapacity →
      Path (start capacity mode) path s →
        (∀ x, s.kernel.queue x ≠ [] → s.kernel.permits x ≤ (inFlight x path).length) ∧
        (∀ x, ∀ made ∈ path, ∀ u ∈ made.takenOut x, made.Wakes x u) ∧
        ((∀ made ∈ path, exitsIdle made.before made.move) →
          (∀ x, (inFlight x path).Nodup ∧ ∀ t ∈ inFlight x path, s.Underway x t) ∧
          ∀ l ∈ s.locks, (∀ t, s.phase ≠ .within t) → s.table.holder? l.id = none →
            s.kernel.queue l.semaphore ≠ [] → ∃ t, s.Live t ∧ s.Woken l t)) ∧
    ∀ settings script s, settings.Fits script → Simulation.Reached settings script s →
      (∃ live, (Simulation.step s).state.queue.failure = some (.deadlock live)) →
        ∃ how s₁, s.Switches how s₁ ∧
          ∀ x, s₁.kernel.queue x ≠ [] → s₁.kernel.permits x = 0 := by
  refine ⟨fun capacity mode path s small leads => ?_, fun settings script s fits reached dead => ?_⟩
  · have backed : ∀ x, Backed s x (inFlight x path) := fun x =>
      backed_of_path (.start small) leads fun queued => absurd rfl queued
    refine ⟨backed, fun x made mem => wakes_of_path leads (.start small) made mem x,
      fun obeys => ?_⟩
    have tracked : ∀ x, Tracked s x (inFlight x path) := fun x =>
      tracked_of_path (.start small) leads obeys tracked_start
    refine ⟨fun x => ⟨(tracked x).nodup, (tracked x).underway⟩,
      fun l mem outside unheld waits => ?_⟩
    have reachable : Reachable exitsIdle s := leads.reachable (.start small) obeys
    exact exists_woken reachable.orderly reachable.attended mem outside unheld waits
      (backed _) (tracked _)
  · obtain ⟨how, s₁, switches, nobody⟩ := (reached.deadlocked_iff fits).mp dead
    exact ⟨how, s₁, switches, reached.permits_of_nobody fits switches nobody⟩

/-- A lock for which two threads are queued, up to the point at which its holder has given it up. -/
def handover : List Move :=
  [.newLock, .spawn "low" .lowest, .spawn "middle" .standard, .spawn "high" .highest,
    .call ⟨0, 0⟩ (.acquire ⟨⟨1⟩, ⟨0⟩⟩), .go ⟨0, 0⟩, .go ⟨0, 0⟩, .go ⟨0, 0⟩,
    .call ⟨1, 0⟩ (.acquire ⟨⟨1⟩, ⟨0⟩⟩), .go ⟨1, 0⟩, .go ⟨1, 0⟩,
    .call ⟨2, 0⟩ (.acquire ⟨⟨1⟩, ⟨0⟩⟩), .go ⟨2, 0⟩, .go ⟨2, 0⟩,
    .call ⟨0, 0⟩ (.release ⟨⟨1⟩, ⟨0⟩⟩), .go ⟨0, 0⟩, .go ⟨0, 0⟩, .go ⟨0, 0⟩, .go ⟨0, 0⟩]

/-- One thread is still queued for the lock, which nobody holds, and another is on its way to it; and
in a famine nobody is queued for a permit that is there. -/
theorem handover_is_underway :
    (∃ path s, Path (start 3 .priorityDonation) path s ∧ s.kernel.queue ⟨0⟩ = [⟨1, 0⟩] ∧
      s.kernel.permits ⟨0⟩ = 1 ∧ 1 ≤ (inFlight ⟨0⟩ path).length ∧
      ∃ t, s.Live t ∧ s.Woken ⟨⟨1⟩, ⟨0⟩⟩ t) ∧
    ∃ s how s₁, Simulation.Reached Simulation.famine Simulation.famished s ∧
      s.Switches how s₁ ∧ ∀ x, s₁.kernel.queue x ≠ [] → s₁.kernel.permits x = 0 := by
  have plays : (play exitsIdle handover (start 3 .priorityDonation)).map (fun s =>
      decide (s.kernel.queue ⟨0⟩ = [⟨1, 0⟩] ∧ s.kernel.permits ⟨0⟩ = 1 ∧
        ⟨⟨1⟩, ⟨0⟩⟩ ∈ s.locks ∧ s.phase = .free ∧ s.table.holder? ⟨1⟩ = none)) = some true := by
    cbv
  obtain ⟨s, played, facts⟩ := Option.map_eq_some_iff.mp plays
  obtain ⟨queue, permits, mem, free, unheld⟩ := of_decide_eq_true facts
  obtain ⟨path, leads, -, obeys⟩ := exists_path_of_play played
  have kept := no_lost_wake_up.1 3 .priorityDonation path s (by decide) leads
  have waits : s.kernel.queue ⟨0⟩ ≠ [] := by simp [queue]
  refine ⟨⟨path, s, leads, queue, permits, permits ▸ kept.1 ⟨0⟩ waits, ?_⟩, ?_⟩
  · exact (kept.2.2 obeys).2 ⟨⟨1⟩, ⟨0⟩⟩ mem (by simp [free]) unheld waits
  · obtain ⟨sim, reached, -, -, dead⟩ := Simulation.famine_reached
    obtain ⟨how, s₁, switches, none⟩ :=
      no_lost_wake_up.2 _ _ sim Simulation.famine_fits reached dead
    exact ⟨sim, how, s₁, reached, switches, none⟩

end

end KernelSync
