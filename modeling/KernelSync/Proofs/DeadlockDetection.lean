import KernelSync.Proofs.EffectivePriority
import KernelSync.Proofs.MoveOutcomes

/-!
Deadlocks under donation. A thread that comes to wait for a held lock walks along the chain of
waiting threads, and the call fails if the walk leads back to it. In a run that has gone well so
far there is no cycle yet, so the walk fails just when the new wait would close one, and the bound
on its hops, which is there for tables with a cycle, never stops it.
-/

namespace KernelSync.System

open Stretch ThreadTable Donation Relation

variable {s : System} {rule : Rule} {t holder : ThreadId} {lock : Lock} {move : Move}

/-! ### Trying a lock -/

section Trying

variable (orderly : Orderly s) (acyclic : Acyclic s.table) (donating : s.kernel.mode.donates = true)
  (allowed : s.Allowed (.go t)) (here : s.at? t = some (.acquire lock))

include orderly acyclic allowed here in
/-- The registration in a stretch that tries a held lock: it is not stopped, and goes well unless
the chain of the holder leads to the caller. -/
theorem register_of_acquire (held : s.table.holder? lock.id = some holder) (apart : holder ≠ t) :
    (∀ e ∈ (Lock.register lock.id t true s.table).events, ¬ Revisits e) ∧
      (ReflTransGen s.table.Awaits holder t ∧
          (∃ last, (Lock.register lock.id t true s.table).outcome =
            .error (.donationCycle t last)) ∨
        ¬ ReflTransGen s.table.Awaits holder t ∧
          (Lock.register lock.id t true s.table).outcome = .ok ()) :=
  Lock.register_outcome orderly.sound.accounted allowed.2.1 held apart (orderly.mayRegister here)
    orderly.sound.arena acyclic

include orderly donating in
/-- What the stretch does, under donation. -/
theorem acquire_run_donating : (Frame.acquire lock).advance t (s.kernelAt t) =
    match Lock.register lock.id t true s.table with
    | ⟨.ok (), table, events⟩ =>
        let run := Frame.takeOrQueue t lock true ((s.kernelAt t).setTable table)
        ⟨run.outcome, run.state, events ++ run.events⟩
    | ⟨.error fault, table, events⟩ => ⟨.error fault, (s.kernelAt t).setTable table, events⟩ := by
  have mode : (s.kernelAt t).mode.donates = true := donating
  have quiet : (s.kernelAt t).Quiet := orderly.quiet.withDepth _
  rw [Frame.acquire_run quiet, mode]
  rfl

include orderly acyclic donating allowed here

/-- A stretch that tries a lock reports no walk that was stopped. -/
theorem acquire_unstopped : ∀ e ∈ (perform (.go t) s).events, ¬ Revisits e := by
  obtain ⟨rest, busy⟩ := busy_of_at? here
  refine go_unstopped busy fun e mem => ?_
  have registers : ∀ e ∈ (Lock.register lock.id t true s.table).events, ¬ Revisits e := by
    cases held : s.table.holder? lock.id with
    | none =>
      rw [Lock.register_run_unheld held]
      exact fun _ mem => absurd mem List.not_mem_nil
    | some holder =>
      by_cases own : holder = t
      · subst own
        rw [Lock.register_run_own held]
        exact fun _ mem => absurd mem List.not_mem_nil
      · exact (register_of_acquire orderly acyclic allowed here held own).1
  rw [acquire_run_donating orderly donating] at mem
  rcases ran : Lock.register lock.id t true s.table with ⟨fault | ⟨⟩, table, events⟩ <;>
    rw [ran] at mem registers
  · exact registers e mem
  · rcases List.mem_append.mp mem with mem | mem
    · exact registers e mem
    · exact Frame.unstopped_takeOrQueue.events _ e mem

/-- To try a held lock fails with a donation cycle exactly if the chain of its holder leads to the
caller. -/
theorem acquire_cycle_iff (held : s.table.holder? lock.id = some holder) (apart : holder ≠ t) :
    (∃ last, (perform (.go t) s).outcome = .error (.donationCycle t last)) ↔
      ReflTransGen s.table.Awaits holder t := by
  obtain ⟨rest, busy⟩ := busy_of_at? here
  have mine : lock ∈ s.locks := (fine_of_busy orderly busy rfl).1
  have empty : (s.kernel.semaphore lock.semaphore).count = 0 :=
    (permit_of_not_up orderly allowed.1 mine (by rw [here]; simp)).trans (if_neg (by simp [held]))
  simp only [go_eq_error_iff busy, acquire_run_donating orderly donating]
  rcases (register_of_acquire orderly acyclic allowed here held apart).2 with
    ⟨back, last, fails⟩ | ⟨onwards, goesWell⟩
  · rcases ran : Lock.register lock.id t true s.table with ⟨outcome, table, events⟩
    rw [ran] at fails
    subst fails
    exact iff_of_true ⟨last, rfl⟩ back
  · rcases ran : Lock.register lock.id t true s.table with ⟨outcome, table, events⟩
    rw [ran] at goesWell
    subst goesWell
    refine iff_of_false (fun ⟨last, fails⟩ => ?_) onwards
    have quiet : ((s.kernelAt t).setTable table).Quiet := (orderly.quiet.withDepth _).setTable _
    obtain ⟨id, stale⟩ := Frame.takeOrQueue_of_empty quiet empty fails
    exact nomatch stale

end Trying

/-! ### Changing a base priority -/

theorem changeBase_run_of_stale {table : ThreadTable} {base : Priority} {mode : SchedulingMode}
    (stale : table.get? t = none) :
    changeBasePriority t base mode table = ⟨.error (.staleHandle t), table, []⟩ := by
  unfold changeBasePriority setBasePriority amend
  rw [bind_run_error (bind_run_error (record_run_of_stale stale) _)]

/-- No walk is stopped when a base priority is changed, whoever's it is. -/
theorem setBase_unstopped (orderly : Orderly s) (acyclic : Acyclic s.table)
    (donating : s.kernel.mode.donates = true) {base : Priority} :
    ∀ e ∈ (perform (.setBase t base) s).events, ¬ Revisits e := by
  have quiet : ∀ e ∈ (changeBasePriority t base s.kernel.mode s.table).events, ¬ Revisits e := by
    cases found : s.table.get? t with
    | none =>
      rw [changeBase_run_of_stale found]
      exact fun _ mem => absurd mem List.not_mem_nil
    | some r =>
      exact (changeBase_outcome orderly.sound.arena orderly.sound.accounted acyclic
        (contains_of_get? found) donating).1
  intro e mem
  rw [setBase_run orderly.quiet] at mem
  rcases List.mem_cons.mp mem with rfl | mem
  · simp [Revisits]
  rcases List.mem_append.mp mem with mem | mem
  · exact quiet e mem
  · rw [List.mem_singleton.mp mem]
    simp [Revisits]

/-! ### All moves -/

/-- No move from a state of a run with donation reports a walk that was stopped. -/
theorem perform_unstopped (orderly : Orderly s) (acyclic : Acyclic s.table)
    (donating : s.kernel.mode.donates = true) (allowed : s.Allowed move) :
    ∀ e ∈ (perform move s).events, ¬ Revisits e := by
  cases move with
  | setBase t base => exact setBase_unstopped orderly acyclic donating
  | go t =>
    cases busy : (s.activity t).frames with
    | nil => exact absurd busy allowed.2.2.1
    | cons head rest =>
      by_cases tries : ∃ lock, head = .acquire lock
      · obtain ⟨lock, rfl⟩ := tries
        exact acquire_unstopped orderly acyclic donating allowed (at?_of_frames busy)
      · have notTry : ∀ lock, head ≠ .acquire lock := fun lock is => tries ⟨lock, is⟩
        exact go_unstopped busy ((Frame.calm_advance notTry).events _)
  | short t call => exact short_unstopped.events s
  | newSemaphore | newLock | newCondvar | spawn | remove | setEffective | interrupt | call =>
    refine (calm_perform ?_ ?_ ?_).events s
    · simp
    · simp
    · simp

/-- In a run with donation nobody ever waits, through others, for a lock of their own; a call for a
lock that another thread holds fails with a donation cycle exactly if the wait chain of the holder
leads to the caller, on its first registration and on each later one; and no move, well-ended or
not, runs into the bound on the hops of a walk. -/
theorem deadlock_detection_exact (reachable : Reachable anyMove s)
    (donating : s.kernel.mode.donates = true) :
    (∀ t, ¬ TransGen s.table.Awaits t t) ∧
      (∀ t lock holder, s.Allowed (.go t) → s.at? t = some (.acquire lock) →
        s.table.holder? lock.id = some holder → holder ≠ t →
          ((∃ last, (perform (.go t) s).outcome = .error (.donationCycle t last)) ↔
            ReflTransGen s.table.Awaits holder t)) ∧
      ∀ move, s.Allowed move → ∀ donor walker id hops,
        Event.log (.chainRevisits donor walker id hops) ∉ (perform move s).events := by
  have orderly := reachable.orderly
  have acyclic := reachable.acyclic donating
  refine ⟨acyclic, ?_, ?_⟩
  · intro t lock holder allowed here held apart
    exact acquire_cycle_iff orderly acyclic donating allowed here held apart
  · intro move allowed donor walker id hops mem
    exact perform_unstopped orderly acyclic donating allowed _ mem ⟨donor, walker, id, hops, rfl⟩

/-! Two threads that hold a lock each and come to want the other's. -/

/-- The first thread waits for the lock of the second, which is about to try that of the first. -/
def embrace : List Move :=
  [.newLock, .newLock, .spawn "first" .standard, .spawn "second" .standard,
    .call ⟨0, 0⟩ (.acquire ⟨⟨1⟩, ⟨0⟩⟩), .go ⟨0, 0⟩, .go ⟨0, 0⟩, .go ⟨0, 0⟩,
    .call ⟨1, 0⟩ (.acquire ⟨⟨2⟩, ⟨1⟩⟩), .go ⟨1, 0⟩, .go ⟨1, 0⟩, .go ⟨1, 0⟩,
    .call ⟨0, 0⟩ (.acquire ⟨⟨2⟩, ⟨1⟩⟩), .go ⟨0, 0⟩, .go ⟨0, 0⟩,
    .call ⟨1, 0⟩ (.acquire ⟨⟨1⟩, ⟨0⟩⟩), .go ⟨1, 0⟩]

/-- The second thread fails on its try. -/
theorem embrace_is_detected : ∃ s, play anyMove embrace (start 2 .priorityDonation) = some s ∧
    s.kernel.mode.donates = true ∧
      ∃ last, (perform (.go ⟨1, 0⟩) s).outcome = .error (.donationCycle ⟨1, 0⟩ last) := by
  have plays : (play anyMove embrace (start 2 .priorityDonation)).map (fun s =>
      decide (s.kernel.mode.donates = true ∧ s.Allowed (.go ⟨1, 0⟩) ∧
        s.at? ⟨1, 0⟩ = some (.acquire ⟨⟨1⟩, ⟨0⟩⟩) ∧ s.table.holder? ⟨1⟩ = some ⟨0, 0⟩ ∧
        s.table.ahead? ⟨0, 0⟩ = some ⟨1, 0⟩)) = some true := by
    decide +kernel
  obtain ⟨s, played, facts⟩ := Option.map_eq_some_iff.mp plays
  obtain ⟨donating, allowed, here, held, ahead⟩ := of_decide_eq_true facts
  have reachable : Reachable anyMove s := (Reachable.start (by decide)).play played
  have edge : s.table.Awaits ⟨0, 0⟩ ⟨1, 0⟩ := ahead
  refine ⟨s, played, donating, ?_⟩
  exact ((deadlock_detection_exact reachable donating).2.1 _ _ _ allowed here held (by decide)).mpr
    (ReflTransGen.single edge)

end KernelSync.System
