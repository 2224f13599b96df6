import KernelSync.Proofs.FaultyRuns
import KernelSync.Proofs.Journeys

/-!
No cell is accessed during an access to it. The accesses of a stretch lie one after the other, or
inside one another on different cells; between two stretches there are none, and so it is when the
scheduler is called (`accesses_never_overlap`). What fails on the way, and whether it is caught, makes
no difference.
-/

namespace KernelSync

open Stretch

namespace System

variable {mode : SchedulingMode} {s : System} {t : ThreadId} {request : Request} {k : Kernel}

/-- The next stretch of the call of `t` ends with that request to the scheduler, made in `k`. -/
def Asks (s : System) (t : ThreadId) (request : Request) (k : Kernel) : Prop :=
  ∃ progress events, Frame.step t (s.activity t).frames (s.kernelAt t) = ⟨.ok progress, k, events⟩ ∧
    progress.request = request

/-- The scheduler is called while no access is in progress. -/
theorem Unharmed.quiet_of_asks (unharmed : Unharmed s mode) (asks : s.Asks t request k) :
    k.Quiet := by
  obtain ⟨progress, events, steps, -⟩ := asks
  have conducts : Conducts presence (s.kernelAt t)
      (Frame.step t (s.activity t).frames (s.kernelAt t)) :=
    Frame.conducted_step overlooks_presence _ (unharmed.quiet.withDepth _) rfl
  have quiet := conducts.quiet
  rw [steps] at quiet
  exact quiet

end System

namespace Simulation

variable {s : Simulation} {request : Request} {k : Kernel}

/-- The running thread is in a call, and its next stretch ends with that request to the scheduler,
made in `k`. -/
def Asks (s : Simulation) (request : Request) (k : Kernel) : Prop :=
  s.currentThread.call ≠ [] ∧ ∃ progress events,
    Frame.step s.currentThread.id s.currentThread.call s.kernel = ⟨.ok progress, k, events⟩ ∧
      progress.request = request

theorem Intact.quiet_of_asks (intact : Intact s) (asks : s.Asks request k) : k.Quiet := by
  obtain ⟨-, progress, events, steps, -⟩ := asks
  have conducts : Conducts presence s.kernel
      (Frame.step s.currentThread.id s.currentThread.call s.kernel) :=
    Frame.conducted_step overlooks_presence _ intact.1.quiet rfl
  have quiet := conducts.quiet
  rw [steps] at quiet
  exact quiet

/-- What a step meets is never an overlap, and nothing escapes from the step. -/
theorem Intact.never_overlaps (intact : Intact s) :
    (∀ cell, (advance s).outcome ≠ .error (.overlap cell)) ∧ (step s).outcome = .ok () := by
  have advanced := triple_advance s intact
  have stepped := triple_step s intact
  constructor
  · intro cell fails
    rw [fails] at advanced
    exact advanced.1 cell rfl
  · rcases ends : (step s).outcome with fault | ⟨⟩
    · rw [ends] at stepped
      exact stepped.elim
    · rfl

end Simulation

/-- No cell is accessed during an access to it, in either mode, under any interleaving, and whatever
fails on the way. Under any scheduler that keeps to its contract no access is in progress between two
moves, nor at any request to the scheduler by a call of a primitive, and no move fails because of an
overlap. In a simulation it is the same between two steps and at the requests of the calls; neither a
call nor anything that the simulated kernel does itself fails so, be it a switch or the end of a
simulation that has failed, and no fault escapes from a step. -/
theorem accesses_never_overlap :
    (∀ {capacity : Nat} {mode : SchedulingMode} {attempts : List System.Attempt} {s : System},
      System.Endures capacity mode attempts s →
      s.kernel.Quiet ∧ (∀ t request k, s.Asks t request k → k.Quiet) ∧
        ∀ move, s.Allowed move → ∀ cell,
          (System.perform move s).outcome ≠ .error (.overlap cell)) ∧
    ∀ {settings : Simulation.Settings} {actions : List Simulation.Action} {path : List Simulation}
      {s : Simulation}, Simulation.Journey settings actions path s →
      s.kernel.Quiet ∧ (∀ request k, s.Asks request k → k.Quiet) ∧
        (∀ cell, (Simulation.advance s).outcome ≠ .error (.overlap cell)) ∧
        (Simulation.step s).outcome = .ok () := by
  constructor
  · intro capacity mode attempts s endures
    have unharmed := endures.unharmed
    refine ⟨unharmed.quiet, fun t request k => unharmed.quiet_of_asks, fun move _ cell fails => ?_⟩
    exact (System.survives_perform unharmed move).due _ fails (.overlap cell)
  · intro settings actions path s journey
    have intact := journey.intact
    exact ⟨intact.1.quiet, fun request k => intact.quiet_of_asks, intact.never_overlaps⟩

/-! ### A permit for a waiter -/

/-- The request with which a stretch has ended, unless it was cut short. -/
def Stretch.requested (run : Run Kernel Progress) : Option Request :=
  run.outcome.toOption.map (·.request)

theorem Stretch.ends_of_requested {run : Run Kernel Progress} {request : Request}
    (asked : requested run = some request) :
    ∃ progress events, run = ⟨.ok progress, run.state, events⟩ ∧ progress.request = request := by
  obtain ⟨outcome, k, events⟩ := run
  cases outcome with
  | error => cases asked
  | ok progress => exact ⟨progress, events, rfl, Option.some.inj asked⟩

/-- A thread waits for a permit, and another one is about to raise it. -/
def permitForWaiter : List Move :=
  [.newSemaphore 0, .spawn "waiter" .highest, .spawn "raiser" .standard,
    .call ⟨0, 0⟩ (.down ⟨0⟩), .go ⟨0, 0⟩, .go ⟨0, 0⟩, .call ⟨1, 0⟩ (.up ⟨0⟩), .go ⟨1, 0⟩]

/-- An interrupt handler raises a permit. -/
def raisedInHandler : List Simulation.Action := [.interrupt [.call (.up ⟨0⟩)]]

/-- Nothing is accessed when the raiser asks for the waiter to be woken, nor when a handler asks for a
check. -/
theorem wake_up_asks_outside_accesses :
    (∃ attempts s k, System.Endures 4 .priorityDonation attempts s ∧
      s.Asks ⟨1, 0⟩ (.unblock ⟨0, 0⟩) k ∧ k.Quiet) ∧
    ∃ path s k, Simulation.Journey { counts := [0] } raisedInHandler path s ∧
      s.kernel.inInterrupt = true ∧ s.Asks .check k ∧ k.Quiet := by
  constructor
  · have plays : (System.tryAll permitForWaiter [] (System.start 4 .priorityDonation)).map
        (fun tried => requested (Frame.step ⟨1, 0⟩ (tried.2.activity ⟨1, 0⟩).frames
          (tried.2.kernelAt ⟨1, 0⟩))) = some (some (.unblock ⟨0, 0⟩)) := by
      decide +kernel
    obtain ⟨⟨attempts, s⟩, tried, asked⟩ := Option.map_eq_some_iff.mp plays
    have asks : s.Asks ⟨1, 0⟩ (.unblock ⟨0, 0⟩) _ := ends_of_requested asked
    have endures := System.Endures.tryAll (.start (by decide)) tried
    exact ⟨attempts, s, _, endures, asks, (accesses_never_overlap.1 endures).2.1 _ _ _ asks⟩
  · let settings : Simulation.Settings := { counts := [0] }
    let start := settings.start raisedInHandler (settings.table (.empty 0)).state ⟨0, 0⟩
    have plays : (Simulation.playJourney 4 [] start).map (fun played =>
        (played.2.kernel.inInterrupt, played.2.currentThread.call.length,
          requested (Frame.step played.2.currentThread.id played.2.currentThread.call
            played.2.kernel))) = some (true, 2, some .check) := by
      decide +kernel
    obtain ⟨⟨path, s⟩, played, facts⟩ := Option.map_eq_some_iff.mp plays
    obtain ⟨inside, facts⟩ := Prod.mk.inj facts
    obtain ⟨busy, asked⟩ := Prod.mk.inj facts
    have busy : s.currentThread.call.length = 2 := busy
    have asks : s.Asks .check _ :=
      ⟨List.ne_nil_of_length_pos (by omega), ends_of_requested asked⟩
    have journey : Simulation.Journey settings raisedInHandler path s :=
      Simulation.Journey.play (.start rfl) played
    exact ⟨path, s, _, journey, inside, asks, (accesses_never_overlap.2 journey).2.1 _ _ asks⟩

end KernelSync
