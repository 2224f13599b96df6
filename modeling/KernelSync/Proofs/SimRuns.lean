import KernelSync.Proofs.TurnCases

/-!
Runs of a simulation in which no step ends in a fault. A script fits its settings if it names only
objects that the simulation starts with. A state is `Reached` if no step up to it has ended in a fault,
caught or not; so no thread has panicked, and none has been left in the middle of a call by a fault
that was caught. A run that goes on after a caught fault may still end with no failure on record, and
is not among these.
-/

namespace KernelSync.Simulation

variable {settings : Settings} {script : List Action} {s s' : Simulation} {events : List Event}

/-! ### Scripts that name what there is -/

namespace Settings

/-- The lock is one of those that the simulation starts with. -/
def OffersLock (settings : Settings) (lock : Lock) : Prop :=
  ∃ i < settings.locks, lock = settings.lock i

/-- The objects that a call names are among those that the simulation starts with. -/
def Offers (settings : Settings) : Call → Prop
  | .down x | .up x => x.index < settings.counts.length
  | .acquire lock | .release lock => settings.OffersLock lock
  | .wait c lock | .signal c lock | .broadcast c lock =>
      c.index < settings.condvars ∧ settings.OffersLock lock

def OffersShort (settings : Settings) : ShortCall → Prop
  | .tryDown x => x.index < settings.counts.length
  | .tryAcquire lock | .held lock => settings.OffersLock lock

mutual

/-- An action and all that is nested in it make calls only on what the simulation starts with. -/
def AdmitsAction (settings : Settings) : Action → Prop
  | .call made => settings.Offers made
  | .short made => settings.OffersShort made
  | .waitWhile c lock _ => settings.Offers (.wait c lock)
  | .spawn _ _ script _ => settings.Admits script
  | .interrupt script => settings.Admits script
  | .times _ script => settings.Admits script
  | .ifLast yes no => settings.Admits yes ∧ settings.Admits no
  | .branch _ yes no => settings.Admits yes ∧ settings.Admits no
  | .attempt script => settings.Admits script
  | _ => True

def Admits (settings : Settings) : List Action → Prop
  | [] => True
  | action :: actions => settings.AdmitsAction action ∧ settings.Admits actions

end

/-- The script names what there is, and the counts are numbers that a semaphore can have. -/
structure Fits (settings : Settings) (script : List Action) : Prop where
  counts : ∀ count ∈ settings.counts, count ≤ Semaphore.maxCount
  script : settings.Admits script

end Settings

/-- What is pending makes calls only on what there is: `spare` lists the semaphores that stand
alone, those for the ends of threads among them. -/
def Pending.Admitted (settings : Settings) (spare : List SemaphoreId) : Pending → Prop
  | .actions script => settings.Admits script
  | .times _ script => settings.Admits script
  | .waiting c lock _ _ => settings.Offers (.wait c lock)
  | .known _ _ exited | .finish exited => exited ∈ spare
  | _ => True

theorem Pending.Admitted.mono {spare spare' : List SemaphoreId} {pending : Pending}
    (more : ∀ x ∈ spare, x ∈ spare') (admitted : pending.Admitted settings spare) :
    pending.Admitted settings spare' := by
  cases pending with
  | known name thread exited => exact more _ admitted
  | finish exited => exact more _ admitted
  | _ => exact admitted

/-- What comes in the place of something admitted is admitted. -/
theorem Unrolls.admitted {pending : Pending} {new : List Pending} {frames : List Frame}
    {spare : List SemaphoreId} (unrolls : Unrolls s pending new frames)
    (admitted : pending.Admitted settings spare) :
    ∀ p ∈ new, p.Admitted settings spare := by
  cases unrolls with
  | start | ended | timesOver | waited | reports | known | attempt | disguise | returned =>
    exact List.forall_mem_nil _
  | calls | joins =>
    rintro p (_ | ⟨_, _ | ⟨_, ⟨⟩⟩⟩)
    · trivial
    · exact admitted.2
  | waitsWhile | repeats =>
    rintro p (_ | ⟨_, _ | ⟨_, ⟨⟩⟩⟩)
    · exact admitted.1
    · exact admitted.2
  | chooses holds | branches holds =>
    rintro p (_ | ⟨_, _ | ⟨_, ⟨⟩⟩⟩)
    · cases holds
      · exact admitted.1.2
      · exact admitted.1.1
    · exact admitted.2
  | attempts =>
    rintro p (_ | ⟨_, _ | ⟨_, _ | ⟨_, ⟨⟩⟩⟩⟩)
    · exact admitted.1
    · trivial
    · exact admitted.2
  | acts =>
    rintro p (_ | ⟨_, ⟨⟩⟩)
    exact admitted.2
  | timesAgain =>
    rintro p (_ | ⟨_, _ | ⟨_, ⟨⟩⟩⟩)
    · exact admitted
    · exact admitted
  | waits =>
    rintro p (_ | ⟨_, ⟨⟩⟩)
    exact admitted

/-! ### Runs -/

/-- The states that the simulation of a script can come to without a fault: no step so far has ended in
one, not even in one that was caught. -/
inductive Reached (settings : Settings) (script : List Action) : Simulation → Prop where
  | start {main : ThreadId} {table : ThreadTable} {events : List Event}
      (boots : settings.table (.empty 0) = ⟨.ok main, table, events⟩) :
      Reached settings script (settings.start script table main)
  | step {s : Simulation} (before : Reached settings script s)
      (sound : (advance s).outcome = .ok ()) : Reached settings script (step s).state

/-- A step without a fault is all that the running thread does. -/
theorem step_of_sound (sound : (advance s).outcome = .ok ()) :
    step s = ⟨.ok (), (advance s).state, (advance s).events⟩ := by
  unfold step
  rcases ends : advance s with ⟨outcome, s', events⟩
  rw [ends] at sound
  cases sound
  have caught : Stretch.catching advance s = ⟨.ok (.ok ()), s', events⟩ := by
    unfold Stretch.catching
    rw [ends]
  rw [Stretch.bind_run_ok caught]
  simp

/-- As many steps, unless one of them ends in a fault, caught or not. -/
def play : Nat → Simulation → Option Simulation
  | 0, s => some s
  | count + 1, s =>
      match (advance s).outcome with
      | .ok () => play count (step s).state
      | .error _ => none

theorem Reached.play {count : Nat} (reached : Reached settings script s)
    (played : s.play count = some s') : Reached settings script s' := by
  induction count generalizing s with
  | zero =>
    cases played
    exact reached
  | succ count ih =>
    cases ends : (advance s).outcome with
    | ok _ => exact ih (reached.step ends) (by simpa only [Simulation.play, ends] using played)
    | error fault => simp only [Simulation.play, ends, reduceCtorEq] at played

end KernelSync.Simulation
