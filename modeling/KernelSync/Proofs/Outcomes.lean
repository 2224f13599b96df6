import KernelSync.Proofs.Failures

/-!
Outcomes of runs. The outcome is decided by the course that the simulation has taken
(`finish_outcome`), and the course by the steps: the main thread has ended as some step ended it
(`result_of_steps`), and the failure on record is the one of the first step that failed
(`failure_of_steps`). So no failure is swallowed (`failures_decide_outcome`), whoever caught it.
-/

namespace KernelSync.Simulation

open Stretch hiding pure bind

variable {s : Simulation} {fuel : Nat} {reported : List (List Event)} {settings : Settings}
  {script : List Action} {failure : Failure}

/-! ### The steps of a run -/

/-- The states from which a run makes its steps, until the main thread has ended. -/
def trail : Nat → Simulation → List Simulation
  | 0, _ => []
  | fuel + 1, s => if s.result.isSome then [] else s :: trail fuel (step s).state

/-- The first of the steps that fail is this failure. -/
inductive FailsFirst : List Simulation → Failure → Prop where
  | here {s : Simulation} {rest : List Simulation} {failure : Failure} (fails : s.Fails failure) :
      FailsFirst (s :: rest) failure
  | later {s : Simulation} {rest : List Simulation} {failure : Failure}
      (sound : ∀ other, ¬ s.Fails other) (fails : FailsFirst rest failure) :
      FailsFirst (s :: rest) failure

/-- If a step fails, there is a first one that does. -/
theorem exists_failsFirst_iff {states : List Simulation} :
    (∃ failure, FailsFirst states failure) ↔ ∃ s ∈ states, ∃ failure, s.Fails failure := by
  constructor
  · rintro ⟨failure, first⟩
    induction first with
    | @here s rest failure fails => exact ⟨s, List.mem_cons_self, failure, fails⟩
    | later _ _ ih =>
      obtain ⟨s, mem, fails⟩ := ih
      exact ⟨s, List.mem_cons_of_mem _ mem, fails⟩
  · rintro ⟨s, mem, failure, fails⟩
    induction states with
    | nil => cases mem
    | cons head rest ih =>
      by_cases sound : ∀ other, ¬ head.Fails other
      · rcases List.mem_cons.mp mem with rfl | mem
        · exact absurd fails (sound failure)
        · obtain ⟨first, is⟩ := ih mem
          exact ⟨first, .later sound is⟩
      · obtain ⟨first, is⟩ := not_forall_not.mp sound
        exact ⟨first, .here is⟩

theorem steps_of_ended (ended : s.result ≠ none) : steps fuel s reported = (s, reported) := by
  cases fuel with
  | zero => rfl
  | succ fuel => exact if_pos (Option.isSome_iff_ne_none.mpr ended)

theorem trail_of_ended (ended : s.result ≠ none) : trail fuel s = [] := by
  cases fuel with
  | zero => rfl
  | succ fuel => exact if_pos (Option.isSome_iff_ne_none.mpr ended)

theorem steps_succ (goesOn : s.result = none) : steps (fuel + 1) s reported =
    steps fuel (step s).state ((step s).events :: reported) :=
  if_neg (by simp [goesOn])

theorem trail_succ (goesOn : s.result = none) :
    trail (fuel + 1) s = s :: trail fuel (step s).state :=
  if_neg (by simp [goesOn])

/-- The main thread has ended as one of the steps ended it. -/
theorem result_of_steps {last : Except Fault Unit}
    (unwinds : ∀ s' ∈ trail fuel s, (step s').outcome = .ok ()) :
    (steps fuel s reported).1.result = some last ↔
      s.result = some last ∨ ∃ s' ∈ trail fuel s, s'.MainEnds last := by
  induction fuel generalizing s reported with
  | zero => simp [steps, trail]
  | succ fuel ih =>
    by_cases goesOn : s.result = none
    · rw [trail_succ goesOn] at unwinds ⊢
      rw [steps_succ goesOn, ih fun s' mem => unwinds s' (List.mem_cons_of_mem _ mem),
        mainEnds_iff (unwinds s List.mem_cons_self) goesOn]
      simp [goesOn]
    · simp [steps_of_ended goesOn, trail_of_ended goesOn]

@[simp] theorem not_failsFirst_nil : ¬ FailsFirst [] failure := nofun

theorem failsFirst_cons {rest : List Simulation} : FailsFirst (s :: rest) failure ↔
    s.Fails failure ∨ (∀ other, ¬ s.Fails other) ∧ FailsFirst rest failure := by
  constructor
  · rintro (fails | ⟨sound, fails⟩)
    · exact .inl fails
    · exact .inr ⟨sound, fails⟩
  · rintro (fails | ⟨sound, fails⟩)
    · exact .here fails
    · exact .later sound fails

/-- What is on record after a step, or fails first among the steps `rest` that come after it, was on
record before, or fails first among all of them. -/
theorem recorded_step {rest : List Simulation} (unwinds : (step s).outcome = .ok ()) :
    ((step s).state.queue.failure = some failure ∨
        (step s).state.queue.failure = none ∧ FailsFirst rest failure) ↔
      s.queue.failure = some failure ∨
        s.queue.failure = none ∧ FailsFirst (s :: rest) failure := by
  rw [failsFirst_cons]
  by_cases sound : ∀ other, ¬ s.Fails other
  · simp [failure_of_sound unwinds sound, sound]
  · obtain ⟨first, fails⟩ := not_forall_not.mp sound
    have only : s.queue.failure = none → (s.Fails failure ↔ first = failure) := by
      intro unfailed
      refine ⟨fun other => ?_, fun same => same ▸ fails⟩
      have recorded := (failure_of_fails unwinds fails).symm.trans (failure_of_fails unwinds other)
      rw [unfailed] at recorded
      exact Option.some.inj recorded
    rw [failure_of_fails unwinds fails]
    cases unfailed : s.queue.failure with
    | some before => simp
    | none => simp [only unfailed, sound]

/-- The failure on record is the first one. -/
theorem failure_of_steps (unwinds : ∀ s' ∈ trail fuel s, (step s').outcome = .ok ()) :
    (steps fuel s reported).1.queue.failure = some failure ↔
      s.queue.failure = some failure ∨
        s.queue.failure = none ∧ FailsFirst (trail fuel s) failure := by
  induction fuel generalizing s reported with
  | zero => simp [steps, trail]
  | succ fuel ih =>
    by_cases goesOn : s.result = none
    · rw [trail_succ goesOn] at unwinds ⊢
      rw [steps_succ goesOn, ih fun s' mem => unwinds s' (List.mem_cons_of_mem _ mem)]
      exact recorded_step (unwinds s List.mem_cons_self)
    · simp [steps_of_ended goesOn, trail_of_ended goesOn]

/-! ### Outcomes -/

/-- What a course comes to: how the main thread ended, unless it returned and there was a failure. -/
def Course.verdict (c : Course) : Except Fault Unit :=
  match c.result with
  | none => .error .unfinished
  | some (.error fault) => .error fault
  | some (.ok ()) =>
      match c.queue.failure with
      | some failure => .error (.ended failure.text)
      | none => .ok ()

theorem Course.verdict_eq_ok {c : Course} :
    c.verdict = .ok () ↔ c.result = some (.ok ()) ∧ c.queue.failure = none := by
  unfold verdict
  split
  · rename_i result
    simp [result]
  · rename_i result
    simp [result]
  · rename_i result
    split
    · rename_i failed
      simp [failed]
    · rename_i unfailed
      simp [result, unfailed]

/-- To join the threads that were given up finds what has escaped from them. -/
theorem reportEscapes_run {threads : List SimThread} :
    ∃ escape events, reportEscapes threads s = ⟨.ok escape, s, events⟩ ∧
      ((∀ t ∈ threads, t.escaped = none) → escape = none) := by
  induction threads with
  | nil => exact ⟨none, [], rfl, fun _ => rfl⟩
  | cons t rest ih =>
    obtain ⟨escape, events, joins, nothing⟩ := ih
    cases escaped : t.escaped with
    | none =>
      refine ⟨escape, events, ?_, fun contained => nothing fun u mem => ?_⟩
      · rw [reportEscapes, escaped]
        exact joins
      · exact contained u (List.mem_cons_of_mem _ mem)
    | some text =>
      let failure := Failure.escaped t.name text
      refine ⟨some failure, .log (.shutdownFailed failure.text) :: events, ?_, fun contained => ?_⟩
      · rw [reportEscapes, escaped]
        dsimp only
        rw [bind_run_ok (log_run _ _), bind_run_ok joins, pure_run]
        simp [failure]
      · exact nomatch escaped.symm.trans (contained t List.mem_cons_self)

/-- The outcome is what the course comes to, if nothing escapes from the threads given up. -/
theorem finish_outcome (contained : s.result.isSome →
    ∀ t ∈ (retireOthers s).state.threads, t.escaped = none) :
    (finish s).outcome = s.course.verdict := by
  have result : (retireOthers s).state.result = s.result :=
    keeps_retireOthers (P := (·.result = s.result)) (fun _ _ _ _ holds => holds) s rfl
  obtain ⟨s', _, retires, -⟩ := retireOthers_run (s := s)
  rw [retires] at contained result
  obtain ⟨escape, _, joins, nothing⟩ : ∃ escape events,
      reportEscapes s'.threads s' = ⟨.ok escape, s', events⟩ ∧ _ := reportEscapes_run
  unfold finish Course.verdict course
  rw [bind_run_ok (read_run _ _), bind_run_ok retires, bind_run_ok (read_run _ _),
    bind_run_ok joins, bind_run_ok (read_run _ _), result]
  cases ended : s.result with
  | none => rfl
  | some last =>
    rw [nothing (contained (by simp [ended]))]
    cases last with
    | error fault => rfl
    | ok _ => cases s.queue.failure <;> rfl

/-- No unwinding is cut short by a fault of its own: none in the step, and none of the threads that
are given up when the main thread has ended. -/
structure Unwinds (s : Simulation) : Prop where
  inStep : (step s).outcome = .ok ()
  atEnd : (step s).state.result.isSome →
    ∀ t ∈ (retireOthers (step s).state).state.threads, t.escaped = none

instance (s : Simulation) : Decidable s.Unwinds :=
  decidable_of_iff
    ((step s).outcome = .ok () ∧ ((step s).state.result.isSome →
      ∀ t ∈ (retireOthers (step s).state).state.threads, t.escaped = none))
    ⟨fun ⟨inStep, atEnd⟩ => ⟨inStep, atEnd⟩, fun unwinds => ⟨unwinds.inStep, unwinds.atEnd⟩⟩

theorem contained_of_steps (unwinds : ∀ s' ∈ trail fuel s, s'.Unwinds) (goesOn : s.result = none)
    (ended : (steps fuel s reported).1.result.isSome) :
    ∀ t ∈ (retireOthers (steps fuel s reported).1).state.threads, t.escaped = none := by
  induction fuel generalizing s reported with
  | zero => exact absurd ended (by simp [steps, goesOn])
  | succ fuel ih =>
    rw [trail_succ goesOn] at unwinds
    rw [steps_succ goesOn] at ended ⊢
    by_cases still : (step s).state.result = none
    · exact ih (fun s' mem => unwinds s' (List.mem_cons_of_mem _ mem)) still ended
    · rw [steps_of_ended still]
      exact (unwinds s List.mem_cons_self).atEnd (Option.isSome_iff_ne_none.mpr still)

/-- The states from which the run of a script makes its steps; none if it cannot start. -/
def Settings.trail (settings : Settings) (fuel : Nat) (script : List Action) : List Simulation :=
  match settings.table (.empty 0) with
  | ⟨.ok main, table, _⟩ => Simulation.trail fuel (settings.start script table main)
  | ⟨.error _, _, _⟩ => []

/-- The outcome of a run is the verdict on a course: that of the main thread's end and of the first
failure among the steps. -/
theorem course_of_run {main : ThreadId} {table : ThreadTable} {events : List Event}
    (boots : settings.table (.empty 0) = ⟨.ok main, table, events⟩)
    (unwinds : ∀ s ∈ settings.trail fuel script, s.Unwinds) :
    ∃ c : Course, (runFor fuel settings script).outcome = c.verdict ∧
      (∀ last, c.result = some last ↔ ∃ s ∈ settings.trail fuel script, s.MainEnds last) ∧
      ∀ failure, c.queue.failure = some failure ↔
        FailsFirst (settings.trail fuel script) failure := by
  have same : settings.trail fuel script =
      Simulation.trail fuel (settings.start script table main) := by
    unfold Settings.trail
    rw [boots]
  rw [same] at unwinds ⊢
  have runs : (runFor fuel settings script).outcome =
      (finish (steps fuel (settings.start script table main) []).1).outcome := by
    unfold runFor
    rw [boots]
  have inSteps := fun s mem => (unwinds s mem).inStep
  refine ⟨(steps fuel (settings.start script table main) []).1.course, ?_, fun last => ?_,
    fun failure => ?_⟩
  · rw [runs, finish_outcome (contained_of_steps unwinds rfl)]
  · refine (result_of_steps inSteps).trans ?_
    simp [Settings.start]
  · refine (failure_of_steps inSteps).trans ?_
    simp [Settings.start]

/-- A run never swallows a failure. It returns just if the script of the main thread does and no step
before that fails: no script or exit of another thread ends in a fault, and there is no deadlock. A
fault that ends the main thread is the outcome. Otherwise the outcome is the first failure, also one
that the main thread has met and caught. -/
theorem failures_decide_outcome (unwinds : ∀ s ∈ settings.trail fuel script, s.Unwinds) :
    ((runFor fuel settings script).outcome = .ok () ↔
        (∃ s ∈ settings.trail fuel script, s.MainEnds (.ok ())) ∧
          ∀ s ∈ settings.trail fuel script, ∀ failure, ¬ s.Fails failure) ∧
      (∀ s ∈ settings.trail fuel script, ∀ fault, s.MainEnds (.error fault) →
        (runFor fuel settings script).outcome = .error fault) ∧
      ((∃ s ∈ settings.trail fuel script, s.MainEnds (.ok ())) →
        ∀ failure, FailsFirst (settings.trail fuel script) failure →
          (runFor fuel settings script).outcome = .error (.ended failure.text)) := by
  rcases boots : settings.table (.empty 0) with ⟨fault | main, table, events⟩
  · have nowhere : settings.trail fuel script = [] := by
      unfold Settings.trail
      rw [boots]
    have refused : (runFor fuel settings script).outcome = .error fault := by
      unfold runFor
      rw [boots]
    simp [nowhere, refused]
  obtain ⟨c, outcome, result, failed⟩ := course_of_run boots unwinds
  rw [outcome]
  refine ⟨?_, fun s mem fault ends => ?_, fun returns failure first => ?_⟩
  · rw [Course.verdict_eq_ok]
    refine and_congr (result _) ⟨fun unfailed s mem failure fails => ?_, fun sound => ?_⟩
    · obtain ⟨first, is⟩ := exists_failsFirst_iff.mpr ⟨s, mem, failure, fails⟩
      exact nomatch unfailed.symm.trans ((failed first).mpr is)
    · cases recorded : c.queue.failure with
      | none => rfl
      | some first =>
        obtain ⟨s, mem, failure, fails⟩ :=
          exists_failsFirst_iff.mp ⟨first, (failed first).mp recorded⟩
        exact absurd fails (sound s mem failure)
  · have ended := (result _).mpr ⟨s, mem, ends⟩
    unfold Course.verdict
    rw [ended]
  · have returned := (result _).mpr returns
    have recorded := (failed _).mpr first
    unfold Course.verdict
    rw [returned, recorded]

/-- The main thread catches the failure of a more urgent one, and returns. -/
def unfazed : List Action := [.attempt [.spawn "other" 40 [.raise "boom"] none]]

/-- The failure is the outcome all the same. -/
theorem caught_failure_is_outcome :
    (∀ s ∈ Settings.trail {} 40 unfazed, s.Unwinds) ∧
      (∃ s ∈ Settings.trail {} 40 unfazed, s.MainEnds (.ok ())) ∧
      FailsFirst (Settings.trail {} 40 unfazed) (.faulted ⟨1, 0⟩ "other" (.raised "boom")) ∧
      (runFor 40 {} unfazed).outcome =
        .error (.ended (Failure.faulted ⟨1, 0⟩ "other" (.raised "boom")).text) := by
  have unwinds : ∀ s ∈ Settings.trail {} 40 unfazed, s.Unwinds := by decide +kernel
  have inSteps := fun s mem => (unwinds s mem).inStep
  let start := Settings.start {} unfazed (Settings.table {} (.empty 0)).state ⟨0, 0⟩
  have ends : (steps 40 start []).1.result = some (.ok ()) := by decide +kernel
  have failed : (steps 40 start []).1.queue.failure =
      some (.faulted ⟨1, 0⟩ "other" (.raised "boom")) := by decide +kernel
  have returns : ∃ s ∈ Settings.trail {} 40 unfazed, s.MainEnds (.ok ()) :=
    ((result_of_steps (s := start) inSteps).mp ends).resolve_left nofun
  have first : FailsFirst (Settings.trail {} 40 unfazed)
      (.faulted ⟨1, 0⟩ "other" (.raised "boom")) :=
    (((failure_of_steps (s := start) inSteps).mp failed).resolve_left nofun).2
  exact ⟨unwinds, returns, first, (failures_decide_outcome unwinds).2.2 returns _ first⟩

end KernelSync.Simulation
