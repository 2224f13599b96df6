import KernelSync.Proofs.CutTurns
import KernelSync.Proofs.Interrupts

/-!
What keeps the notes. A note that a thread is to yield is made by a check and taken back at the return
of a handler, and neither fails in the middle: a turn that is cut short leaves all notes alone
(`sameNotes_of_fails`), as do switches and what becomes of a fault (`sameNotes_of_turns`). What is
unwound is the head of a script, so that each handler is still followed by its return.
-/

namespace KernelSync.Simulation

open Stretch hiding pure bind

variable {α : Type} {s s' s₁ : Simulation} {id u : ThreadId} {t : SimThread}
  {f : SimThread → SimThread} {pending : Pending} {script : List Pending} {fault : Fault}

/-- The note of a thread: it is to yield when its handler returns. -/
def notes (s : Simulation) (u : ThreadId) : Bool := (s.thread u).yieldOnReturn

/-- No thread has got a note or lost one, and every handler is still followed by its return. -/
structure SameNotes (s s' : Simulation) : Prop where
  notes : ∀ u, s'.notes u = s.notes u
  paired : (∀ u, Paired (s.thread u).script) → ∀ u, Paired (s'.thread u).script

theorem sameNotes_refl (s : Simulation) : SameNotes s s := ⟨fun _ => rfl, fun paired => paired⟩

theorem SameNotes.trans (first : SameNotes s s₁) (second : SameNotes s₁ s') : SameNotes s s' :=
  ⟨fun u => (second.notes u).trans (first.notes u),
    fun paired => second.paired (first.paired paired)⟩

theorem sameNotes_of_threads (same : ∀ u, s'.thread u = s.thread u) : SameNotes s s' := by
  constructor
  · intro u
    unfold Simulation.notes
    rw [same]
  · intro paired u
    rw [same]
    exact paired u

/-- What changes beside the threads changes no note. -/
theorem sameNotes_aside (threads : s'.threads = s.threads) : SameNotes s s' := by
  apply sameNotes_of_threads
  intro u
  unfold Simulation.thread
  rw [threads]

theorem sameNotes_modify (keeps : ∀ t, (f t).id = t.id)
    (note : ∀ t, (f t).yieldOnReturn = t.yieldOnReturn)
    (paired : Paired (s.thread id).script → Paired (f (s.thread id)).script) :
    SameNotes s (s.modifyThread id f) := by
  by_cases has : s.Has id
  · have threads : ∀ u, (s.modifyThread id f).thread u =
        if u = id then f (s.thread id) else s.thread u := fun u => thread_modifyThread keeps has
    constructor
    · intro u
      unfold Simulation.notes
      rw [threads]
      split
      · rename_i here
        rw [here, note]
      · rfl
    · intro before u
      rw [threads]
      split
      · exact paired (before id)
      · exact before u
  · rw [modifyThread_of_absent has]
    exact sameNotes_refl s

theorem sameNotes_resume : SameNotes s (s.resume id) :=
  (sameNotes_modify (f := ({ · with registers := ⟨s.kernel.depth, s.kernel.inInterrupt⟩ }))
    (fun _ => rfl) (fun _ => rfl) fun paired => paired).trans (sameNotes_aside rfl)

/-- A thread that is added has no note, and is in no handler. -/
theorem sameNotes_fresh {name : String} {actions : List Action} {disguise : Option Disguise}
    {exited : SemaphoreId} :
    SameNotes s (s.withThread (.fresh id name actions disguise exited)) := by
  have threads : ∀ u, (s.withThread (.fresh id name actions disguise exited)).thread u =
      s.thread u ∨ s.thread u = .absent ∧
        (s.withThread (.fresh id name actions disguise exited)).thread u =
          .fresh id name actions disguise exited := by
    intro u
    rw [thread_withThread]
    by_cases has : s.Has u
    · exact Or.inl (if_pos has)
    · rw [if_neg has, thread_absent has]
      split
      · exact Or.inr ⟨rfl, rfl⟩
      · exact Or.inl rfl
  constructor
  · intro u
    unfold Simulation.notes
    rcases threads u with same | ⟨absent, fresh⟩
    · rw [same]
    · rw [absent, fresh]
      rfl
  · intro paired u
    rcases threads u with same | ⟨-, fresh⟩
    · rw [same]
      exact paired u
    · rw [fresh]
      exact paired_fresh

/-! ### What keeps the notes -/

/-- However it ends, the stretch leaves the notes as they were in `s`. -/
abbrev KeepsNotes (s : Simulation) (x : Stretch Simulation α) : Prop := Lasts (SameNotes s) x

/-- If it is cut short, the stretch leaves the notes as they were in `s`. -/
abbrev FailsWithNotes (s : Simulation) (x : Stretch Simulation α) : Prop := FailsIn (SameNotes s) x

theorem keepsNotes_update {f : Simulation → Simulation} (same : ∀ s, SameNotes s (f s)) :
    KeepsNotes s (update f) := fun s₁ before => before.trans (same s₁)

theorem keepsNotes_inKernel {x : Stretch Kernel α} : KeepsNotes s (inKernel x) := by
  intro s₁ before
  have after : SameNotes s (inKernel x s₁).state := before.trans (sameNotes_aside rfl)
  generalize inKernel x s₁ = run at after
  rcases run with ⟨fault | a, mid, events⟩
  · exact after
  · exact after

theorem keepsNotes_onFault {x : Stretch Simulation α} {y : Stretch Kernel Unit}
    (keeps : KeepsNotes s x) : KeepsNotes s (onFault x (inKernel y)) :=
  triple_onFault keeps fun _ _ same => same.trans (sameNotes_aside rfl)

theorem keepsNotes_setCall {frames : List Frame} : KeepsNotes s (setCall frames) :=
  keepsNotes_update fun _ => sameNotes_modify (fun _ => rfl) (fun _ => rfl) fun paired => paired

/-! ### Scheduling -/

theorem outlasts_sameNotes : Outlasts (SameNotes s) fun _ => SameNotes s where
  aside := fun same _ threads _ => same.trans (sameNotes_aside threads)
  givesUp := fun same =>
    same.trans (sameNotes_modify (fun _ => rfl) (fun _ => rfl) fun _ => trivial)
  escapes := fun same =>
    same.trans (sameNotes_modify (fun _ => rfl) (fun _ => rfl) fun paired => paired)
  resumes := fun same => same.trans sameNotes_resume
  asks := fun _ _ => keepsNotes_inKernel
  fails := fun _ same => same

theorem keepsNotes_unblock : KeepsNotes s (unblock id) :=
  triple_weaken (triple_unblock fun _ _ same _ threads _ => same.trans (sameNotes_aside threads))
    (fun _ same => same) (fun _ _ same => same) fun _ _ cut => cut.2

theorem keepsNotes_dispatch {how : Option Switch} : KeepsNotes s (dispatch how) := by
  cases how with
  | none => exact triple_pure fun _ same => same
  | some how => exact triple_switch outlasts_sameNotes

/-! ### Turns that are cut short -/

/-- What is taken off a script is no handler without its return. -/
theorem trails_sameNotes : Trails s (SameNotes s) where
  pops := fun due => sameNotes_modify (fun _ => rfl) (fun _ => rfl) fun paired => by
    rw [show (s.thread s.current).script = _ from due] at paired
    exact paired.2
  goesOn := fun due => sameNotes_modify (fun _ => rfl) (fun _ => rfl) fun paired => by
    rw [show (s.thread s.current).script = _ from due] at paired
    exact ⟨nofun, paired.2⟩
  kernel := fun _ _ same _ => same.trans (sameNotes_aside rfl)
  answers := fun same =>
    same.trans (sameNotes_modify (fun _ => rfl) (fun _ => rfl) fun paired => paired)
  stores := fun same => same.trans (sameNotes_aside rfl)

theorem failsWithNotes_spawn {name : String} {level : Nat} {actions : List Action}
    {disguise : Option Disguise} : FailsWithNotes s (spawn name level actions disguise) := by
  apply triple_bind (triple_ofExcept fun _ _ _ same => same)
  intro priority
  apply triple_bind keepsNotes_inKernel
  intro saved
  apply triple_bind (keepsNotes_onFault keepsNotes_inKernel)
  intro result
  cases result with
  | error reason =>
    exact triple_bind keepsNotes_inKernel fun _ => trails_sameNotes.conclude.fails
  | ok id =>
    apply triple_bind (keepsNotes_onFault (triple_require fun _ same => same))
    intro _
    apply triple_bind
    · exact triple_look fun exited => triple_bind
        (keepsNotes_update fun _ => sameNotes_aside rfl) fun _ => triple_pure fun _ same => same
    · intro exited
      apply triple_bind (keepsNotes_update fun _ => sameNotes_fresh)
      intro _
      apply triple_bind triple_report
      intro _
      exact triple_bind (keepsNotes_onFault keepsNotes_unblock) fun _ _ _ => trivial

theorem failsWithNotes_checkUntil : FailsWithNotes s checkUntil := by
  apply triple_look
  intro me
  apply triple_look
  intro ready
  apply triple_bind keepsNotes_inKernel
  intro outranked
  split
  · apply triple_look
    intro inside
    split
    · exact fun _ _ => trivial
    · exact fun _ _ => trivial
  · exact fun _ _ => trivial

theorem failsWithNotes_advanceCallUntil {me : ThreadId} {frames : List Frame} :
    FailsWithNotes s (advanceCallUntil me frames) := by
  apply triple_bind keepsNotes_setCall
  intro _
  apply triple_bind keepsNotes_inKernel
  intro progress
  apply triple_bind keepsNotes_setCall
  intro _
  cases progress.request with
  | proceed | block => exact fun _ _ => trivial
  | unblock id => exact triple_bind keepsNotes_unblock fun _ _ _ => trivial
  | check => exact failsWithNotes_checkUntil

/-- What the running thread does up to a switch leaves the notes alone where it fails. -/
theorem sameNotes_of_cut (fails : (untilSwitch s).outcome = .error fault) :
    SameNotes s (untilSwitch s).state := by
  rcases call : s.currentThread.call with _ | ⟨head, frames⟩
  · by_cases spawns : ∃ name level script disguise actions rest, s.currentThread.script =
      .actions (.spawn name level script disguise :: actions) :: rest
    · obtain ⟨name, level, script, disguise, actions, rest, due⟩ := spawns
      rw [untilSwitch_of_action call due nofun] at fails ⊢
      exact FailsIn.state (triple_bind failsWithNotes_spawn fun _ _ _ => trivial)
        (trails_sameNotes.goesOn due) fails
    · exact trails_sameNotes.of_idle call (fun name level script disguise actions rest due =>
        spawns ⟨name, level, script, disguise, actions, rest, due⟩) fails
  · have goes : untilSwitch s = advanceCallUntil s.currentThread.id (head :: frames) s := by
      unfold untilSwitch
      rw [bind_run_ok (read_run _ _), call]
      rfl
    rw [goes] at fails ⊢
    exact FailsIn.state failsWithNotes_advanceCallUntil (sameNotes_refl s) fails

/-! ### Faults -/

theorem paired_of_suffix (whole : List Pending) (suffix : script <:+ whole) (paired : Paired whole) :
    Paired script := by
  obtain ⟨front, rfl⟩ := suffix
  induction front with
  | nil => exact paired
  | cons pending front ih => exact ih paired.2

theorem keepsNotes_unwind : KeepsNotes s (unwind fault) := by
  intro s₁ same
  have after : SameNotes s (unwind fault s₁).state := by
    refine same.trans ?_
    rcases unwound_of_unwind s₁ fault with ⟨k, is, -⟩ | unwound
    · rw [is]
      exact sameNotes_aside rfl
    · obtain ⟨_, script, escaped, ⟨k, rfl, -⟩, suffix, is⟩ := unwound
      have beside : SameNotes s₁ { s₁ with kernel := k } := sameNotes_aside rfl
      rw [is]
      exact beside.trans (sameNotes_modify (fun _ => rfl) (fun _ => rfl) fun paired =>
        paired_of_suffix s₁.currentThread.script suffix paired)
  generalize unwind fault s₁ = run at after
  rcases run with ⟨other | uncaught, mid, events⟩
  · exact after
  · exact after

theorem keepsNotes_meet : KeepsNotes s (meet fault) :=
  triple_meet outlasts_sameNotes (fun _ => keepsNotes_unwind) fun _ _ same => same

/-! ### Steps -/

theorem KeepsNotes.state {x : Stretch Simulation α} (keeps : KeepsNotes s x)
    (same : SameNotes s s₁) : SameNotes s (x s₁).state := by
  have after := keeps s₁ same
  generalize x s₁ = run at after
  rcases run with ⟨fault | a, mid, events⟩
  · exact after
  · exact after

/-- To meet a fault changes no note. -/
theorem sameNotes_step (same : SameNotes s (advance s₁).state) : SameNotes s (step s₁).state := by
  have caught : catching advance s₁ =
      ⟨.ok (advance s₁).outcome, (advance s₁).state, (advance s₁).events⟩ := rfl
  unfold step
  rw [bind_run_ok caught]
  rcases (advance s₁).outcome with fault | ⟨⟩
  · exact keepsNotes_meet.state same
  · exact same

/-- A turn that is cut short changes no note, nor does what becomes of the fault. -/
theorem sameNotes_of_fails (fails : (untilSwitch s).outcome = .error fault) :
    SameNotes s (step s).state := by
  have before := sameNotes_of_cut fails
  apply sameNotes_step
  rw [advance_eq]
  rcases run : untilSwitch s with ⟨other | how, s₁, events⟩
  · rw [run] at before
    rw [bind_run_error run]
    exact before
  · rw [run] at fails
    cases fails

/-- After a turn the notes are those that it has left, whatever becomes of a switch. -/
theorem sameNotes_of_turns {how : Option Switch} {events : List Event}
    (run : untilSwitch s = ⟨.ok how, s₁, events⟩) : SameNotes s₁ (step s).state := by
  apply sameNotes_step
  rw [advance_eq, bind_run_ok run]
  exact keepsNotes_dispatch.state (sameNotes_refl s₁)

end KernelSync.Simulation
