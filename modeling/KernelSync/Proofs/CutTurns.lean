import KernelSync.Proofs.Journeys
import KernelSync.Proofs.WaitLists

/-!
Turns that are cut short. Before a turn can fail, the running thread has taken what it does next off
its script, and has asked things of the kernel that leave no trace in the wait lists. What lasts through
that (`Trails`) holds where the turn fails (`Trails.of_idle`). What becomes of a fault then is that the
head of a script is given up (`triple_unwind_script`).
-/

namespace KernelSync.Simulation

open Stretch hiding pure bind
open Kernel

variable {α : Type} {s s' : Simulation} {id : ThreadId} {pending : Pending}
  {script rest : List Pending} {fault : Fault} {R : Simulation → Prop}

/-! ### On the way to a fault -/

/-- What holds whatever becomes of the kernel, as long as nobody comes or goes and the wait lists stay
as they are. -/
def Tolerant (R : Simulation → Prop) : Prop :=
  ∀ ⦃s : Simulation⦄ ⦃k : Kernel⦄, R s → (s.kernel.Quiet → Untouched s.kernel k) →
    R { s with kernel := k }

/-- What holds once the running thread of `s` has taken the next thing off its script, and lasts
through all that can come before a fault. -/
structure Trails (s : Simulation) (R : Simulation → Prop) : Prop where
  pops : ∀ {pending rest}, s.currentThread.script = pending :: rest →
    R (s.modifyCurrent ({ · with script := rest }))
  goesOn : ∀ {action actions rest}, s.currentThread.script = .actions (action :: actions) :: rest →
    R (s.modifyCurrent ({ · with script := .actions actions :: rest }))
  kernel : Tolerant R
  answers : ∀ {s' : Simulation} {answer : Bool}, R s' →
    R (s'.modifyCurrent ({ · with last := answer }))
  stores : ∀ {s' : Simulation} {values : List Int64}, R s' → R { s' with values }

/-- However it ends, the stretch leaves what held. -/
abbrev Lasts (R : Simulation → Prop) (x : Stretch Simulation α) : Prop :=
  Triple R x (fun _ => R) fun _ => R

/-- If it is cut short, the stretch leaves what held. -/
abbrev FailsIn (R : Simulation → Prop) (x : Stretch Simulation α) : Prop :=
  Triple R x (fun _ _ => True) fun _ => R

theorem Lasts.fails {x : Stretch Simulation α} (lasts : Lasts R x) : FailsIn R x :=
  triple_weaken lasts (fun _ before => before) (fun _ _ _ => trivial) fun _ _ after => after

theorem FailsIn.state {x : Stretch Simulation α} (failsIn : FailsIn R x) (before : R s)
    (fails : (x s).outcome = .error fault) : R (x s).state := by
  have after := failsIn s before
  rw [fails] at after
  exact after

/-- A thread between calls takes what it does next off its script. -/
theorem untilSwitch_of_due (idle : s.currentThread.call = [])
    (due : s.currentThread.script = pending :: rest) :
    untilSwitch s = proceedUntil pending (s.modifyCurrent ({ · with script := rest })) := by
  unfold untilSwitch
  rw [bind_run_ok (read_run _ _), idle, due]
  rfl

/-- And of a list of actions it takes the first one. -/
theorem untilSwitch_of_action {action : Action} {actions : List Action}
    (idle : s.currentThread.call = [])
    (due : s.currentThread.script = .actions (action :: actions) :: rest) (stays : action ≠ .yield) :
    untilSwitch s = (perform action >>= fun _ => Pure.pure none)
      (s.modifyCurrent ({ · with script := .actions actions :: rest })) := by
  have pushed : (s.modifyCurrent ({ · with script := rest })).modifyCurrent (fun t =>
      { t with script := .actions actions :: t.script }) =
      s.modifyCurrent ({ · with script := .actions actions :: rest }) :=
    modifyThread_modifyThread (s := s) (f := fun t => { t with script := rest }) fun _ => rfl
  rw [untilSwitch_of_due idle due, proceedUntil_action stays, ← pushed]
  rfl

theorem Tolerant.asks (tolerant : Tolerant R) {x : Stretch Kernel α} (still : Still x) :
    Lasts R (inKernel x) := by
  intro s before
  have after : R { s with kernel := (x s.kernel).state } := tolerant before (still _)
  unfold inKernel within
  rcases run : x s.kernel with ⟨fault | a, kernel, events⟩
  · rw [run] at after
    exact after
  · rw [run] at after
    exact after

theorem Tolerant.conclude (tolerant : Tolerant R) {action : String} {reply : Reply} :
    Lasts R (conclude action reply) := by
  apply triple_look
  intro t
  apply triple_bind (tolerant.asks (still_inSection fun _ =>
    still_withThreads ThreadTable.inspects_priority.looks.hides))
  exact fun _ => triple_report

namespace Trails

variable (trails : Trails s R)
include trails

theorem asks {x : Stretch Kernel α} (still : Still x) : Lasts R (inKernel x) :=
  trails.kernel.asks still

theorem breaks {x : Stretch Kernel α} (cut : ∀ k : Kernel, k.Quiet → ∀ fault,
    (x k).outcome = .error fault → Untouched k (x k).state) : FailsIn R (inKernel x) := by
  intro s' before
  unfold inKernel within
  rcases run : x s'.kernel with ⟨fault | a, kernel, events⟩
  · have after := trails.kernel before fun quiet => cut _ quiet fault (congrArg Run.outcome run)
    rw [run] at after
    exact after
  · trivial

/-- What a section has entered it leaves after a fault. -/
theorem leaves {x : Stretch Simulation α} {saved : Nat} {Q : α → Simulation → Prop}
    (first : Triple R x Q fun _ => R) : Triple R (onFault x (inKernel (leave saved))) Q fun _ => R :=
  triple_onFault first fun _ _ before => trails.kernel before (still_leave _)

theorem conclude {action : String} {reply : Reply} : Lasts R (Simulation.conclude action reply) :=
  trails.kernel.conclude

theorem askTable {x : Stretch ThreadTable α} (looks : Looks x) : Lasts R (askTable x) :=
  trails.asks (still_inSection fun _ => still_withThreads looks.hides)

theorem join {name : String} : FailsIn R (join name) := by
  apply triple_look
  intro joinable
  split
  · exact trails.conclude.fails
  · exact fun _ _ => trivial

theorem setPriority {level : Nat} : FailsIn R (setPriority level) := by
  apply triple_bind (triple_ofExcept fun _ _ _ before => before)
  intro priority
  apply triple_look
  intro me
  apply triple_bind (trails.asks still_enter)
  intro saved
  apply triple_bind (R := fun _ => R)
  · exact trails.leaves (triple_look fun _ =>
      trails.asks (still_withThreads Donation.hides_changeBase))
  · exact fun _ _ _ => trivial

theorem showPriority : FailsIn R (showPriority id) :=
  triple_bind (trails.askTable ThreadTable.inspects_priority.looks) fun _ =>
    triple_bind (trails.askTable ThreadTable.inspects_basePriority.looks) fun _ => trails.conclude.fails

omit trails in
theorem interrupt {actions : List Action} : FailsIn R (interrupt actions) := by
  apply triple_look
  intro inside
  exact triple_bind (triple_require fun _ before => before) fun _ _ _ => trivial

/-- An action that fails leaves what held, if it is neither a yield nor a spawn. -/
theorem perform {action : Action} (stays : action ≠ .yield)
    (plain : ∀ name level script disguise, action ≠ .spawn name level script disguise) :
    FailsIn R (perform action) := by
  cases action with
  | yield => exact absurd rfl stays
  | spawn name level script disguise => exact absurd rfl (plain name level script disguise)
  | call | waitWhile | set | times | ifLast | branch | attempt => exact fun _ _ => trivial
  | short made =>
    apply triple_look
    intro me
    apply triple_bind (trails.asks ShortCall.still_run)
    intro answer
    apply triple_bind (R := fun _ => R)
    · exact triple_update fun _ before => trails.answers before
    · exact fun _ => trails.conclude.fails
  | permits x =>
    have looks : ∀ {f : Kernel → Nat}, Still (accessing (.semaphore x) (Stretch.read f)) :=
      still_look fun _ quiet => ⟨quiet.semaphore x, quiet.semaphore_idle x⟩
    apply triple_bind (trails.asks (still_inSection fun _ => looks))
    intro count
    apply triple_bind (trails.asks (still_inSection fun _ => looks))
    exact fun _ => trails.conclude.fails
  | holder lock =>
    exact triple_bind (trails.asks (still_inSection fun _ => still_withThreads (hides_read _)))
      fun _ => trails.conclude.fails
  | registrations c =>
    have looks : ∀ {f : Kernel → Nat}, Still (accessing (.condvar c) (Stretch.read f)) :=
      still_look fun _ quiet => ⟨quiet.condvar c, quiet.condvar_idle c⟩
    exact triple_bind (trails.asks (still_inSection fun _ => looks)) fun _ => trails.conclude.fails
  | threads | snapshot =>
    exact triple_bind (trails.askTable (looks_read _)) fun _ => trails.conclude.fails
  | join name => exact trails.join
  | setPriority level => exact trails.setPriority
  | priority => exact triple_look fun _ => trails.showPriority
  | priorityOf name =>
    apply triple_look
    intro known
    split
    · exact trails.showPriority
    · exact trails.conclude.fails
  | mode | inInterrupt | showKernel => exact triple_look fun _ => trails.conclude.fails
  | interrupt actions => exact interrupt
  | note | foreign => exact trails.conclude.fails
  | add index amount =>
    apply triple_look
    intro value
    apply triple_bind (R := fun _ => R)
    · exact triple_update fun _ before => trails.stores before
    · exact fun _ => trails.conclude.fails
  | raise | raiseWithoutText | nested | unknown => exact triple_fail fun _ before => before

/-- What is pending and no action leaves what held where it fails. -/
theorem proceedUntil (plain : ∀ actions, pending ≠ .actions actions) :
    FailsIn R (proceedUntil pending) := by
  have sure : ∀ {x : Stretch Simulation Unit}, FailsIn R x →
      FailsIn R (x >>= fun _ => (Pure.pure none : Stretch Simulation (Option Switch))) :=
    fun fails => triple_bind fails fun _ _ _ => trivial
  cases pending with
  | actions list => exact absurd rfl (plain list)
  | handlerReturned =>
    apply triple_look
    intro t
    split
    · exact fun _ _ => trivial
    · exact fun _ _ => trivial
  | remove saved =>
    apply triple_look
    intro me
    apply triple_bind (R := fun _ _ => True)
    · refine trails.leaves (trails.breaks fun k quiet fault fails => ?_)
      rw [withThreads_run quiet.threads] at fails ⊢
      rw [ThreadTable.remove_of_fails fails]
      exact ⟨sameLists_of_semaphores rfl, quiet.setTable _, fun _ => rfl⟩
    · exact fun _ _ _ => trivial
  | start =>
    exact sure (triple_look fun _ => triple_bind triple_report fun _ => trails.conclude.fails)
  | waiting c lock condition waits =>
    apply sure
    apply triple_look
    intro holds
    split
    · exact fun _ _ => trivial
    · exact trails.conclude.fails
  | «over» | attempt => exact sure trails.conclude.fails
  | times count actions =>
    cases count with
    | zero => exact fun _ _ => trivial
    | succ count => exact fun _ _ => trivial
  | known | handler | disguise | returned => exact fun _ _ => trivial
  | finish exited => exact sure (triple_bind trails.conclude fun _ _ _ => trivial)

/-- A turn that fails between calls leaves what held, if it does not spawn. -/
theorem of_idle (idle : s.currentThread.call = [])
    (plain : ∀ name level script disguise actions rest, s.currentThread.script ≠
      .actions (.spawn name level script disguise :: actions) :: rest)
    (fails : (untilSwitch s).outcome = .error fault) : R (untilSwitch s).state := by
  rcases due : s.currentThread.script with _ | ⟨pending, rest⟩
  · unfold untilSwitch at fails
    rw [bind_run_ok (read_run _ _), idle, due] at fails
    cases fails
  by_cases list : ∃ actions, pending = .actions actions
  · obtain ⟨_ | ⟨action, actions⟩, rfl⟩ := list
    · rw [untilSwitch_of_due idle due] at fails
      cases fails
    by_cases yields : action = .yield
    · subst yields
      rw [untilSwitch_of_due idle due] at fails
      cases fails
    · have performs : FailsIn R (Simulation.perform action) := by
        refine trails.perform yields ?_
        rintro name level script disguise rfl
        exact plain name level script disguise actions rest due
      rw [untilSwitch_of_action idle due yields] at fails ⊢
      exact FailsIn.state (triple_bind performs fun _ _ _ => trivial) (trails.goesOn due) fails
  · rw [untilSwitch_of_due idle due] at fails ⊢
    exact FailsIn.state (trails.proceedUntil fun actions is => list ⟨actions, is⟩) (trails.pops due)
      fails

end Trails

/-! ### Where the fault is caught -/

/-- Nothing is different but the kernel, in which nobody has come or gone. -/
def Beside (s s' : Simulation) : Prop :=
  ∃ k, s' = { s with kernel := k } ∧ (s.kernel.Quiet → Untouched s.kernel k)

theorem tolerant_beside : Tolerant (Beside s) := by
  rintro _ k ⟨mid, rfl, first⟩ second
  exact ⟨k, rfl, fun quiet => (first quiet).trans (second (first quiet).quiet)⟩

theorem lasts_leaveHandler {saved : Nat} : Lasts (Beside s) (leaveHandler saved) := by
  apply triple_bind (tolerant_beside.asks still_leave)
  intro _
  apply triple_update
  exact fun _ beside => tolerant_beside beside fun quiet =>
    ⟨sameLists_of_semaphores rfl, ⟨quiet.threads, quiet.semaphores, quiet.condvars⟩, fun _ => rfl⟩

/-- A script that is unwound is cut off in front. -/
theorem triple_unwindScript_suffix : Triple (Beside s) (unwindScript fault script)
    (fun result s' => Beside s s' ∧ result.1 <:+ script) fun _ => Beside s := by
  induction script with
  | nil => exact triple_pure fun _ beside => ⟨beside, List.suffix_refl _⟩
  | cons pending rest ih =>
    have passes : Triple (Beside s) (unwindScript fault rest)
        (fun result s' => Beside s s' ∧ result.1 <:+ pending :: rest) fun _ => Beside s :=
      triple_weaken ih (fun _ beside => beside)
        (fun _ _ ⟨beside, suffix⟩ => ⟨beside, suffix.trans (List.suffix_cons pending rest)⟩)
        fun _ _ beside => beside
    cases pending with
    | attempt =>
      apply triple_bind tolerant_beside.conclude
      exact fun _ => triple_pure fun _ beside => ⟨beside, List.suffix_cons _ _⟩
    | handler saved => exact triple_bind lasts_leaveHandler fun _ => passes
    | remove saved => exact triple_bind (tolerant_beside.asks still_leave) fun _ => passes
    | disguise d => exact triple_pure fun _ beside => ⟨beside, List.nil_suffix⟩
    | start | actions | times | waiting | «over» | known | handlerReturned | returned | finish =>
      exact passes

/-- What is left of the running thread of `s` once it is unwound, in `s'`. -/
def Unwound (s s' : Simulation) : Prop :=
  ∃ mid script escaped, Beside s mid ∧ script <:+ s.currentThread.script ∧
    s' = mid.modifyCurrent ({ · with call := [], script, escaped })

/-- A thread that is unwound loses its call and the head of its script. -/
theorem unwound_of_unwind (s : Simulation) (fault : Fault) :
    Beside s (unwind fault s).state ∨ Unwound s (unwind fault s).state := by
  have unwinds : Triple (Beside s) (unwindThread fault s.currentThread)
      (fun _ => Unwound s) fun _ => Beside s := by
    apply triple_bind (tolerant_beside.asks Frame.still_unwind)
    intro _
    apply triple_bind triple_unwindScript_suffix
    rintro ⟨script, escaped, uncaught⟩
    apply triple_bind (R := fun _ => Unwound s)
    · exact triple_update fun mid ⟨beside, suffix⟩ => ⟨mid, script, escaped, beside, suffix, rfl⟩
    · exact fun _ => triple_pure fun _ unwound => unwound
  have after := unwinds s ⟨s.kernel, rfl, .refl⟩
  have same : unwind fault s = unwindThread fault s.currentThread s := by
    rw [unwind_eq, bind_run_ok (read_run _ _)]
    rfl
  rw [same]
  rcases run : unwindThread fault s.currentThread s with ⟨other | uncaught, s', events⟩
  · rw [run] at after
    exact Or.inl after
  · rw [run] at after
    exact Or.inr after

end KernelSync.Simulation
