import KernelSync.Proofs.MirrorRuns

/-!
Failures. Between two switches nothing happens to the run queue but that threads are made ready
(`keeps_untilSwitch`), and after a failure the first one stays (`keeps_meet`). So a deadlock is
recorded just where a thread blocks or exits and nobody contends for the processor
(`deadlocked_iff`).
-/

namespace KernelSync.Simulation

open Stretch hiding pure bind

/-- The course that a simulation has taken: who may run, the failures so far, and how the main
thread ended. -/
structure Course where
  queue : RunQueue
  result : Option (Except Fault Unit)

def course (s : Simulation) : Course := ⟨s.queue, s.result⟩

/-- The course after a failure: the first one stays, and nobody runs any more. -/
def Course.fail (c : Course) (failure : Failure) : Course :=
  { c with queue := { c.queue with failure := c.queue.failure <|> some failure, running := none } }

variable {α β : Type} {P : Course → Prop} {s s₁ : Simulation} {events : List Event}

/-! ### What a computation keeps of the course -/

/-- However the computation ends, what held of the course before holds after it. -/
def Keeps (P : Course → Prop) (x : Stretch Simulation α) : Prop :=
  ∀ s, P s.course → P (x s).state.course

theorem keeps_pure (a : α) : Keeps P (Pure.pure a : Stretch Simulation α) := fun _ holds => holds

theorem keeps_fail (fault : Fault) : Keeps P (fail fault : Stretch Simulation α) :=
  fun _ holds => holds

theorem keeps_read (f : Simulation → α) : Keeps P (Stretch.read f) := fun _ holds => holds

theorem keeps_report (event : Event) : Keeps P (report event : Stretch Simulation Unit) :=
  fun _ holds => holds

theorem keeps_log (entry : LogEntry) : Keeps P (log entry : Stretch Simulation Unit) :=
  fun _ holds => holds

theorem keeps_update {f : Simulation → Simulation} (same : ∀ s, (f s).course = s.course) :
    Keeps P (update f) := by
  intro s holds
  show P (f s).course
  rwa [same]

/-- What holds after the first part holds after the sequence, if the rest keeps it. -/
theorem holds_bind {x : Stretch Simulation α} {f : α → Stretch Simulation β}
    (holds : P (x s).state.course) (next : ∀ a, Keeps P (f a)) :
    P ((x >>= f) s).state.course := by
  rw [bind_run]
  generalize x s = run at holds ⊢
  rcases run with ⟨fault | a, mid, before⟩
  · exact holds
  · exact next a mid holds

theorem keeps_bind {x : Stretch Simulation α} {f : α → Stretch Simulation β} (first : Keeps P x)
    (next : ∀ a, Keeps P (f a)) : Keeps P (x >>= f) :=
  fun s holds => holds_bind (first s holds) next

theorem keeps_onFault {x : Stretch Simulation α} {last : Stretch Simulation Unit}
    (first : Keeps P x) (final : Keeps P last) : Keeps P (onFault x last) := by
  intro s holds
  have kept := first s holds
  unfold onFault
  generalize x s = run at kept ⊢
  rcases run with ⟨fault | a, mid, before⟩
  · exact final mid kept
  · exact kept

theorem keeps_catching {x : Stretch Simulation α} (first : Keeps P x) : Keeps P (catching x) :=
  first

theorem keeps_require (condition : Prop) [Decidable condition] (fault : Fault) :
    Keeps P (require condition fault) := by
  unfold require
  split
  · exact keeps_pure ()
  · exact keeps_fail fault

theorem keeps_ofExcept (value : Except Fault α) : Keeps P (ofExcept value) := by
  cases value with
  | error fault => exact keeps_fail fault
  | ok a => exact keeps_pure a

theorem keeps_inKernel (x : Stretch Kernel α) : Keeps P (inKernel x) := fun _ holds => holds

theorem keeps_push (pending : Pending) : Keeps P (push pending) := fun _ holds => holds

theorem keeps_setCall (frames : List Frame) : Keeps P (setCall frames) := fun _ holds => holds

theorem keeps_conclude (action : String) (reply : Reply) : Keeps P (conclude action reply) :=
  keeps_bind (keeps_read _) fun _ => keeps_bind (keeps_inKernel _) fun _ => keeps_report _

theorem keeps_askTable (x : Stretch ThreadTable α) : Keeps P (askTable x) := keeps_inKernel _

/-- To make a thread ready keeps what does not say who is ready. -/
theorem keeps_unblock (readies : ∀ (c : Course) ready poisoned, P c →
    P { c with queue := { c.queue with ready, poisoned } }) (id : ThreadId) :
    Keeps P (unblock id) := by
  refine keeps_bind (keeps_read _) fun ready => ?_
  split
  · exact fun s => readies s.course s.queue.ready true
  · exact keeps_bind (keeps_log _) fun _ s => readies s.course (ready ++ [id]) s.queue.poisoned

/-! ### Turns -/

theorem keeps_join (name : String) : Keeps P (join name) := by
  refine keeps_bind (keeps_read _) fun joinable => ?_
  split
  · exact keeps_conclude _ _
  · exact keeps_bind (keeps_update fun _ => rfl) fun _ => keeps_bind (keeps_log _) fun _ =>
      keeps_bind (keeps_push _) fun _ => keeps_setCall _

theorem keeps_setPriority (level : Nat) : Keeps P (setPriority level) := by
  refine keeps_bind (keeps_ofExcept _) fun priority => keeps_bind (keeps_read _) fun me => ?_
  refine keeps_bind (keeps_inKernel _) fun saved => keeps_bind ?_ fun effective => ?_
  · exact keeps_onFault (keeps_bind (keeps_read _) fun _ => keeps_inKernel _) (keeps_inKernel _)
  · exact keeps_bind (keeps_log _) fun _ => keeps_bind (keeps_push _) fun _ => keeps_setCall _

theorem keeps_showPriority (id : ThreadId) : Keeps P (showPriority id) :=
  keeps_bind (keeps_askTable _) fun _ => keeps_bind (keeps_askTable _) fun _ => keeps_conclude _ _

theorem keeps_interrupt (script : List Action) : Keeps P (interrupt script) := by
  refine keeps_bind (keeps_read _) fun inside => keeps_bind (keeps_require _ _) fun _ => ?_
  refine keeps_bind (keeps_update fun _ => rfl) fun _ => keeps_bind (keeps_inKernel _) fun _ => ?_
  exact keeps_bind (keeps_push _) fun _ => keeps_bind (keeps_push _) fun _ =>
    keeps_bind (keeps_push _) fun _ => keeps_push _

theorem keeps_leaveHandler (saved : Nat) : Keeps P (leaveHandler saved) :=
  keeps_bind (keeps_inKernel _) fun _ => keeps_update fun _ => rfl

/-- A spawn makes a thread ready, and keeps what that keeps. -/
theorem keeps_spawn (unblocks : ∀ id, Keeps P (unblock id)) (name : String) (level : Nat)
    (script : List Action) (disguise : Option Disguise) :
    Keeps P (spawn name level script disguise) := by
  refine keeps_bind (keeps_ofExcept _) fun priority => keeps_bind (keeps_inKernel _) fun saved => ?_
  refine keeps_bind (keeps_onFault (keeps_inKernel _) (keeps_inKernel _)) fun outcome => ?_
  cases outcome with
  | error reason => exact keeps_bind (keeps_inKernel _) fun _ => keeps_conclude _ _
  | ok id =>
    refine keeps_bind (keeps_onFault (keeps_require _ _) (keeps_inKernel _)) fun _ => ?_
    refine keeps_bind (keeps_bind (keeps_read _) fun _ =>
      keeps_bind (keeps_update fun _ => rfl) fun _ => keeps_pure _) fun exited => ?_
    refine keeps_bind (keeps_update fun _ => rfl) fun _ => keeps_bind (keeps_log _) fun _ => ?_
    exact keeps_bind (keeps_onFault (unblocks id) (keeps_inKernel _)) fun _ =>
      keeps_bind (keeps_push _) fun _ => keeps_bind (keeps_push _) fun _ => keeps_setCall _

theorem keeps_perform {action : Action} (stays : action ≠ .yield)
    (spawns : ∀ name level script disguise, action = .spawn name level script disguise →
      Keeps P (spawn name level script disguise)) : Keeps P (perform action) := by
  cases action with
  | call made => exact keeps_bind (keeps_push _) fun _ => keeps_setCall _
  | short made =>
    exact keeps_bind (keeps_read _) fun _ => keeps_bind (keeps_inKernel _) fun _ =>
      keeps_bind (keeps_update fun _ => rfl) fun _ => keeps_conclude _ _
  | permits x =>
    exact keeps_bind (keeps_inKernel _) fun _ => keeps_bind (keeps_inKernel _) fun _ =>
      keeps_conclude _ _
  | holder lock => exact keeps_bind (keeps_inKernel _) fun _ => keeps_conclude _ _
  | registrations c => exact keeps_bind (keeps_inKernel _) fun _ => keeps_conclude _ _
  | waitWhile c lock condition => exact keeps_push _
  | spawn name level script disguise => exact spawns name level script disguise rfl
  | join name => exact keeps_join name
  | yield => exact absurd rfl stays
  | setPriority level => exact keeps_setPriority level
  | priority => exact keeps_bind (keeps_read _) fun _ => keeps_showPriority _
  | priorityOf name =>
    refine keeps_bind (keeps_read _) fun known => ?_
    split
    · exact keeps_showPriority _
    · exact keeps_conclude _ _
  | threads | snapshot => exact keeps_bind (keeps_askTable _) fun _ => keeps_conclude _ _
  | mode | inInterrupt | showKernel => exact keeps_bind (keeps_read _) fun _ => keeps_conclude _ _
  | interrupt script => exact keeps_interrupt script
  | note written => exact keeps_conclude _ _
  | foreign => exact keeps_conclude _ _
  | set index value => exact keeps_update fun _ => rfl
  | add index amount =>
    exact keeps_bind (keeps_read _) fun _ => keeps_bind (keeps_update fun _ => rfl) fun _ =>
      keeps_conclude _ _
  | times count script => exact keeps_push _
  | ifLast yes no => exact keeps_bind (keeps_read _) fun _ => keeps_push _
  | branch condition yes no => exact keeps_bind (keeps_read _) fun _ => keeps_push _
  | attempt script => exact keeps_bind (keeps_push _) fun _ => keeps_push _
  | raise | raiseWithoutText | nested | unknown => exact keeps_fail _

theorem keeps_yieldUntil : Keeps P yieldUntil :=
  keeps_bind (keeps_inKernel _) fun _ => keeps_bind (keeps_setCall _) fun _ => keeps_pure _

theorem keeps_checkUntil : Keeps P checkUntil := by
  refine keeps_bind (keeps_read _) fun me => keeps_bind (keeps_read _) fun ready => ?_
  refine keeps_bind (keeps_inKernel _) fun outranked => ?_
  split
  · refine keeps_bind (keeps_read _) fun inside => ?_
    split
    · exact keeps_bind (keeps_update fun _ => rfl) fun _ => keeps_pure _
    · exact keeps_bind (keeps_log _) fun _ => keeps_pure _
  · exact keeps_pure _

theorem keeps_proceedUntil {pending : Pending}
    (spawns : ∀ name level script disguise actions,
      pending = .actions (.spawn name level script disguise :: actions) →
        Keeps P (spawn name level script disguise))
    (returns : pending = .returned → ∀ c, P c → P { c with result := some (.ok ()) }) :
    Keeps P (proceedUntil pending) := by
  have plain : ∀ {x : Stretch Simulation Unit}, Keeps P x →
      Keeps P (x >>= fun _ => (Pure.pure none : Stretch Simulation (Option Switch))) :=
    fun keeps => keeps_bind keeps fun _ => keeps_pure _
  cases pending with
  | actions list =>
    cases list with
    | nil => exact plain (keeps_pure ())
    | cons action actions =>
      by_cases yields : action = .yield
      · subst yields
        exact keeps_bind (keeps_push _) fun _ => keeps_bind (keeps_push _) fun _ =>
          keeps_yieldUntil
      · rw [proceedUntil_action yields]
        exact plain (keeps_bind (keeps_push _) fun _ =>
          keeps_perform yields fun name level script disguise is =>
            spawns name level script disguise actions (by rw [is]))
  | handlerReturned =>
    refine keeps_bind (keeps_read _) fun t => ?_
    split
    · exact keeps_bind (keeps_update fun _ => rfl) fun _ => keeps_bind (keeps_log _) fun _ =>
        keeps_yieldUntil
    · exact keeps_pure _
  | remove saved =>
    refine keeps_bind (keeps_read _) fun me => ?_
    refine keeps_bind (keeps_onFault (keeps_inKernel _) (keeps_inKernel _)) fun r => ?_
    exact keeps_bind (keeps_log _) fun _ => keeps_bind (keeps_update fun _ => rfl) fun _ =>
      keeps_pure _
  | start =>
    exact plain (keeps_bind (keeps_read _) fun _ => keeps_bind (keeps_log _) fun _ =>
      keeps_conclude _ _)
  | times count script =>
    cases count with
    | zero => exact plain (keeps_pure ())
    | succ count => exact plain (keeps_bind (keeps_push _) fun _ => keeps_push _)
  | waiting c lock condition waits =>
    refine plain (keeps_bind (keeps_read _) fun holds => ?_)
    split
    · exact keeps_bind (keeps_push _) fun _ => keeps_setCall _
    · exact keeps_conclude _ _
  | «over» action reply => exact plain (keeps_conclude _ _)
  | known name id exited => exact plain (keeps_update fun _ => rfl)
  | attempt => exact plain (keeps_conclude _ _)
  | handler saved => exact plain (keeps_leaveHandler saved)
  | disguise disguise => exact plain (keeps_pure ())
  | returned => exact plain fun s => returns rfl s.course
  | finish exited =>
    exact plain (keeps_bind (keeps_conclude _ _) fun _ => keeps_bind (keeps_inKernel _) fun _ =>
      keeps_bind (keeps_push _) fun _ => keeps_setCall _)

theorem keeps_advanceCallUntil (unblocks : ∀ id, Keeps P (unblock id)) (me : ThreadId)
    (frames : List Frame) : Keeps P (advanceCallUntil me frames) := by
  refine keeps_bind (keeps_setCall _) fun _ => keeps_bind (keeps_inKernel _) fun progress => ?_
  refine keeps_bind (keeps_setCall _) fun _ => ?_
  cases progress.request with
  | proceed => exact keeps_pure _
  | block => exact keeps_bind (keeps_log _) fun _ => keeps_pure _
  | unblock id => exact keeps_bind (unblocks id) fun _ => keeps_pure _
  | check => exact keeps_checkUntil

/-- A turn keeps what is kept when threads are made ready and when the main thread returns. -/
theorem keeps_untilSwitch (unblocks : ∀ id, Keeps P (unblock id))
    (returns : ∀ c, P c → P { c with result := some (.ok ()) }) : Keeps P untilSwitch := by
  refine keeps_bind (keeps_read _) fun t => ?_
  split
  · exact keeps_pure _
  · exact keeps_bind (keeps_update fun _ => rfl) fun _ =>
      keeps_proceedUntil (fun _ _ _ _ _ _ => keeps_spawn unblocks _ _ _ _) fun _ => returns
  · exact keeps_advanceCallUntil unblocks _ _

/-! ### After a fault -/

section Meet

variable (records : ∀ c id name fault, P c → P (c.fail (.faulted id name fault)))
include records

theorem keeps_recordFault (t : SimThread) (fault : Fault) : Keeps P (recordFault t fault) :=
  keeps_bind (keeps_log _) fun _ s holds => records s.course t.id t.name fault holds

theorem keeps_retire (t : SimThread) : Keeps P (retire t) := by
  refine keeps_bind (keeps_update fun _ => rfl) fun _ => ?_
  cases disguise? t.script with
  | none => exact keeps_pure ()
  | some d =>
    exact keeps_bind (keeps_recordFault records t d.shown.1) fun _ => keeps_update fun _ => rfl

theorem keeps_retireAll (threads : List SimThread) : Keeps P (retireAll threads) := by
  induction threads with
  | nil => exact keeps_pure ()
  | cons t rest ih => exact keeps_bind (keeps_retire records t) fun _ => ih

theorem keeps_retireOthers : Keeps P retireOthers :=
  keeps_bind (keeps_read _) fun threads => keeps_retireAll records threads

theorem keeps_collapse : Keeps P collapse :=
  keeps_bind (keeps_retireOthers records) fun _ => keeps_bind (keeps_update fun _ => rfl) fun _ =>
    keeps_bind (keeps_read _) fun _ => keeps_fail _

omit records in
theorem keeps_unwindScript (fault : Fault) (script : List Pending) :
    Keeps P (unwindScript fault script) := by
  induction script with
  | nil => exact keeps_pure _
  | cons pending script ih =>
    cases pending with
    | attempt => exact keeps_bind (keeps_conclude _ _) fun _ => keeps_pure _
    | handler saved => exact keeps_bind (keeps_leaveHandler saved) fun _ => ih
    | remove saved => exact keeps_bind (keeps_inKernel _) fun _ => ih
    | disguise d => exact keeps_pure _
    | _ => exact ih

omit records in
theorem keeps_unwind (fault : Fault) : Keeps P (unwind fault) := by
  refine keeps_bind (keeps_read _) fun t => keeps_bind (keeps_inKernel _) fun _ => ?_
  exact keeps_bind (keeps_unwindScript fault _) fun _ =>
    keeps_bind (keeps_update fun _ => rfl) fun _ => keeps_pure _

variable (ends : ∀ c fault, P c → P { c with result := some (.error fault) })
include ends

omit records in
theorem keeps_endWith (fault : Option Fault) : Keeps P (endWith fault) := by
  cases fault with
  | none => exact keeps_pure ()
  | some fault => exact fun s => ends s.course fault

/-- A thread that meets a fault keeps what is kept when failures are recorded and when the main
thread ends in a fault. -/
theorem keeps_meet (fault : Fault) : Keeps P (meet fault) := by
  refine keeps_bind (keeps_read _) fun t => keeps_bind (keeps_unwind fault) fun uncaught => ?_
  cases uncaught with
  | none => exact keeps_pure ()
  | some fault =>
    refine keeps_bind (keeps_read _) fun main => ?_
    split
    · exact keeps_endWith ends _
    · refine keeps_bind (keeps_recordFault records t fault) fun _ => ?_
      refine keeps_bind (keeps_catching (keeps_collapse records)) fun ended => ?_
      cases ended with
      | ok _ => exact keeps_pure ()
      | error fault => exact keeps_bind (keeps_unwind fault) fun _ => keeps_endWith ends _

/-- What holds after the running thread has advanced holds after the step. -/
theorem kept_by_step (advanced : P (advance s).state.course) : P (step s).state.course := by
  have ended : catching advance s = ⟨.ok (advance s).outcome, (advance s).state, (advance s).events⟩ :=
    rfl
  unfold step
  rw [bind_run_ok ended]
  cases (advance s).outcome with
  | ok _ => exact advanced
  | error fault => exact keeps_meet records ends fault _ advanced

end Meet

/-! ### Deadlocks -/

/-- After a failure there is one on record, be it this or one before. -/
theorem Course.failure_fail {c : Course} {failure : Failure} :
    (c.fail failure).queue.failure = some (c.queue.failure.getD failure) := by
  show (c.queue.failure <|> some failure) = _
  cases c.queue.failure <;> rfl

/-- A failure that has been recorded stays. -/
theorem Course.failed_stays {c : Course} {first : Failure} (failed : c.queue.failure = some first)
    (failure : Failure) : (c.fail failure).queue.failure = some first := by
  rw [failure_fail, failed]
  rfl

/-- A turn does not record a failure. -/
theorem keeps_failure_untilSwitch (failure : Option Failure) :
    Keeps (·.queue.failure = failure) untilSwitch :=
  keeps_untilSwitch (keeps_unblock fun _ _ _ holds => holds) fun _ holds => holds

/-- Where nobody is left to run, a deadlock is recorded with all live threads. -/
theorem deadlock_records (free : s.kernel.threads.busy = false) :
    (deadlock s).state.queue.failure =
      some (s.queue.failure.getD (.deadlock s.kernel.table.entries)) := by
  have asks : inKernel (Kernel.withThreads (Stretch.read (·.entries))) s =
      ⟨.ok s.kernel.table.entries, s, []⟩ := by
    unfold inKernel within
    rw [Kernel.withThreads_looks free (looks_read _)]
    rfl
  unfold deadlock
  rw [bind_run_ok asks]
  exact keeps_collapse (P := (·.queue.failure = some _))
    (fun c id name fault failed => c.failed_stays failed _) _ s.course.failure_fail

/-- Whoever gives up the processor in this way leaves nobody to run. -/
structure Stranded (s : Simulation) (how : Switch) : Prop where
  running : s.queue.running = some s.current
  free : s.kernel.threads.busy = false
  nobody : s.contenders (some how) = []

/-- Where nobody contends for the processor, a switch records a deadlock. -/
theorem switch_of_stranded {how : Switch} (stranded : s.Stranded how) :
    (switch how s).state.queue.failure =
      some (s.queue.failure.getD (.deadlock s.kernel.table.entries)) := by
  have picks : inKernel (Kernel.withThreads (pickNext [])) (s.lined how) =
      ⟨.ok none, s.lined how, []⟩ := by
    have looks : Kernel.withThreads (pickNext []) s.kernel = ⟨.ok none, s.kernel, []⟩ :=
      Kernel.withThreads_looks stranded.free (looks_pure none)
    unfold inKernel within
    rw [show (s.lined how).kernel = s.kernel from rfl, looks]
    rfl
  rw [switch_run stranded.running, stranded.nobody, bind_run_ok picks]
  exact deadlock_records (s := s.lined how) stranded.free

/-- Only a table that is not in use is accessed. -/
theorem withThreads_ok {body : Stretch ThreadTable α} {k k' : Kernel} {a : α}
    (run : Kernel.withThreads body k = ⟨.ok a, k', events⟩) :
    k.threads.busy = false ∧ ∃ table, body k.table = ⟨.ok a, table, events⟩ := by
  cases busy : k.threads.busy with
  | false =>
    rw [Kernel.withThreads_run busy] at run
    obtain ⟨ends, -, reports⟩ := Run.mk.inj run
    exact ⟨rfl, (body k.table).state, by rw [← ends, ← reports]⟩
  | true =>
    obtain ⟨_, _, _, _, ⟨⟩, rest, -⟩ := bind_eq_ok.mp run
    obtain ⟨_, _, _, _, passes, -⟩ := bind_eq_ok.mp rest
    exact absurd busy (require_eq_ok passes).1

/-- Where somebody is left to run, a switch records no failure, however it ends. -/
theorem switch_of_unstranded {how : Switch} (running : s.queue.running = some s.current)
    (unstranded : ¬ s.Stranded how) :
    (switch how s).state.queue.failure = s.queue.failure ∧
      (switch how s).state.queue.poisoned = s.queue.poisoned := by
  rw [switch_run running, bind_run]
  rcases picks : inKernel (Kernel.withThreads (pickNext (s.contenders (some how)))) (s.lined how)
    with ⟨fault | picked, mid, before⟩
  · have kept : mid.queue = (s.lined how).queue := congrArg (·.state.queue) picks.symm
    dsimp only
    rw [kept]
    exact ⟨rfl, rfl⟩
  · have kept : mid.queue = (s.lined how).queue := congrArg (·.state.queue) picks.symm
    cases picked with
    | none =>
      obtain ⟨kernel, accesses, -⟩ := inKernel_eq_ok.mp picks
      obtain ⟨free, table, chooses⟩ := withThreads_ok accesses
      obtain ⟨-, ⟨-, empty⟩ | ⟨next, is, -⟩⟩ := pickNext_eq_ok chooses
      · exact absurd ⟨running, free, empty⟩ unstranded
      · cases is
    | some next =>
      have same : (award s.current how (s.contenders (some how)) (some next) mid).state.queue =
          { mid.queue with
            ready := (s.contenders (some how)).erase next
            running := some next } := by
        dsimp only [award]
        split <;> rfl
      dsimp only
      rw [same, kept]
      exact ⟨rfl, rfl⟩

/-! ### Simulations without a fault -/

variable {settings : Settings} {script : List Action} {how : Switch}

/-- The running thread comes, without a fault, to the point where it gives up the processor. -/
def Switches (s : Simulation) (how : Switch) (s₁ : Simulation) : Prop :=
  ∃ events, untilSwitch s = ⟨.ok (some how), s₁, events⟩

section Reached

variable (fits : settings.Fits script) (reached : Reached settings script s)
include fits reached

/-- At a switch the simulation is at a state that the system can come to. -/
theorem Reached.mirrored_switches (switches : s.Switches how s₁) :
    Mirrored settings (some how) s₁ := by
  obtain ⟨events, run⟩ := switches
  have mirrored := reached.mirrored fits
  exact mirrored.turn (mirrored.turn_of_run run)

omit fits reached in
/-- Up to a switch no failure is recorded. -/
theorem unfailed_untilSwitch (unfailed : s.queue.failure = none) :
    (untilSwitch s).state.queue.failure = none :=
  keeps_failure_untilSwitch none s unfailed

/-- No failure has been recorded. -/
theorem Reached.unfailed : s.queue.failure = none := by
  induction reached with
  | start boots => rfl
  | @step s before sound ih =>
    have still := unfailed_untilSwitch ih
    have stepped := (before.mirrored fits).stepped sound
    generalize (Simulation.step s).state = s' at stepped ⊢
    cases stepped with
    | goesOn run | switches run =>
      rw [run] at still
      exact still

omit fits reached in
/-- A deadlock is recorded just at a switch for which nobody contends, as long as it is the running
thread that switches. -/
theorem deadlocked_iff (unfailed : s.queue.failure = none)
    (sound : ∀ how s₁, s.Switches how s₁ →
      s₁.queue.running = some s₁.current ∧ s₁.kernel.threads.busy = false) :
    (∃ live, (Simulation.step s).state.queue.failure = some (.deadlock live)) ↔
    ∃ how s₁, s.Switches how s₁ ∧ s₁.contenders (some how) = [] := by
  have still := unfailed_untilSwitch unfailed
  have never : (advance s).state.queue.failure = none →
      ¬ ∃ live, (Simulation.step s).state.queue.failure = some (.deadlock live) := by
    rintro unfailed ⟨live, is⟩
    refine kept_by_step (P := fun c => ∀ live, c.queue.failure ≠ some (.deadlock live))
      (fun c id name fault holds => ?_) (fun _ _ holds => holds) ?_ live is
    · cases failed : c.queue.failure with
      | none => simp [Course.fail, failed]
      | some failure => exact fun live => by simpa [Course.fail, failed] using holds live
    · simp [course, unfailed]
  rcases turns : untilSwitch s with ⟨fault | how, s₁, events⟩
  · have ends : advance s = ⟨.error fault, s₁, events⟩ := by
      rw [advance_eq, bind_run_error turns]
    rw [turns] at still
    refine iff_of_false (never (by rw [ends]; exact still)) ?_
    rintro ⟨how, s₁, ⟨_, run⟩, -⟩
    exact nomatch turns.symm.trans run
  rw [turns] at still
  have ends : (advance s).state = (dispatch how s₁).state := by
    rw [advance_eq, bind_run_ok turns]
  cases how with
  | none =>
    refine iff_of_false (never (by rw [ends]; exact still)) ?_
    rintro ⟨how, s₁, ⟨_, run⟩, -⟩
    exact nomatch turns.symm.trans run
  | some how =>
    have switches : s.Switches how s₁ := ⟨_, turns⟩
    obtain ⟨running, free⟩ := sound how s₁ switches
    by_cases nobody : s₁.contenders (some how) = []
    · refine iff_of_true ⟨s₁.kernel.table.entries, ?_⟩ ⟨how, s₁, switches, nobody⟩
      refine kept_by_step (P := (·.queue.failure = some (.deadlock s₁.kernel.table.entries)))
        (fun c id name fault failed => c.failed_stays failed _) (fun _ _ holds => holds) ?_
      show (advance s).state.queue.failure = _
      rw [ends]
      exact (switch_of_stranded ⟨running, free, nobody⟩).trans (by rw [still]; rfl)
    · refine iff_of_false (never ?_) ?_
      · rw [ends]
        exact (switch_of_unstranded running fun stranded => nobody stranded.nobody).1.trans
          still
      · rintro ⟨other, s₂, ⟨_, run⟩, empty⟩
        cases turns.symm.trans run
        exact nobody empty

/-- So it is in runs without faults. -/
theorem Reached.deadlocked_iff :
    (∃ live, (Simulation.step s).state.queue.failure = some (.deadlock live)) ↔
    ∃ how s₁, s.Switches how s₁ ∧ s₁.contenders (some how) = [] := by
  refine Simulation.deadlocked_iff (reached.unfailed fits) fun how s₁ switches => ?_
  obtain ⟨σ, reachable, mirrors⟩ := reached.mirrored_switches fits switches
  exact ⟨mirrors.running, (mirrors.quiet reachable).threads⟩

end Reached

/-! ### A deadlock -/

/-- A semaphore without a permit. -/
def famine : Settings := { counts := [0] }

/-- Two threads that wait for a permit, one after the other. -/
def famished : List Action :=
  [.spawn "other" 40 [.call (.down ⟨0⟩)] none, .call (.down ⟨0⟩)]

theorem famine_fits : famine.Fits famished := by
  refine ⟨by decide, ?_⟩
  simp [famine, famished, Settings.Admits, Settings.AdmitsAction, Settings.Offers]

def Failure.isDeadlock : Failure → Bool
  | .deadlock _ => true
  | _ => false

theorem Failure.exists_of_isDeadlock {failure : Option Failure}
    (dead : failure.any isDeadlock = true) : ∃ live, failure = some (.deadlock live) := by
  cases failure with
  | none => cases dead
  | some failure =>
    cases failure with
    | deadlock live => exact ⟨live, rfl⟩
    | _ => cases dead

/-- One of the threads waits, the other is about to, and in the next step there is a deadlock. -/
theorem famine_reached : ∃ s, Reached famine famished s ∧
    s.kernel.table.contains ⟨0, 0⟩ = true ∧ s.kernel.table.contains ⟨1, 0⟩ = true ∧
    ∃ live, (step s).state.queue.failure = some (.deadlock live) := by
  have plays : ((famine.start famished (famine.table (.empty 0)).state ⟨0, 0⟩).play 11).map
      (fun s => (s.kernel.table.contains ⟨0, 0⟩, s.kernel.table.contains ⟨1, 0⟩,
        (step s).state.queue.failure.any Failure.isDeadlock)) = some (true, true, true) := by
    decide +kernel
  obtain ⟨s, played, facts⟩ := Option.map_eq_some_iff.mp plays
  obtain ⟨live, facts⟩ := Prod.mk.inj facts
  obtain ⟨live', dead⟩ := Prod.mk.inj facts
  exact ⟨s, (Reached.start rfl).play played, live, live', Failure.exists_of_isDeadlock dead⟩

end KernelSync.Simulation
