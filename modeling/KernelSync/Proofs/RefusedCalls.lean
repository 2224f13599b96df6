import KernelSync.Proofs.CallStages
import KernelSync.Proofs.FaultyRuns
import KernelSync.Proofs.Journeys

/-!
Refusals in a simulation. What is refused in a step leaves the simulation as it was, but for what the
running thread has still to do: a call, which is refused before it is committed, a call that does not
wait, the exit of a thread, and a new thread for which the table has no room. With the same for the
system, a breach of a contract changes nothing (`refusals_are_atomic`), also on runs that go on after
faults. That a call is past all refusals once it is committed is known of runs without a fault.
-/

namespace KernelSync

namespace Simulation

open Stretch hiding pure bind
open Kernel Donation
open KernelSync.System (Reachable)

variable {settings : Settings} {script : List Action} {s : Simulation} {σ : System}
  {fault : Fault} {head : Frame} {below : List Frame} {pending : Pending} {rest : List Pending}
  {action : Action} {actions : List Action} {events : List Event}

/-! ### What the scheduler never refuses -/

section Scheduler

variable {id : ThreadId} {how : Switch}

theorem unrefused_withThreads {α : Type} {x : Stretch ThreadTable α} (unrefused : Unrefused x) :
    Unrefused (inKernel (withThreads x)) :=
  avoids_within (avoids_withThreads not_false unrefused)

theorem unrefused_conclude {name : String} {reply : Reply} : Unrefused (conclude name reply) := by
  refine avoids_bind (avoids_read _) fun t => avoids_bind ?_ fun _ => avoids_report not_false
  exact avoids_within (avoids_inSection (fun _ => not_false) (fun _ _ => not_false)
    fun _ => avoids_withThreads not_false
      (ThreadTable.inspects_priority.avoids not_refusal_staleHandle))

theorem unrefused_failInQueue (other : ¬ Refusal fault) : Unrefused (failInQueue fault) :=
  avoids_bind (avoids_update _) fun _ => avoids_fail other

theorem unrefused_unblock : Unrefused (unblock id) := by
  refine avoids_bind (avoids_read _) fun ready => ?_
  split
  · exact unrefused_failInQueue not_false
  · exact avoids_bind unrefused_log fun _ => avoids_update _

theorem unrefused_retireAll {threads : List SimThread} : Unrefused (retireAll threads) := by
  induction threads with
  | nil => exact avoids_pure _
  | cons t rest ih =>
    refine avoids_bind (avoids_bind (avoids_update _) fun _ => ?_) fun _ => ih
    cases disguise? t.script with
    | none => exact avoids_pure _
    | some d =>
      exact avoids_bind (avoids_bind unrefused_log fun _ => avoids_update _) fun _ =>
        avoids_update _

/-- The end of a simulation is no refusal. -/
theorem unrefused_collapse : Unrefused collapse := by
  have ends : Unrefused (do Stretch.fail (← Stretch.read endedFault) : Stretch Simulation Unit) :=
    ⟨fun _ _ mem => absurd mem List.not_mem_nil, fun _ _ fails => by cases fails; exact not_false⟩
  exact avoids_bind (avoids_bind (avoids_read _) fun _ => unrefused_retireAll) fun _ =>
    avoids_bind (avoids_update _) fun _ => ends

theorem unrefused_deadlock : Unrefused deadlock :=
  avoids_bind (unrefused_withThreads (avoids_read _)) fun _ => avoids_bind unrefused_log fun _ =>
    avoids_bind (avoids_update _) fun _ => unrefused_collapse

theorem unrefused_switch : Unrefused (switch how) := by
  refine avoids_bind (avoids_read _) fun me => avoids_bind (avoids_read _) fun queue => ?_
  split
  · exact unrefused_failInQueue not_false
  refine avoids_bind (avoids_update _) fun _ =>
    avoids_bind (unrefused_withThreads
      (inspects_pickNext.avoids not_refusal_staleHandle)) fun next => ?_
  cases next with
  | none => exact unrefused_deadlock
  | some next =>
    dsimp only
    split
    · exact avoids_bind unrefused_log fun _ =>
        avoids_bind (avoids_update _) fun _ => avoids_update _
    · exact avoids_bind (avoids_update _) fun _ => avoids_update _

theorem unrefused_checkPreemption : Unrefused checkPreemption := by
  refine avoids_bind (avoids_read _) fun me => avoids_bind (avoids_read _) fun ready =>
    avoids_bind (unrefused_withThreads
      (inspects_outranked.avoids not_refusal_staleHandle)) fun outranked => ?_
  split
  · refine avoids_bind (avoids_read _) fun inside => ?_
    split
    · exact avoids_update _
    · exact avoids_bind unrefused_log fun _ => unrefused_switch
  · exact avoids_pure _

theorem unrefused_answer {request : Request} : Unrefused (answer id request) := by
  cases request with
  | proceed => exact avoids_pure _
  | block => exact avoids_bind unrefused_log fun _ => unrefused_switch
  | unblock woken => exact unrefused_unblock
  | check => exact unrefused_checkPreemption

end Scheduler

/-! ### Calls -/

section Call

variable (busy : s.currentThread.call = head :: below)
include busy

/-- In a call only the stretch is refused. -/
theorem refusal_of_busy (has : s.Has s.current) (quiet : s.kernel.Quiet)
    (fails : (advance s).outcome = .error fault) (refusal : Refusal fault) :
    head.refusal? s.current s.kernel = some fault := by
  rw [advance_of_busy has busy] at fails
  rcases error_of_bind fails with steps | ⟨progress, mid, _, -, goesOn⟩
  · replace steps : (Frame.step s.current (head :: below) s.kernel).outcome = .error fault := steps
    rcases error_of_bind steps with stretch | ⟨_, _, _, -, ⟨⟩⟩
    exact Frame.refusal_of_advance quiet (error_of_onFault stretch) refusal
  · have answers : Unrefused (do
        setCall progress.frames
        answer s.current progress.request : Stretch Simulation Unit) :=
      avoids_bind (avoids_update _) fun _ => unrefused_answer
    exact absurd refusal (answers.outcome _ _ goesOn)

/-- A stretch that ends in a refusal is refused with what bars it, and ends the call; all else is as it
was, but for the sections that it leaves. -/
theorem stretch_refused (has : s.Has s.current) (quiet : s.kernel.Quiet)
    (fails : (advance s).outcome = .error fault) (refusal : Refusal fault) :
    head.refusal? s.current s.kernel = some fault ∧
      ∃ depth, (advance s).state = { s.withCall [] with kernel := { s.kernel with depth } } := by
  have refused := refusal_of_busy busy has quiet fails refusal
  obtain ⟨depth, _, unwinds, -⟩ := System.unwind_run below s.kernel
  obtain ⟨_, run⟩ := advance_refused has quiet busy refused unwinds
  exact ⟨refused, depth, congrArg Run.state run⟩

/-- Where a call is committed it is not refused. -/
theorem not_refused_of_committed {mayWait : Bool} (mirrors : Mirrors settings none s σ)
    (committed : σ.Committed s.current mayWait)
    (outside : mayWait = true → s.kernel.inInterrupt = false) :
    head.refusal? s.current s.kernel = none := by
  have follows := mirrors.follows s.current
  rw [show (s.thread s.current).call = _ from busy] at follows
  rcases follows.of_busy with ⟨head', rest, now, same, -⟩ | ⟨-, saved, ⟨rfl, -⟩ | ⟨rfl, -⟩⟩
  · have none := committed.refusal? now (by rw [mirrors.kernel]; exact outside)
    rw [mirrors.kernelAt, Frame.refusal?_withDepth] at none
    rcases Frame.eq_of_plain same with rfl | ⟨_, _, rfl, -⟩
    · exact none
    · rfl
  · rfl
  · rfl

end Call

/-- `s`, or the state after its step if that goes well, is refused with `fault`. Then the call of the
running thread is over, and all else is as it was in `s`. -/
inductive Breaks (s : Simulation) (fault : Fault) : Prop where
  | atOnce {events : List Event} (fails : advance s = ⟨.error fault, s.withCall [], events⟩)
  | inside {events : List Event} (sound : (advance s).outcome = .ok ())
      (fails : advance (step s).state = ⟨.error fault, s.withCall [], events⟩)

/-- A call that breaches its contract as it is made is refused, and changes nothing. -/
theorem breaks_of_refusal {c : Call} (has : s.Has s.current) (quiet : s.kernel.Quiet)
    (calls : s.currentThread.call = [.call c])
    (refused : c.refusal? s.current s.kernel = some fault) : Breaks s fault := by
  have atOnce : (Frame.call c).refusal? s.current s.kernel = some fault → Breaks s fault := by
    intro refused
    obtain ⟨_, run⟩ := advance_refuses_call has quiet calls refused
    exact .atOnce run
  rcases c.exists_opening with ⟨d, l, rfl⟩ | ⟨head, below, opens⟩
  · exact atOnce refused
  rw [Call.refusal?_eq_or opens] at refused
  rcases Option.or_eq_some_iff.mp refused with first | ⟨unrefused, second⟩
  · exact atOnce first
  obtain ⟨_, enters⟩ := advance_opens has calls opens unrefused
  have sound : (advance s).outcome = .ok () := congrArg Run.outcome enters
  have is : (step s).state = s.inside (head :: below) := by rw [step_of_sound sound, enters]
  have there : (s.inside (head :: below)).Has (s.inside (head :: below)).current :=
    (has_modifyThread (s := s) (f := ({ · with call := (head :: below) ++ [.leave s.kernel.depth] }))
      fun _ => rfl).mpr has
  have still : head.refusal? s.current (s.inside (head :: below)).kernel = some fault :=
    (Frame.refusal?_withDepth (k := s.kernel)).trans second
  obtain ⟨_, run⟩ := advance_refused there (quiet.withDepth _) (call_inside has) still
    (Frame.unwind_opening opens)
  rw [leave_inside, ← is] at run
  exact .inside sound run

/-- The running thread of `s` has come to its call in the step from `r`, and since then it has at most
opened the section of the call. -/
inductive JustCalls (r s : Simulation) : Prop where
  | begins (is : s = (step r).state)
  | opened (sound : (advance (step r).state).outcome = .ok ())
      (is : s = (step (step r).state).state)

/-- A call that is refused has done nothing. -/
theorem Reached.call_refused (fits : settings.Fits script) (reached : Reached settings script s)
    (busy : s.currentThread.call ≠ []) (fails : (advance s).outcome = .error fault)
    (refusal : Refusal fault) : ∃ r c, Reached settings script r ∧ r.Begins c ∧ JustCalls r s ∧
      c.refusal? r.current (Simulation.step r).state.kernel = some fault ∧
      (advance s).state = (Simulation.step r).state.withCall [] := by
  have mirrored := reached.mirrored fits
  obtain ⟨head, below, call⟩ := List.exists_cons_of_ne_nil busy
  have refused := refusal_of_busy call mirrored.has mirrored.quiet fails refusal
  cases reached.calling fits with
  | @begins r c before begins is =>
    subst is
    obtain ⟨rfl, rfl⟩ := List.cons.inj (call.symm.trans begins.call)
    obtain ⟨events, run⟩ := advance_refuses_call mirrored.has mirrored.quiet call refused
    exact ⟨r, c, before, begins, .begins rfl,
      Call.refusal?_of_first (begins.current ▸ refused), congrArg Run.state run⟩
  | @opened r c first others before begins opens unrefused sound is inside =>
    subst inside
    have before' := (before.step begins.sound).mirrored fits
    obtain ⟨rfl, rfl⟩ := List.cons.inj (call.symm.trans (call_inside before'.has))
    obtain ⟨events, run⟩ := advance_refused mirrored.has mirrored.quiet call refused
      (Frame.unwind_opening opens)
    refine ⟨r, c, before, begins, .opened sound is, ?_, ?_⟩
    · rw [Call.refusal?_eq_or opens, unrefused, ← begins.current]
      exact (Frame.refusal?_withDepth (k := (Simulation.step r).state.kernel)).symm.trans refused
    · rw [run]
      exact leave_inside
  | committed reachable mirrors committed outside =>
    cases refused.symm.trans (not_refused_of_committed call mirrors committed outside)

/-! ### Between calls -/

/-- The simulation with something else pending for the running thread. -/
def withScript (s : Simulation) (script : List Pending) : Simulation :=
  s.modifyCurrent ({ · with script })

theorem has_withScript {u : ThreadId} {script : List Pending} :
    (s.withScript script).Has u ↔ s.Has u :=
  has_modifyThread (s := s) (f := fun t => { t with script }) fun _ => rfl

theorem currentThread_withScript {script : List Pending} (has : s.Has s.current) :
    (s.withScript script).currentThread = { s.currentThread with script } := by
  have changed := thread_modifyThread (u := s.current) (f := fun t => { t with script })
    (fun _ => rfl) has
  exact changed.trans (if_pos rfl)

section Idle

variable (idle : s.currentThread.call = [])
include idle

theorem advance_of_idle (due : s.currentThread.script = pending :: rest) :
    advance s = proceed pending (s.withScript rest) := by
  unfold advance
  rw [bind_run_ok (read_run _ _), idle, due]
  rfl

theorem advance_of_action (due : s.currentThread.script = .actions (action :: actions) :: rest) :
    advance s = perform action (s.withScript (.actions actions :: rest)) := by
  have pushed : (s.withScript rest).modifyCurrent (fun t =>
      { t with script := .actions actions :: t.script }) = s.withScript (.actions actions :: rest) :=
    modifyThread_modifyThread (s := s) (f := fun t => { t with script := rest }) fun _ => rfl
  rw [advance_of_idle idle due, ← pushed]
  rfl

theorem advance_of_short {made : ShortCall}
    (due : s.currentThread.script = .actions (.short made :: actions) :: rest) : advance s =
      (inKernel (made.run s.current) >>= fun answer => do
        Stretch.update (·.modifyCurrent ({ · with last := answer }))
        conclude (shortName made) (.flag answer)) (s.withScript (.actions actions :: rest)) := by
  rw [advance_of_action idle due]
  rfl

theorem advance_of_remove {saved : Nat} (due : s.currentThread.script = .remove saved :: rest) :
    advance s = (onFault (inKernel (withThreads (ThreadTable.remove s.current)))
      (inKernel (Kernel.leave saved)) >>= fun r => do
        log (.exited s.current r.name)
        Stretch.update (·.modifyCurrent ({ · with script := [] }))
        switch .exit) (s.withScript rest) := by
  rw [advance_of_idle idle due]
  rfl

section Short

variable {made : ShortCall} (quiet : s.kernel.Quiet)
  (due : s.currentThread.script = .actions (.short made :: actions) :: rest)
include quiet due

/-- A call that does not wait is refused just if it breaks its contract, and leaves everything as it
was. -/
theorem advance_refuses_short (refused : made.refusal? s.current s.kernel = some fault) :
    ∃ events, advance s = ⟨.error fault, s.withScript (.actions actions :: rest), events⟩ := by
  obtain ⟨events, run⟩ := ShortCall.run_refused quiet refused
  have asks : inKernel (made.run s.current) (s.withScript (.actions actions :: rest)) =
      ⟨.error fault, s.withScript (.actions actions :: rest), events⟩ := inKernel_run run
  rw [advance_of_short idle due, bind_run_error asks]
  exact ⟨_, rfl⟩

theorem refusal_of_short (fails : (advance s).outcome = .error fault) (refusal : Refusal fault) :
    made.refusal? s.current s.kernel = some fault := by
  rw [advance_of_short idle due] at fails
  rcases error_of_bind fails with asks | ⟨answer, mid, _, -, goesOn⟩
  · exact ShortCall.refusal_of_run quiet asks refusal
  · have concludes : Unrefused (do
        Stretch.update (·.modifyCurrent ({ · with last := answer }))
        conclude (shortName made) (.flag answer) : Stretch Simulation Unit) :=
      avoids_bind (avoids_update _) fun _ => unrefused_conclude
    exact absurd refusal (concludes.outcome _ _ goesOn)

end Short

section Remove

variable {saved : Nat} (quiet : s.kernel.Quiet)
  (due : s.currentThread.script = .remove saved :: rest)
include quiet due

/-- A thread that cannot leave the table stays there, and leaves its section. -/
theorem advance_refuses_remove
    (refused : (ThreadTable.remove s.current s.kernel.table).outcome = .error fault) :
    ∃ events, advance s = ⟨.error fault,
      { s.withScript rest with kernel := { s.kernel with depth := saved } }, events⟩ := by
  have same := ThreadTable.remove_of_fails refused
  have asks : inKernel (withThreads (ThreadTable.remove s.current)) (s.withScript rest) =
      ⟨.error fault, s.withScript rest, []⟩ := by
    have looks : withThreads (ThreadTable.remove s.current) s.kernel =
        ⟨.error fault, s.kernel, []⟩ := by
      rw [withThreads_run quiet.threads, same]
      rfl
    exact inKernel_run looks
  have leaves : onFault (inKernel (withThreads (ThreadTable.remove s.current)))
      (inKernel (Kernel.leave saved)) (s.withScript rest) = ⟨.error fault,
        { s.withScript rest with kernel := { s.kernel with depth := saved } },
        [.left s.kernel.depth saved]⟩ := by
    unfold onFault
    rw [asks]
    rfl
  rw [advance_of_remove idle due, bind_run_error leaves]
  exact ⟨_, rfl⟩

/-- An exit is refused to a thread that has a lock or waits for one. -/
theorem refusal_of_remove (fails : (advance s).outcome = .error fault) (refusal : Refusal fault) :
    (ThreadTable.remove s.current s.kernel.table).outcome = .error fault := by
  rw [advance_of_remove idle due] at fails
  rcases error_of_bind fails with removes | ⟨r, mid, _, -, goesOn⟩
  · have asks := error_of_onFault removes
    replace asks : (withThreads (ThreadTable.remove s.current) s.kernel).outcome = .error fault := asks
    rwa [withThreads_run quiet.threads] at asks
  · have exits : Unrefused (do
        log (.exited s.current r.name)
        Stretch.update (·.modifyCurrent ({ · with script := [] }))
        switch .exit : Stretch Simulation Unit) :=
      avoids_bind unrefused_log fun _ => avoids_bind (avoids_update _) fun _ => unrefused_switch
    exact absurd refusal (exits.outcome _ _ goesOn)

end Remove

section Spawn

variable {name : String} {level : Nat} {body : List Action} {disguise : Option Disguise}
  {priority : Priority} (quiet : s.kernel.Quiet) (has : s.Has s.current)
  (live : s.kernel.table.contains s.current = true)
include quiet has live

/-- For a thread that the table has no room for nothing is done but to say so. -/
theorem advance_refuses_spawn (valid : Priority.ofLevel level = .ok priority)
    (full : s.kernel.table.capacity ≤ s.kernel.table.live)
    (due : s.currentThread.script =
      .actions (.spawn name level body disguise :: actions) :: rest) :
    advance s = ⟨.ok (), s.withScript (.actions actions :: rest),
      [.entered s.kernel.depth, .left (s.kernel.depth + 1) s.kernel.depth,
        .entered s.kernel.depth, .left (s.kernel.depth + 1) s.kernel.depth,
        .acted s.currentThread.name "spawn" (.exhausted ⟨s.kernel.table.capacity⟩)
          (rank s.kernel.table s.current)]⟩ := by
  let popped := s.withScript (.actions actions :: rest)
  let deeper : Kernel := { s.kernel with depth := s.kernel.depth + 1 }
  have calm : deeper.Quiet := quiet.withDepth _
  have full' : deeper.table.capacity ≤ deeper.table.live := full
  have there : popped.Has popped.current := has_withScript.mpr has
  have level : Stretch.ofExcept (Priority.ofLevel level) popped = ⟨.ok priority, popped, []⟩ := by
    rw [valid]
    rfl
  have enters : inKernel Kernel.enter popped =
      ⟨.ok s.kernel.depth, { popped with kernel := deeper }, [.entered s.kernel.depth]⟩ := rfl
  have asks : inKernel (withThreads (ThreadTable.spawn name priority))
      { popped with kernel := deeper } =
        ⟨.ok (.error ⟨s.kernel.table.capacity⟩), { popped with kernel := deeper }, []⟩ := by
    have looks : withThreads (ThreadTable.spawn name priority) deeper =
        ⟨.ok (.error ⟨s.kernel.table.capacity⟩), deeper, []⟩ := by
      rw [withThreads_run calm.threads, ThreadTable.spawn_full full']
      rfl
    exact inKernel_run looks
  have leaves : inKernel (Kernel.leave s.kernel.depth) { popped with kernel := deeper } =
      ⟨.ok (), popped, [.left (s.kernel.depth + 1) s.kernel.depth]⟩ := rfl
  have concludes : conclude "spawn" (.exhausted ⟨s.kernel.table.capacity⟩) popped = _ :=
    conclude_run (s := popped) quiet there live
  rw [advance_of_action idle due]
  show spawn name _ body disguise popped = _
  unfold spawn
  rw [bind_run_ok level, bind_run_ok enters, bind_run_ok (onFault_run_ok asks)]
  dsimp only
  have runs : popped.currentThread = { s.currentThread with script := .actions actions :: rest } :=
    currentThread_withScript has
  rw [bind_run_ok leaves, concludes, runs]
  rfl

end Spawn

end Idle

/-- What is refused in `s` leaves the simulation as it was before. -/
structure Atomic (s : Simulation) : Prop where
  breaks : ∀ c fault, s.currentThread.call = [.call c] →
    c.refusal? s.current s.kernel = some fault → Breaks s fault
  /-- Whatever stretch of a call is refused changes nothing, but that the call is over. -/
  stretch : ∀ head below fault, Refusal fault → s.currentThread.call = head :: below →
    (advance s).outcome = .error fault → head.refusal? s.current s.kernel = some fault ∧
      ∃ depth, (advance s).state = { s.withCall [] with kernel := { s.kernel with depth } }
  short : ∀ made actions rest fault, Refusal fault → s.currentThread.call = [] →
    s.currentThread.script = .actions (.short made :: actions) :: rest →
    (advance s).outcome = .error fault → made.refusal? s.current s.kernel = some fault ∧
      (advance s).state = s.withScript (.actions actions :: rest)
  /-- A thread that may not exit leaves the section in which it was to do so. -/
  remove : ∀ saved rest fault, Refusal fault → s.currentThread.call = [] →
    s.currentThread.script = .remove saved :: rest → (advance s).outcome = .error fault →
      (s.kernel.table.holdings.heldBy s.current ≠ [] ∨ s.kernel.table.waits s.current ≠ none) ∧
        (advance s).state =
          { s.withScript rest with kernel := { s.kernel with depth := saved } }
  spawn : ∀ name level priority body disguise actions rest, Priority.ofLevel level = .ok priority →
    s.kernel.table.capacity ≤ s.kernel.table.live → s.currentThread.call = [] →
    s.currentThread.script = .actions (.spawn name level body disguise :: actions) :: rest →
      (advance s).outcome = .ok () ∧ (advance s).state = s.withScript (.actions actions :: rest) ∧
        .acted s.currentThread.name "spawn" (.exhausted ⟨s.kernel.table.capacity⟩)
          (rank s.kernel.table s.current) ∈ (advance s).events

/-- What is refused in `s` leaves the simulation as it was before, and a call as it was before the
call. -/
structure AtomicThroughout (settings : Settings) (script : List Action) (s : Simulation) : Prop
    extends Atomic s where
  /-- A call is refused with what bars it when it is made, after two stretches at most, and then its
  thread is back where it was. -/
  call : ∀ fault, Refusal fault → s.currentThread.call ≠ [] →
    (advance s).outcome = .error fault → ∃ r c, Reached settings script r ∧ r.Begins c ∧
      JustCalls r s ∧ c.refusal? r.current (step r).state.kernel = some fault ∧
        (advance s).state = (step r).state.withCall []

/-- Where the running thread is in the table, and nothing is being accessed, refusals are atomic. -/
theorem atomic_of_quiet (quiet : s.kernel.Quiet)
    (present : s.currentThread.call ≠ [] ∨ s.currentThread.script ≠ [] →
      s.Has s.current ∧ s.kernel.table.contains s.current = true) : Atomic s := by
  have calls : ∀ {head below}, s.currentThread.call = head :: below → s.Has s.current :=
    fun busy => (present (Or.inl (by rw [busy]; exact List.cons_ne_nil _ _))).1
  have due : ∀ {pending rest}, s.currentThread.script = pending :: rest →
      s.Has s.current ∧ s.kernel.table.contains s.current = true :=
    fun due => present (Or.inr (by rw [due]; exact List.cons_ne_nil _ _))
  constructor
  · exact fun _ _ busy refused => breaks_of_refusal (calls busy) quiet busy refused
  · exact fun _ _ _ refusal busy fails => stretch_refused busy (calls busy) quiet fails refusal
  · intro made actions rest fault refusal idle due fails
    have refused := refusal_of_short idle quiet due fails refusal
    obtain ⟨events, run⟩ := advance_refuses_short idle quiet due refused
    exact ⟨refused, congrArg Run.state run⟩
  · intro saved rest fault refusal idle pends fails
    have refused := refusal_of_remove idle quiet pends fails refusal
    obtain ⟨events, run⟩ := advance_refuses_remove idle quiet pends refused
    exact ⟨(ThreadTable.remove_fails_iff.mp ⟨fault, refused⟩).resolve_left
      (not_not_intro (due pends).2), congrArg Run.state run⟩
  · intro name level priority body disguise actions rest valid full idle pends
    rw [advance_refuses_spawn idle quiet (due pends).1 (due pends).2 valid full pends]
    exact ⟨rfl, rfl, by simp⟩

theorem Journey.atomic {path : List Simulation} (journey : Journey settings script path s) :
    Atomic s := by
  have intact := journey.intact
  refine atomic_of_quiet intact.1.quiet fun standing => ?_
  rcases intact.2 with idle | standing'
  · exact (standing.elim (fun busy => busy idle.1) fun pends => pends idle.2).elim
  · exact ⟨standing'.has, standing'.live⟩

theorem Reached.atomic (fits : settings.Fits script) (reached : Reached settings script s) :
    AtomicThroughout settings script s := by
  have mirrored := reached.mirrored fits
  have live : s.kernel.table.contains s.current = true := by
    obtain ⟨σ, reachable, mirrors⟩ := mirrored
    exact mirrors.table ▸ mirrors.awake.1
  exact { atomic_of_quiet mirrored.quiet fun _ => ⟨mirrored.has, live⟩ with
    call := fun fault refusal busy fails => reached.call_refused fits busy fails refusal }

end Simulation

namespace System

variable {s : System}

/-- What is refused in `s` leaves the system as it was before. -/
structure Atomic (s : System) : Prop where
  /-- A call that is made in `s` in breach of its contract is refused, and changes nothing. -/
  refuses : ∀ t c fault, (s.activity t).frames = [.call c] →
    c.refusal? t (s.kernelAt t) = some fault →
      ∃ s', Refuses s t fault s' ∧ s'.ended t = (s.running t).ended t
  /-- Whatever stretch of a call is refused changes nothing, but that it leaves its sections. -/
  stretch : ∀ t head rest fault, Refusal fault → (s.activity t).frames = head :: rest →
    (perform (.go t) s).outcome = .error fault → head.refusal? t (s.kernelAt t) = some fault ∧
      ∃ depth, (perform (.go t) s).state = { s with kernel := { s.kernel with depth } }
  short : ∀ t call fault, Refusal fault → (perform (.short t call) s).outcome = .error fault →
    call.refusal? t (s.kernelAt t) = some fault ∧ (perform (.short t call) s).state = s.running t
  remove : ∀ t, ((∃ fault, (perform (.remove t) s).outcome = .error fault) ↔
      ¬ s.Live t ∨ s.table.holdings.heldBy t ≠ [] ∨ s.table.waits t ≠ none) ∧
    ∀ fault, (perform (.remove t) s).outcome = .error fault → (perform (.remove t) s).state = s
  spawn : ∀ name priority, s.table.capacity ≤ s.table.live →
    (onTable (ThreadTable.spawn name priority) s).outcome = .ok (.error ⟨s.table.capacity⟩) ∧
      (perform (.spawn name priority) s).outcome = .ok () ∧
      (perform (.spawn name priority) s).state = s

/-- What is refused in `s`, or to a call that is made in `s`, leaves the system as it was before. -/
structure AtomicThroughout (s : System) : Prop extends Atomic s where
  /-- A call that ends in a refusal does so in its first stretch or in the second, which follows at
  once; it is refused with what bars it in the first. A handler begins and ends between the stretches
  of whom it interrupts, so that it is either in all of them or in none. -/
  ends : ∀ t c path s' s'' fault events, (s.activity t).frames = [.call c] → Path s path s' →
    (∀ made ∈ path, (made.before.activity t).frames ≠ []) →
    (∀ made ∈ path, made.move = .go t → made.before.kernel.inInterrupt = s'.kernel.inInterrupt) →
    s'.Allowed (.go t) → perform (.go t) s' = ⟨.error fault, s'', events⟩ → Refusal fault →
      ∃ before own mid, path = before ++ own ∧ Path s before mid ∧
        (∀ made ∈ before, made.move ≠ .go t) ∧ (own = [] ∨ own = [⟨mid, .go t, s'⟩]) ∧
          c.refusal? t (mid.kernelAt t) = some fault ∧ s''.ended t = (mid.running t).ended t

theorem atomic_of_quiet (quiet : s.kernel.Quiet) : s.Atomic where
  refuses := fun _ _ _ frames refused => refuses_of_refusal frames quiet refused
  stretch := fun _ _ _ _ refusal busy fails => stretch_refused quiet busy fails refusal
  short := fun _ _ _ refusal fails =>
    ⟨(short_refused_iff quiet refusal).mp fails, short_refused quiet fails refusal⟩
  remove := fun _ => remove_refused quiet
  spawn := fun _ _ full => spawn_refused quiet full

theorem Reachable.atomic (reachable : Reachable anyMove s) : s.AtomicThroughout :=
  { atomic_of_quiet reachable.orderly.quiet with
    ends := fun _ _ _ _ _ _ _ frames leads busy context allowed fails refusal =>
      refused_of_path reachable frames leads busy context allowed fails refusal }

end System

section

open KernelSync.System KernelSync.Simulation

/-- Breaches of contracts are atomic: in the system, whichever threads move when, and in every
simulation, where what is left is what is still to be done. This holds also on runs that go on after
faults; on runs without a fault, a call that is refused is refused before anything of it has been
done. -/
theorem refusals_are_atomic :
    (∀ capacity mode attempts s, Endures capacity mode attempts s → s.Atomic) ∧
    (∀ s, Reachable anyMove s → s.AtomicThroughout) ∧
    (∀ settings script path s, Journey settings script path s → Simulation.Atomic s) ∧
    ∀ settings script s, settings.Fits script → Reached settings script s →
      Simulation.AtomicThroughout settings script s :=
  ⟨fun _ _ _ _ endures => System.atomic_of_quiet endures.unharmed.quiet,
    fun _ reachable => reachable.atomic, fun _ _ _ _ journey => journey.atomic,
    fun _ _ _ fits reached => reached.atomic fits⟩

/-- The lock of these runs. -/
def latch : Lock := ⟨⟨1⟩, ⟨0⟩⟩

/-- In a table for two threads the holder of a lock acquires it again. -/
def relapse : List Move :=
  [.newLock, .spawn "holder" .standard, .spawn "other" .standard, .call ⟨0, 0⟩ (.acquire latch),
    .go ⟨0, 0⟩, .go ⟨0, 0⟩, .go ⟨0, 0⟩, .call ⟨0, 0⟩ (.acquire latch)]

/-- There the holder comes to its call, and nothing else that it might do is allowed to it. -/
theorem relapse_reaches : ∃ s s' s'' events events', Reachable anyMove s ∧
    (s.activity ⟨0, 0⟩).frames = [.call (.acquire latch)] ∧
    (Call.acquire latch).refusal? ⟨0, 0⟩ (s.kernelAt ⟨0, 0⟩) = some (.reacquired ⟨0, 0⟩ ⟨1⟩) ∧
    s.Allowed (.go ⟨0, 0⟩) ∧ System.perform (.go ⟨0, 0⟩) s = ⟨.ok (), s', events⟩ ∧
    s'.Allowed (.go ⟨0, 0⟩) ∧
    System.perform (.go ⟨0, 0⟩) s' = ⟨.error (.reacquired ⟨0, 0⟩ ⟨1⟩), s'', events'⟩ ∧
    s.kernel.inInterrupt = s'.kernel.inInterrupt ∧
    (System.perform (.short ⟨0, 0⟩ (.tryAcquire latch)) s).outcome = .error (.retried ⟨0, 0⟩ ⟨1⟩) ∧
    (System.perform (.remove ⟨0, 0⟩) s).outcome = .error (.exitHolding ⟨0, 0⟩ "holder" ⟨1⟩) ∧
    s.table.capacity ≤ s.table.live := by
  have plays : (System.play anyMove relapse (System.start 2 .priorityDonation)).map (fun s =>
      decide ((s.activity ⟨0, 0⟩).frames = [.call (.acquire latch)] ∧
        (Call.acquire latch).refusal? ⟨0, 0⟩ (s.kernelAt ⟨0, 0⟩) =
          some (.reacquired ⟨0, 0⟩ ⟨1⟩) ∧
        s.Allowed (.go ⟨0, 0⟩) ∧ (System.perform (.go ⟨0, 0⟩) s).outcome = .ok () ∧
        (System.perform (.go ⟨0, 0⟩) s).state.Allowed (.go ⟨0, 0⟩) ∧
        (System.perform (.go ⟨0, 0⟩) (System.perform (.go ⟨0, 0⟩) s).state).outcome =
          .error (.reacquired ⟨0, 0⟩ ⟨1⟩) ∧
        s.kernel.inInterrupt = (System.perform (.go ⟨0, 0⟩) s).state.kernel.inInterrupt ∧
        (System.perform (.short ⟨0, 0⟩ (.tryAcquire latch)) s).outcome =
          .error (.retried ⟨0, 0⟩ ⟨1⟩) ∧
        (System.perform (.remove ⟨0, 0⟩) s).outcome =
          .error (.exitHolding ⟨0, 0⟩ "holder" ⟨1⟩) ∧
        s.table.capacity ≤ s.table.live)) = some true := by
    decide +kernel
  obtain ⟨s, played, facts⟩ := Option.map_eq_some_iff.mp plays
  obtain ⟨frames, refused, allowed, opens, allowed', fails, rest⟩ := of_decide_eq_true facts
  rcases entered : System.perform (.go ⟨0, 0⟩) s with ⟨outcome, s', events⟩
  rw [entered] at opens allowed' fails rest
  cases opens
  rcases cut : System.perform (.go ⟨0, 0⟩) s' with ⟨outcome, s'', events'⟩
  rw [cut] at fails
  cases fails
  exact ⟨s, s', s'', events, events', (Reachable.start (by decide)).play played, frames, refused,
    allowed, entered, allowed', cut, rest⟩

/-- The same in a simulation, where the fault is caught. -/
def relapsing : List Action :=
  [.call (.acquire latch), .attempt [.call (.acquire latch)], .short (.tryAcquire latch)]

/-- A simulation of so many threads, with one lock, before its first step. -/
def latched (capacity : Nat) (script : List Action) : Simulation :=
  Settings.start { capacity, locks := 1 } script
    (Settings.table { capacity, locks := 1 } (.empty 0)).state ⟨0, 0⟩

theorem fits_latched {capacity : Nat} {script : List Action}
    (admits : Settings.Admits { capacity, locks := 1 } script) :
    Settings.Fits { capacity, locks := 1 } script := ⟨List.forall_mem_nil _, admits⟩

theorem offers_latch {capacity : Nat} :
    Settings.OffersLock { capacity, locks := 1 } latch := ⟨0, Nat.one_pos, rfl⟩

/-- The holder is refused in a call, in a call that does not wait, and at its exit, and a thread is
refused by a full table. After the fault of the first refusal the next one changes nothing either. -/
theorem refused_changes_nothing :
    (∃ s, Reachable anyMove s ∧ (∃ s', Refuses s ⟨0, 0⟩ (.reacquired ⟨0, 0⟩ ⟨1⟩) s' ∧
        s'.ended ⟨0, 0⟩ = (s.running ⟨0, 0⟩).ended ⟨0, 0⟩) ∧
      (System.perform (.go ⟨0, 0⟩) (System.perform (.go ⟨0, 0⟩) s).state).state.ended ⟨0, 0⟩ =
        (s.running ⟨0, 0⟩).ended ⟨0, 0⟩ ∧
      (System.perform (.short ⟨0, 0⟩ (.tryAcquire latch)) s).state = s.running ⟨0, 0⟩ ∧
      (System.perform (.remove ⟨0, 0⟩) s).state = s ∧
      (System.perform (.spawn "late" .standard) s).state = s) ∧
    (∃ s, Reached { capacity := 2, locks := 1 } [.call (.acquire latch), .call (.acquire latch)] s ∧
      ∃ r, (advance s).state = (step r).state.withCall []) ∧
    (∃ s, Reached { capacity := 2, locks := 1 } [.call (.acquire latch), .short (.tryAcquire latch)] s ∧
      (advance s).state = s.withScript [.actions [], .returned]) ∧
    (∃ s, Reached { capacity := 2, locks := 1 } [.spawn "brief" 40 [.call (.acquire latch)] none] s ∧
      (advance s).state = { s.withScript [] with kernel := { s.kernel with depth := 0 } }) ∧
    (advance (latched 1 [.spawn "brief" 40 [] none])).state =
      (latched 1 [.spawn "brief" 40 [] none]).withScript [.actions [], .returned] ∧
    (∃ attempts s, Endures 2 .priorityDonation attempts s ∧
      (∃ made ∈ attempts, made.outcome = .error (.reacquired ⟨0, 0⟩ ⟨1⟩)) ∧
      (System.perform (.remove ⟨0, 0⟩) s).state = s) ∧
    ∃ path s, Journey { capacity := 2, locks := 1 } relapsing path s ∧
      (∃ r ∈ path, (advance r).outcome = .error (.reacquired ⟨0, 0⟩ ⟨1⟩)) ∧
      (advance s).state = s.withScript [.actions [], .returned] := by
  refine ⟨?_, ?_, ?_, ?_, ?_, ?_, ?_⟩
  · obtain ⟨s, s', s'', events, events', reachable, frames, refused, allowed, entered, allowed', cut,
      context, retried, holding, full⟩ := relapse_reaches
    have atomic := refusals_are_atomic.2.1 s reachable
    have busy : ∀ made ∈ [(⟨s, .go ⟨0, 0⟩, s'⟩ : Made)], (made.before.activity ⟨0, 0⟩).frames ≠ [] :=
      List.forall_mem_singleton.mpr (by simp [frames])
    obtain ⟨before, own, mid, split, -, waits, here, -, same⟩ :=
      atomic.ends ⟨0, 0⟩ (.acquire latch) _ s' s'' _ _ frames (.move allowed entered .rest) busy
        (List.forall_mem_singleton.mpr fun _ => context) allowed' cut trivial
    refine ⟨s, reachable, atomic.refuses _ _ _ frames refused, ?_,
      (atomic.short _ _ (.retried ⟨0, 0⟩ ⟨1⟩) trivial retried).2, (atomic.remove _).2 _ holding,
      (atomic.spawn "late" .standard full).2.2⟩
    obtain rfl : mid = s := by
      rcases List.singleton_eq_append_iff.mp split with ⟨rfl, rfl⟩ | ⟨rfl, -⟩
      · cases here with
        | inl none => cases none
        | inr one => exact (congrArg Made.before (List.cons.inj one).1).symm
      · exact absurd rfl (waits _ List.mem_cons_self)
    rw [entered]
    simpa [cut] using same
  · have plays : ((latched 2 [.call (.acquire latch), .call (.acquire latch)]).play 7).map (fun s =>
        decide (s.currentThread.call ≠ [] ∧
          (advance s).outcome = .error (.reacquired ⟨0, 0⟩ ⟨1⟩))) = some true := by
      decide +kernel
    obtain ⟨s, played, facts⟩ := Option.map_eq_some_iff.mp plays
    obtain ⟨busy, fails⟩ := of_decide_eq_true facts
    have reached := (Reached.start rfl).play played
    have fits : Settings.Fits { capacity := 2, locks := 1 }
        [.call (.acquire latch), .call (.acquire latch)] :=
      fits_latched ⟨offers_latch, offers_latch, trivial⟩
    obtain ⟨r, c, before, begins, -, -, same⟩ := (refusals_are_atomic.2.2.2 _ _ s fits reached).call
      (.reacquired ⟨0, 0⟩ ⟨1⟩) trivial busy fails
    exact ⟨s, reached, r, same⟩
  · have plays : ((latched 2 [.call (.acquire latch), .short (.tryAcquire latch)]).play 5).map
        (fun s => (s.currentThread.call, s.currentThread.script, (advance s).outcome)) =
        some ([], [.actions [.short (.tryAcquire latch)], .returned],
          .error (.retried ⟨0, 0⟩ ⟨1⟩)) := rfl
    obtain ⟨s, played, facts⟩ := Option.map_eq_some_iff.mp plays
    obtain ⟨idle, rest⟩ := Prod.mk.inj facts
    obtain ⟨due, fails⟩ := Prod.mk.inj rest
    have reached := (Reached.start rfl).play played
    have fits : Settings.Fits { capacity := 2, locks := 1 }
        [.call (.acquire latch), .short (.tryAcquire latch)] :=
      fits_latched ⟨offers_latch, offers_latch, trivial⟩
    exact ⟨s, reached, ((refusals_are_atomic.2.2.2 _ _ s fits reached).short (.tryAcquire latch) []
      [.returned] (.retried ⟨0, 0⟩ ⟨1⟩) trivial idle due fails).2⟩
  · have plays : ((latched 2 [.spawn "brief" 40 [.call (.acquire latch)] none]).play 14).map
        (fun s => (s.currentThread.call, s.currentThread.script, (advance s).outcome)) =
        some ([], [.remove 0], .error (.exitHolding ⟨1, 0⟩ "brief" ⟨1⟩)) := rfl
    obtain ⟨s, played, facts⟩ := Option.map_eq_some_iff.mp plays
    obtain ⟨idle, rest⟩ := Prod.mk.inj facts
    obtain ⟨due, fails⟩ := Prod.mk.inj rest
    have reached := (Reached.start rfl).play played
    have fits : Settings.Fits { capacity := 2, locks := 1 }
        [.spawn "brief" 40 [.call (.acquire latch)] none] :=
      fits_latched ⟨⟨offers_latch, trivial⟩, trivial⟩
    exact ⟨s, reached, ((refusals_are_atomic.2.2.2 _ _ s fits reached).remove 0 []
      (.exitHolding ⟨1, 0⟩ "brief" ⟨1⟩) trivial idle due fails).2⟩
  · have fits : Settings.Fits { capacity := 1, locks := 1 } [.spawn "brief" 40 [] none] :=
      fits_latched ⟨trivial, trivial⟩
    exact ((refusals_are_atomic.2.2.2 _ _ _ fits (Reached.start rfl)).spawn "brief" 40 _ [] none []
      [.returned] rfl (Nat.le_refl 1) rfl rfl).2.1
  · have plays : (System.tryAll (relapse ++ [.go ⟨0, 0⟩, .go ⟨0, 0⟩]) []
        (System.start 2 .priorityDonation)).map (fun tried =>
        (tried.1.any fun made => made.outcome = .error (.reacquired ⟨0, 0⟩ ⟨1⟩),
          (System.perform (.remove ⟨0, 0⟩) tried.2).outcome)) =
        some (true, .error (.exitHolding ⟨0, 0⟩ "holder" ⟨1⟩)) := by
      decide +kernel
    obtain ⟨⟨attempts, s⟩, tried, facts⟩ := Option.map_eq_some_iff.mp plays
    obtain ⟨failed, holding⟩ := Prod.mk.inj facts
    obtain ⟨made, mem, refused⟩ := List.any_eq_true.mp failed
    have endures := Endures.tryAll (.start (by decide)) tried
    exact ⟨attempts, s, endures, ⟨made, mem, of_decide_eq_true refused⟩,
      ((refusals_are_atomic.1 _ _ _ s endures).remove _).2 _ holding⟩
  · have plays : (playJourney 9 [] (latched 2 relapsing)).map (fun played =>
        (played.1.any fun r => (advance r).outcome = .error (.reacquired ⟨0, 0⟩ ⟨1⟩),
          played.2.currentThread.call, played.2.currentThread.script, (advance played.2).outcome)) =
        some (true, [], [.actions [.short (.tryAcquire latch)], .returned],
          .error (.retried ⟨0, 0⟩ ⟨1⟩)) := by
      rfl
    obtain ⟨⟨path, s⟩, played, facts⟩ := Option.map_eq_some_iff.mp plays
    obtain ⟨failed, facts⟩ := Prod.mk.inj facts
    obtain ⟨idle, facts⟩ := Prod.mk.inj facts
    obtain ⟨due, fails⟩ := Prod.mk.inj facts
    obtain ⟨r, mem, refused⟩ := List.any_eq_true.mp failed
    have journey : Journey { capacity := 2, locks := 1 } relapsing path s :=
      Journey.play (.start rfl) played
    exact ⟨path, s, journey, ⟨r, mem, of_decide_eq_true refused⟩,
      ((refusals_are_atomic.2.2.1 _ _ path s journey).short (.tryAcquire latch) [] [.returned]
        (.retried ⟨0, 0⟩ ⟨1⟩) trivial idle due fails).2⟩

end

end KernelSync
