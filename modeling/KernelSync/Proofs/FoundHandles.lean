import KernelSync.Proofs.Deadlocks
import KernelSync.Proofs.LiveHandles

/-!
Handles in a simulation. Whoever is ready or runs is live, and so are all threads whose handles are
stored. So the one action that can meet a stale handle is to ask for the priority of a thread by its
name, when that thread has exited (`no_dangling_handles`).
-/

namespace KernelSync

open Stretch hiding pure bind
open Kernel

variable {α : Type}

theorem Stretch.Avoids.found {σ : Type} {bad : Event → Prop} {x : Stretch σ α}
    (avoids : Avoids bad (fun fault => ∃ id, fault = .staleHandle id) x) (s : σ) : Found x s :=
  fun id fails => avoids.outcome s _ fails ⟨id, rfl⟩

theorem Level.found {x : Stretch Kernel α} (level : Level x) {k : Kernel} {depth : Nat}
    (found : Found x { k with depth }) : Found x k :=
  fun id fails => found id ((level k depth).1.trans fails)

/-- A stretch that blocks ends at a place where the thread is queued. -/
theorem Advances.frames_of_block {me : ThreadId} {k k' : Kernel} {frame : Frame}
    {progress : Progress} (advances : Advances me k frame k' progress)
    (blocks : progress.request = .block) :
    ∃ place, progress.frames = [place] ∧ place.mayWait = true := by
  cases advances with
  | queues | registers => exact ⟨_, rfl, rfl⟩
  | opens | waits | takes | retries | acquires | reacquires | raises | wakes | checks | givesUp
  | holds | signalsNobody | signals | broadcastsNobody | broadcasts | returns | leaves =>
    exact nomatch blocks

namespace Simulation

open KernelSync.System (Reachable exitsIdle exitsClear exitsClear_of_idle)

variable {settings : Settings} {script : List Action} {s s' s₁ : Simulation} {σ : System}
  {how : Option Switch} {id : ThreadId} {events : List Event}

/-! ### The kernel -/

theorem found_inKernel {x : Stretch Kernel α} (found : Found x s.kernel) : Found (inKernel x) s :=
  found

theorem found_inSection {x : Stretch Kernel α}
    (avoids : Avoids (fun _ => False) (fun fault => ∃ id, fault = .staleHandle id) x) :
    Found (inKernel (inSection fun _ => x)) s := by
  have enters : Avoids (fun _ => False) (fun fault => ∃ id, fault = .staleHandle id)
      (inSection fun _ => x) :=
    avoids_inSection (fun _ => id) (fun _ _ => id) fun _ => avoids
  exact found_inKernel (enters.found s.kernel)

theorem found_withThreads {x : Stretch ThreadTable α} (quiet : s.kernel.Quiet)
    (found : Found x s.kernel.table) : Found (inKernel (withThreads x)) s := by
  refine found_inKernel fun id fails => ?_
  rw [withThreads_run quiet.threads] at fails
  exact found id fails

theorem found_askTable {x : Stretch ThreadTable α} (quiet : s.kernel.Quiet)
    (found : Found x s.kernel.table) : Found (askTable x) s := by
  refine found_inKernel fun id fails => ?_
  rw [inSection_run, withThreads_run (quiet.withDepth _).threads] at fails
  exact found id fails

theorem found_priority {table : ThreadTable} (live : table.contains id = true) :
    Found (ThreadTable.priority id) table :=
  found_of_ok (congrArg Run.outcome (Donation.priority_run_rank live))

theorem found_basePriority {table : ThreadTable} (live : table.contains id = true) :
    Found (ThreadTable.basePriority id) table := by
  obtain ⟨r, found⟩ := ThreadTable.contains_iff.mp live
  exact found_of_ok (congrArg Run.outcome (ThreadTable.basePriority_run found))

theorem found_ofLevel {level : Nat} : Found (ofExcept (Priority.ofLevel level)) s := by
  unfold Priority.ofLevel
  cases Priority.ofLevel? level <;> exact nofun

theorem found_unblock : Found (unblock id) s := by
  refine found_after rfl ?_
  split
  · exact nofun
  · exact found_of_ok rfl

/-! ### Choosing -/

section Choosing

variable {table : ThreadTable} {list : List ThreadId}

theorem found_anyAbove (live : ∀ t ∈ list, table.contains t = true) (urgency : Priority) :
    Found (anyAbove urgency list) table := by
  induction list with
  | nil => exact found_of_ok rfl
  | cons first rest ih =>
    refine found_after (Donation.priority_run_rank (live first List.mem_cons_self)) ?_
    split
    · exact found_of_ok rfl
    · exact ih fun t mem => live t (List.mem_cons_of_mem _ mem)

theorem found_mostUrgent (live : ∀ t ∈ list, table.contains t = true) (best : ThreadId)
    (urgency : Priority) : Found (mostUrgent best urgency list) table := by
  induction list generalizing best urgency with
  | nil => exact found_of_ok rfl
  | cons first rest ih =>
    refine found_after (Donation.priority_run_rank (live first List.mem_cons_self)) ?_
    split <;> exact ih (fun t mem => live t (List.mem_cons_of_mem _ mem)) _ _

theorem found_pickNext (live : ∀ t ∈ list, table.contains t = true) :
    Found (pickNext list) table := by
  cases list with
  | nil => exact found_of_ok rfl
  | cons first rest =>
    refine found_after (Donation.priority_run_rank (live first List.mem_cons_self)) ?_
    exact found_bind (found_mostUrgent (fun t mem => live t (List.mem_cons_of_mem _ mem)) _ _)
      fun _ _ _ _ => found_of_ok rfl

end Choosing

theorem found_checkUntil (quiet : s.kernel.Quiet)
    (live : s.kernel.table.contains s.current = true)
    (ready : ∀ t ∈ s.queue.ready, s.kernel.table.contains t = true) : Found checkUntil s := by
  refine found_after rfl (found_after rfl (found_bind (found_withThreads quiet ?_)
    fun outranked _ _ _ => ?_))
  · exact found_after (Donation.priority_run_rank live) (found_anyAbove ready _)
  · cases outranked with
    | false => exact found_of_ok rfl
    | true =>
      refine found_after rfl ?_
      dsimp only
      split <;> exact found_of_ok rfl

theorem found_retireAll (threads : List SimThread) : Found (retireAll threads) s := by
  induction threads generalizing s with
  | nil => exact found_of_ok rfl
  | cons t rest ih =>
    refine found_bind (found_after rfl ?_) fun _ _ _ _ => ih
    cases disguise? t.script <;> exact found_of_ok rfl

theorem found_collapse : Found collapse s :=
  found_bind (found_after rfl (found_retireAll _)) fun _ _ _ _ =>
    found_after rfl (found_after rfl nofun)

/-- Whoever contends for the processor is looked up when it is given away. -/
theorem found_switch {how : Switch} (quiet : s.kernel.Quiet)
    (live : ∀ t ∈ s.contenders (some how), s.kernel.table.contains t = true)
    (running : s.queue.running = some s.current) : Found (switch how) s := by
  rw [Found, switch_run running]
  refine found_bind (found_withThreads (s := s.lined how) quiet (found_pickNext live))
    fun picked mid _ _ => ?_
  cases picked with
  | none =>
    have looks : Avoids (fun _ => False) (fun fault => ∃ id, fault = .staleHandle id)
        (withThreads (Stretch.read (·.entries))) := avoids_withThreads (by simp) (avoids_read _)
    refine found_bind (found_inKernel (looks.found _)) fun _ _ _ _ => ?_
    exact found_after rfl (found_after rfl found_collapse)
  | some next =>
    dsimp only [award]
    split <;> exact found_of_ok rfl

/-! ### The running thread -/

/-- The running thread is there, and live. -/
structure Afoot (s : Simulation) : Prop where
  quiet : s.kernel.Quiet
  has : s.Has s.current
  live : s.kernel.table.contains s.current = true

section Afoot

variable (afoot : Afoot s)
include afoot

theorem Afoot.modify (f : SimThread → SimThread) (keeps : ∀ t, (f t).id = t.id) :
    Afoot (s.modifyCurrent f) where
  quiet := afoot.quiet
  has := (has_modifyThread keeps).mpr afoot.has
  live := afoot.live

theorem Afoot.withKernel {kernel : Kernel} (quiet : kernel.Quiet)
    (live : kernel.table.contains s.current = true) : Afoot { s with kernel } where
  quiet := quiet
  has := afoot.has
  live := live

theorem found_conclude {action : String} {reply : Reply} : Found (conclude action reply) s := by
  refine found_bind (found_of_ok rfl) fun t mid _ reads => ?_
  cases reads
  have is : s.currentThread.id = s.current := thread_id afoot.has
  refine found_bind (found_askTable afoot.quiet ?_) fun _ _ _ _ => found_of_ok rfl
  rw [is]
  exact found_priority afoot.live

/-- To look at something in a section, and to report it. -/
theorem found_looking {x : Stretch Kernel α} {action : String} {reply : α → Reply}
    (looks : ∀ k : Kernel, k.Quiet → (x k).state = k)
    (avoids : Avoids (fun _ => False) (fun fault => ∃ id, fault = .staleHandle id) x) :
    Found (inKernel (inSection fun _ => x) >>= fun a => conclude action (reply a)) s := by
  refine found_bind (found_inSection avoids) fun a mid _ run => ?_
  rw [inSection_looks looks afoot.quiet run]
  exact found_conclude afoot

theorem found_asking {x : Stretch ThreadTable α} {action : String} {reply : α → Reply}
    (looks : Looks x) (found : Found x s.kernel.table) :
    Found (askTable x >>= fun a => conclude action (reply a)) s := by
  refine found_bind (found_askTable afoot.quiet found) fun a mid _ run => ?_
  rw [askTable_eq_ok looks afoot.quiet run]
  exact found_conclude afoot

theorem found_showPriority (live : s.kernel.table.contains id = true) :
    Found (showPriority id) s := by
  refine found_bind (found_askTable afoot.quiet (found_priority live)) fun effective mid _ run => ?_
  rw [askTable_eq_ok ThreadTable.inspects_priority.looks afoot.quiet run]
  exact found_asking afoot ThreadTable.inspects_basePriority.looks (found_basePriority live)

theorem found_spawn {name : String} {level : Nat} {script : List Action}
    {disguise : Option Disguise} (arena : ThreadTable.Arena s.kernel.table) :
    Found (spawn name level script disguise) s := by
  refine found_bind found_ofLevel fun priority mid _ checks => ?_
  rw [(ofExcept_eq_ok checks).2]
  refine found_after rfl (found_bind (found_onFault (found_withThreads (afoot.quiet.withDepth _)
    ThreadTable.found_spawn)) fun outcome mid' _ adds => ?_)
  obtain ⟨kernel, accesses, rfl⟩ := inKernel_eq_ok.mp (onFault_eq_ok adds)
  obtain ⟨table, works, rfl⟩ := (withThreads_eq_ok (afoot.quiet.withDepth _)).mp accesses
  obtain ⟨-, rfl, rfl⟩ | ⟨id, rfl, -⟩ := ThreadTable.spawn_eq_ok arena works
  · exact found_after rfl (found_conclude (afoot.withKernel (afoot.quiet.withDepth _) afoot.live))
  · refine found_bind (found_onFault (found_require nofun)) fun _ _ _ _ => ?_
    refine found_after rfl (found_after rfl (found_after rfl ?_))
    exact found_bind (found_onFault found_unblock) fun _ _ _ _ => found_of_ok rfl

theorem found_join {name : String} : Found (join name) s := by
  refine found_after rfl ?_
  split
  · exact found_conclude afoot
  · exact found_of_ok rfl

theorem found_setPriority {level : Nat} (sound : Sound s.kernel.table)
    (acyclic : s.kernel.mode.donates = true → ThreadTable.Acyclic s.kernel.table) :
    Found (setPriority level) s := by
  refine found_bind found_ofLevel fun priority mid _ checks => ?_
  rw [(ofExcept_eq_ok checks).2]
  refine found_after rfl (found_after rfl (found_bind (found_onFault (found_after rfl ?_))
    fun _ _ _ _ => found_of_ok rfl))
  refine found_withThreads (afoot.quiet.withDepth _) fun id fails => ?_
  exact (Donation.stale_of_changeBase sound acyclic fails).2 afoot.live

omit afoot in
theorem found_interrupt {script : List Action} : Found (interrupt script) s :=
  found_after rfl (found_bind (found_require nofun) fun _ _ _ _ => found_of_ok rfl)

/-- A call that does not wait looks up no stale handle, and leaves its caller live. -/
def Answerable (s : Simulation) (made : ShortCall) : Prop :=
  Found (made.run s.current) s.kernel ∧ ∀ answer kernel events,
    made.run s.current s.kernel = ⟨.ok answer, kernel, events⟩ →
      kernel.Quiet ∧ kernel.table.contains s.current = true

theorem found_short {made : ShortCall} (answerable : s.Answerable made) :
    Found (perform (.short made)) s := by
  refine found_after rfl (found_bind answerable.1 fun answer mid events run => ?_)
  obtain ⟨kernel, answers, rfl⟩ := inKernel_eq_ok.mp run
  obtain ⟨quiet, live⟩ := answerable.2 _ _ _ answers
  exact found_after rfl (found_conclude
    ((afoot.withKernel quiet live).modify (fun t => { t with last := answer }) fun _ => rfl))

/-- A handle without a thread is named in the fault. -/
theorem showPriority_of_stale (gone : s.kernel.table.get? id = none) :
    (showPriority id s).outcome = .error (.staleHandle id) := by
  have stale : (askTable (ThreadTable.priority id) s).outcome = .error (.staleHandle id) := by
    unfold askTable inKernel within
    rw [inSection_run, withThreads_run (afoot.quiet.withDepth _).threads]
    exact congrArg Run.outcome (bind_run_error (ThreadTable.record_run_of_stale gone) _)
  rcases run : askTable (ThreadTable.priority id) s with ⟨outcome, mid, events⟩
  rw [run] at stale
  subst stale
  exact congrArg Run.outcome (bind_run_error run _)

/-- To ask for the priority of a thread by its name fails with a stale handle only if the thread is
gone. -/
theorem stale_of_priorityOf {name : String}
    (fails : (perform (.priorityOf name) s).outcome = .error (.staleHandle id)) :
    (name, id) ∈ s.known ∧ ¬ s.kernel.table.contains id = true := by
  simp only [perform] at fails
  rw [bind_run_ok (read_run _ _)] at fails
  cases found : s.known.find? fun entry : String × ThreadId => entry.1 = name with
  | none =>
    rw [found] at fails
    exact absurd fails (found_conclude afoot id)
  | some entry =>
    rw [found] at fails
    replace fails : (showPriority entry.2 s).outcome = .error (.staleHandle id) := fails
    have here := List.find?_some found
    obtain rfl : entry.1 = name := of_decide_eq_true here
    cases gone : s.kernel.table.get? entry.2 with
    | some r =>
      exact absurd fails (found_showPriority afoot (ThreadTable.contains_of_get? gone) id)
    | none =>
      cases (showPriority_of_stale afoot gone).symm.trans fails
      exact ⟨List.mem_of_find?_eq_some found, ThreadTable.contains_of_stale gone⟩

variable (sound : Sound s.kernel.table)
  (acyclic : s.kernel.mode.donates = true → ThreadTable.Acyclic s.kernel.table)
include sound acyclic

/-- No other action meets a stale handle. -/
theorem found_perform {action : Action} (stays : action ≠ .yield)
    (unnamed : ∀ name, action ≠ .priorityOf name)
    (answerable : ∀ made, action = .short made → s.Answerable made) :
    Found (perform action) s := by
  cases action with
  | call | waitWhile | times | attempt | set => exact found_of_ok rfl
  | ifLast | branch => exact found_of_ok rfl
  | short made => exact found_short afoot (answerable made rfl)
  | permits x =>
    refine found_bind (found_inSection (avoids_accessing (by simp) (avoids_read _)))
      fun count mid _ run => ?_
    rw [inSection_looks (readCount_looks x) afoot.quiet run]
    exact found_looking afoot (readWaiterCount_looks x)
      (avoids_accessing (by simp) (avoids_read _))
  | holder lock =>
    exact found_looking afoot (readHolder_looks lock)
      (avoids_withThreads (by simp) (avoids_read _))
  | registrations c =>
    exact found_looking afoot (readWaiterCount_looks_condvar c)
      (avoids_accessing (by simp) (avoids_read _))
  | spawn name level script disguise => exact found_spawn afoot sound.arena
  | join name => exact found_join afoot
  | yield => exact absurd rfl stays
  | setPriority level => exact found_setPriority afoot sound acyclic
  | priority => exact found_after rfl (found_showPriority afoot afoot.live)
  | priorityOf name => exact absurd rfl (unnamed name)
  | threads => exact found_asking afoot (looks_read _) (found_of_ok rfl)
  | snapshot => exact found_asking afoot (looks_read _) (found_of_ok rfl)
  | mode | inInterrupt | showKernel => exact found_after rfl (found_conclude afoot)
  | interrupt script => exact found_interrupt
  | note written => exact found_conclude afoot
  | foreign => exact found_conclude afoot
  | add index amount =>
    refine found_after rfl (found_after rfl (found_conclude ?_))
    exact ⟨afoot.quiet, afoot.has, afoot.live⟩
  | raise | raiseWithoutText | nested | unknown => exact nofun

/-- What is pending meets no stale handle, unless it asks for a priority by a name. -/
theorem found_proceedUntil {pending : Pending}
    (unnamed : ∀ name actions, pending ≠ .actions (.priorityOf name :: actions))
    (answerable : ∀ made actions, pending = .actions (.short made :: actions) →
      s.Answerable made) : Found (proceedUntil pending) s := by
  have plain : ∀ {x : Stretch Simulation Unit}, Found x s →
      Found (x >>= fun _ => (Pure.pure none : Stretch Simulation (Option Switch))) s :=
    fun found => found_bind found fun _ _ _ _ => found_of_ok rfl
  have concludes : ∀ {action reply}, Found (conclude action reply) s := found_conclude afoot
  cases pending with
  | actions list =>
    cases list with
    | nil => exact found_of_ok rfl
    | cons action actions =>
      by_cases yields : action = .yield
      · subst yields
        exact found_of_ok rfl
      · have pushed := afoot.modify
          (fun t => { t with script := .actions actions :: t.script }) fun _ => rfl
        rw [proceedUntil_action yields]
        refine plain (found_after rfl (found_perform pushed sound acyclic yields
          (fun name is => unnamed name actions (by rw [is])) fun made is => ?_))
        exact answerable made actions (by rw [is])
  | remove saved =>
    refine found_after rfl (found_bind (found_onFault ?_) fun _ _ _ _ => found_of_ok rfl)
    refine found_withThreads afoot.quiet fun id fails => ?_
    exact (ThreadTable.stale_of_remove fails).2 afoot.live
  | handlerReturned =>
    refine found_after rfl ?_
    split <;> exact found_of_ok rfl
  | times count script => cases count <;> exact found_of_ok rfl
  | waiting c lock condition waits =>
    refine plain (found_after rfl ?_)
    split
    · exact found_of_ok rfl
    · exact concludes
  | start => exact plain (found_after rfl (found_after rfl concludes))
  | «over» | attempt => exact plain concludes
  | finish exited =>
    refine plain (found_bind concludes fun _ _ _ _ => found_of_ok rfl)
  | known | handler | disguise | returned => exact found_of_ok rfl

end Afoot

/-! ### Turns -/

/-- The running thread is about to ask for the priority of a thread that is gone, by its name. -/
def AsksForGone (s : Simulation) (id : ThreadId) : Prop :=
  s.currentThread.call = [] ∧ ∃ name actions rest,
    s.currentThread.script = .actions (.priorityOf name :: actions) :: rest ∧
      (name, id) ∈ s.known ∧ ¬ s.kernel.table.contains id = true

theorem Mirrors.living (mirrors : Mirrors settings how s σ) (reachable : Reachable scheduled σ) :
    s.kernel.Living := by
  have living := (reachable.mono fun _ _ obeys => exitsClear_of_idle obeys.2).living
  rw [mirrors.kernel] at living
  exact ⟨living.donors, living.holders, living.queues, living.waiters⟩

theorem Mirrors.contenders_live (mirrors : Mirrors settings how s σ) :
    ∀ t ∈ s.contenders how, s.kernel.table.contains t = true :=
  fun t mem => mirrors.table ▸ ((mirrors.contends t).mp mem).1

section Mirrors

variable (mirrors : Mirrors settings none s σ) (reachable : Reachable scheduled σ)
include mirrors reachable

theorem Mirrors.sound : Sound s.kernel.table := mirrors.table ▸ reachable.orderly.sound

theorem Mirrors.acyclic (donating : s.kernel.mode.donates = true) :
    ThreadTable.Acyclic s.kernel.table :=
  mirrors.table ▸ reachable.acyclic (mirrors.mode ▸ donating)

theorem Mirrors.afoot : Afoot s where
  quiet := mirrors.quiet reachable
  has := mirrors.present
  live := mirrors.table ▸ mirrors.awake.1

/-- A short call that the script may make is one that the system can make. -/
theorem Mirrors.answerable (idle : s.currentThread.call = []) {made : ShortCall}
    (offered : settings.OffersShort made) : s.Answerable made := by
  have free := mirrors.free (mirrors.frames_of_idle idle)
  have named := mirrors.stocked.namesShort offered
  have live := (mirrors.afoot reachable).live
  refine ⟨fun id fails => ?_, fun answer kernel events run => ?_⟩
  · have found := System.found_short reachable.orderly
      (show σ.Allowed (.short s.current made) from ⟨free, mirrors.idle idle, named⟩)
    rw [mirrors.kernelAt] at found
    exact (level_run made).found found id fails
  · have quiet := mirrors.quiet reachable
    have answers := answers_of_ok quiet run
    refine ⟨answers.quiet quiet, ?_⟩
    cases answers with
    | takes | refuses | denies | looks => exact live
    | @acquires lock notMine permit claims =>
      have grant := System.change_of_grant reachable.orderly free (mirrors.idle idle) named
        (by rw [mirrors.kernel]; exact permit)
      have alive := (grant.contains reachable.orderly.sound s.current).mpr mirrors.awake.1
      rw [mirrors.table, mirrors.mode] at alive
      exact alive

/-- In the middle of a call the running thread is where the system has it. -/
theorem Mirrors.found_advance {frame : Frame} {frames : List Frame}
    (busy : s.currentThread.call = frame :: frames) : Found (frame.advance s.current) s.kernel := by
  have quiet := mirrors.quiet reachable
  have follows := mirrors.follows s.current
  rw [show (s.thread s.current).call = frame :: frames from busy] at follows
  cases follows_eq : (σ.activity s.current).frames with
  | nil =>
    rw [follows_eq] at follows
    cases follows with
    | alike alike => cases alike
    | checks | closes => exact found_of_ok rfl
  | cons head rest =>
    rw [follows_eq] at follows
    cases follows with
    | alike alike =>
      obtain ⟨_, _, is, same, -⟩ := alike.cons_inv
      obtain ⟨rfl, rfl⟩ := List.cons.inj is
      obtain ⟨live, awake⟩ := mirrors.awake
      have allowed : σ.Allowed (.go s.current) :=
        ⟨mirrors.mayGo, live, by rw [follows_eq]; exact List.cons_ne_nil _ _, awake⟩
      have found := System.found_advance reachable.orderly reachable.acyclic
        (reachable.mono fun _ _ obeys => exitsClear_of_idle obeys.2).living allowed follows_eq
      rcases Frame.eq_of_plain same with rfl | ⟨saved, saved', rfl, rfl⟩
      · rw [mirrors.kernelAt] at found
        by_cases begins : ∃ made, frame = .call made
        · obtain ⟨made, rfl⟩ := begins
          exact Frame.found_begin quiet made
        by_cases ends : ∃ saved, frame = .leave saved
        · obtain ⟨saved, rfl⟩ := ends
          exact found_of_ok rfl
        exact (level_advance (fun made is => begins ⟨made, is⟩)
          fun saved is => ends ⟨saved, is⟩).found found
      · exact found_of_ok rfl

/-- What a call asks of the scheduler can be answered without a stale handle. -/
theorem Mirrors.found_advanceCallUntil (busy : s.currentThread.call ≠ []) :
    Found (advanceCallUntil s.current s.currentThread.call) s := by
  obtain ⟨frame, frames, is⟩ := List.exists_cons_of_ne_nil busy
  have quiet := mirrors.quiet reachable
  have present := mirrors.present
  rw [is]
  refine found_after rfl (found_bind (found_inKernel (found_bind
    (found_onFault (mirrors.found_advance reachable is)) fun _ _ _ _ => found_of_ok rfl))
    fun progress mid _ run => found_after rfl ?_)
  obtain ⟨kernel, steps, rfl⟩ := inKernel_eq_ok.mp run
  obtain ⟨progress, advances, rfl⟩ := step_eq_ok steps
  dsimp only
  cases asks : progress.request with
  | proceed | block => exact found_of_ok rfl
  | unblock id => exact found_bind found_unblock fun _ _ _ _ => found_of_ok rfl
  | check =>
    obtain rfl := (advances_of_ok quiet advances).eq_of_check asks
    exact found_checkUntil quiet (mirrors.afoot reachable).live
      fun t mem => mirrors.contenders_live t (List.mem_append_left _ mem)

/-- The running thread comes to its next switch without a stale handle, unless it asks for the
priority of a thread that is gone. -/
theorem Mirrors.stale_of_untilSwitch
    (fails : (untilSwitch s).outcome = .error (.staleHandle id)) : s.AsksForGone id := by
  have afoot := mirrors.afoot reachable
  have is : s.currentThread.id = s.current := thread_id mirrors.present
  unfold untilSwitch at fails
  rw [bind_run_ok (read_run _ _), is] at fails
  cases busy : s.currentThread.call with
  | cons frame frames =>
    have found := mirrors.found_advanceCallUntil reachable (by simp [busy])
    rw [busy] at fails found
    exact absurd fails (found id)
  | nil =>
    cases due : s.currentThread.script with
    | nil =>
      rw [busy, due] at fails
      exact absurd fails (found_of_ok rfl id)
    | cons pending script =>
      rw [busy, due] at fails
      replace fails : (proceedUntil pending (s.modifyCurrent fun t => { t with script })).outcome =
        .error (.staleHandle id) := fails
      have popped := afoot.modify (fun t => { t with script }) fun _ => rfl
      by_cases named : ∃ name actions, pending = .actions (.priorityOf name :: actions)
      · obtain ⟨name, actions, rfl⟩ := named
        have pushed := popped.modify
          (fun t => { t with script := .actions actions :: t.script }) fun _ => rfl
        rw [proceedUntil_action (by simp)] at fails
        rcases error_of_bind fails with fails | ⟨_, _, _, _, fails⟩
        · obtain ⟨known, gone⟩ := stale_of_priorityOf pushed fails
          exact ⟨busy, name, actions, script, due, known, gone⟩
        · cases fails
      · refine absurd fails (found_proceedUntil popped (mirrors.sound reachable)
          (mirrors.acyclic reachable) (fun name actions is => named ⟨name, actions, is⟩)
          (fun made actions is => ?_) id)
        subst is
        have admitted := mirrors.scripts s.current (.actions (.short made :: actions))
          (due ▸ List.mem_cons_self)
        exact mirrors.answerable reachable busy admitted.1

end Mirrors

/-! ### Runs -/

/-- Whoever is ready, and whoever runs, is live. -/
structure QueueLive (s : Simulation) : Prop where
  ready : ∀ t ∈ s.queue.ready, s.kernel.table.contains t = true
  running : ∀ t, s.queue.running = some t → s.kernel.table.contains t = true

theorem Mirrors.queueLive (mirrors : Mirrors settings how s σ)
    (live : s.kernel.table.contains s.current = true) : s.QueueLive where
  ready := by
    intro t mem
    refine mirrors.contenders_live t ?_
    cases how with
    | none => exact List.mem_append_left _ mem
    | some how =>
      cases how with
      | yield => exact List.mem_append_left _ mem
      | block | exit => exact mem
  running := by
    intro t runs
    cases mirrors.running.symm.trans runs
    exact live

/-- A thread that blocks is still live. -/
theorem Mirrors.live_of_blocks (mirrors : Mirrors settings (some .block) s₁ σ)
    (reachable : Reachable scheduled σ) (quiet : s.kernel.Quiet) (turn : Turn s s₁ (some .block)) :
    s₁.kernel.table.contains s₁.current = true := by
  rw [← show σ.table = s₁.kernel.table from mirrors.table]
  by_contra gone
  have frames := reachable.orderly.placed.absent s₁.current gone
  have follows := mirrors.follows s₁.current
  rw [frames] at follows
  cases turn with
  | goes busy steps heeds shifts =>
    generalize requested : Progress.request _ = request at heeds
    cases heeds with
    | blocks =>
      obtain ⟨first, others, is⟩ := List.exists_cons_of_ne_nil busy
      rw [is] at steps
      obtain ⟨advance, advances, rfl⟩ := step_eq_ok steps
      obtain ⟨place, at_, waits⟩ := (advances_of_ok quiet advances).frames_of_block requested
      have call : (s₁.thread s₁.current).call = place :: others := by
        rw [show s₁.thread s₁.current = _ from shifts.currentThread, at_]
        rfl
      rw [call] at follows
      cases follows with
      | alike alike => cases alike
      | checks | closes => cases waits

section Reached

variable (fits : settings.Fits script) (reached : Reached settings script s)
include fits reached

/-- Where the running thread gives up the processor the handles are as live as ever; a thread that
exits is alone in being gone already. -/
theorem Reached.switches_live {how : Switch} (switches : s.Switches how s₁) :
    s₁.kernel.Living ∧ (∀ t ∈ s₁.contenders (some how), s₁.kernel.table.contains t = true) ∧
      (how ≠ .exit → s₁.QueueLive) := by
  obtain ⟨events, run⟩ := switches
  have mirrored := reached.mirrored fits
  have turn := mirrored.turn_of_run run
  obtain ⟨σ, reachable, mirrors⟩ := mirrored.turn turn
  refine ⟨mirrors.living reachable, mirrors.contenders_live, fun stays => mirrors.queueLive ?_⟩
  cases how with
  | yield => exact mirrors.contenders_live _ (List.mem_append_right _ List.mem_cons_self)
  | block => exact mirrors.live_of_blocks reachable mirrored.quiet turn
  | exit => exact absurd rfl stays

/-- A step fails with a stale handle only if it asks for the priority of a thread that is gone. -/
theorem Reached.stale (fails : (advance s).outcome = .error (.staleHandle id)) :
    s.AsksForGone id := by
  have mirrored := reached.mirrored fits
  rw [advance_eq] at fails
  rcases error_of_bind fails with fails | ⟨how, s₁, events, run, fails⟩
  · obtain ⟨σ, reachable, mirrors⟩ := mirrored
    exact mirrors.stale_of_untilSwitch reachable fails
  · cases how with
    | none => cases fails
    | some how =>
      obtain ⟨σ, reachable, mirrors⟩ := mirrored.turn (mirrored.turn_of_run run)
      exact absurd fails
        (found_switch (mirrors.quiet reachable) mirrors.contenders_live mirrors.running id)

end Reached

end Simulation

section

open KernelSync.System KernelSync.Simulation

/-- No handle dangles. In every run, in either mode, in which no thread is removed in the middle of
a call that may wait, every stored handle is that of a live thread after each move, and a move fails
with a stale handle only if it names a thread from outside that is gone: no call of a primitive
does, nor a donation on behalf of a live thread. In a simulation the threads that are ready or run
are live as well, between steps and where the processor is given up, and no step meets a stale
handle but one that asks for the priority of a thread that has exited, by its name. -/
theorem no_dangling_handles :
    (∀ s, Reachable exitsClear s → s.kernel.Living ∧ ∀ move id, s.Allowed move →
      (System.perform move s).outcome = .error (.staleHandle id) →
        Addresses id move ∧ ¬ s.Live id) ∧
    ∀ settings script s, settings.Fits script → Reached settings script s →
      (s.kernel.Living ∧ s.QueueLive) ∧
      (∀ how s₁, s.Switches how s₁ → s₁.kernel.Living ∧
        (∀ t ∈ s₁.contenders (some how), s₁.kernel.table.contains t = true) ∧
        (how ≠ .exit → s₁.QueueLive)) ∧
      ∀ id, (advance s).outcome = .error (.staleHandle id) → s.AsksForGone id := by
  refine ⟨fun s reachable => ⟨reachable.living, fun move id allowed fails =>
    reachable.stale allowed fails⟩, fun settings script s fits reached => ?_⟩
  obtain ⟨σ, reachable, mirrors⟩ := reached.mirrored fits
  refine ⟨⟨mirrors.living reachable, mirrors.queueLive ?_⟩,
    fun how s₁ switches => reached.switches_live fits switches,
    fun id fails => reached.stale fits fails⟩
  exact (mirrors.afoot reachable).live

/-- A lock with a holder and a waiter, and a thread that leaves when it has added a permit, before
it has left its section; its slot goes to another. -/
def departure : List Move :=
  [.newLock, .newSemaphore 0, .spawn "holder" .standard, .spawn "waiter" .standard,
    .spawn "brief" .standard,
    .call ⟨0, 0⟩ (.acquire ⟨⟨1⟩, ⟨0⟩⟩), .go ⟨0, 0⟩, .go ⟨0, 0⟩, .go ⟨0, 0⟩,
    .call ⟨1, 0⟩ (.acquire ⟨⟨1⟩, ⟨0⟩⟩), .go ⟨1, 0⟩, .go ⟨1, 0⟩,
    .call ⟨2, 0⟩ (.up ⟨1⟩), .go ⟨2, 0⟩, .go ⟨2, 0⟩, .go ⟨2, 0⟩, .remove ⟨2, 0⟩,
    .spawn "heir" .standard]

/-- A thread that is more urgent than its creator, which asks for its priority when it has
exited. -/
def belated : List Action := [.spawn "brief" 40 [] none, .priorityOf "brief"]

/-- The waiter is queued and live, and the thread that has left is not found; nor is the one that
has exited. -/
theorem departure_leaves_nothing :
    (∃ s, Reachable exitsClear s ∧ s.kernel.queue ⟨0⟩ = [⟨1, 0⟩] ∧ s.Live ⟨1, 0⟩ ∧
      (System.perform (.remove ⟨2, 0⟩) s).outcome = .error (.staleHandle ⟨2, 0⟩) ∧
      ¬ s.Live ⟨2, 0⟩) ∧
    ∃ s, Reached {} belated s ∧ s.QueueLive ∧
      (advance s).outcome = .error (.staleHandle ⟨1, 0⟩) ∧ s.AsksForGone ⟨1, 0⟩ := by
  constructor
  · have plays : (System.play exitsClear departure (System.start 3 .priorityDonation)).map (fun s =>
        decide (s.kernel.queue ⟨0⟩ = [⟨1, 0⟩] ∧ s.Allowed (.remove ⟨2, 0⟩) ∧
          (System.perform (.remove ⟨2, 0⟩) s).outcome = .error (.staleHandle ⟨2, 0⟩))) =
        some true := by
      decide +kernel
    obtain ⟨s, played, facts⟩ := Option.map_eq_some_iff.mp plays
    obtain ⟨queue, allowed, fails⟩ := of_decide_eq_true facts
    have reachable : Reachable exitsClear s := (Reachable.start (by decide)).play played
    obtain ⟨living, stale⟩ := no_dangling_handles.1 s reachable
    exact ⟨s, reachable, queue, living.queues ⟨0⟩ _ (by rw [queue]; exact List.mem_cons_self),
      fails, (stale _ _ allowed fails).2⟩
  · have plays : ((Settings.start {} belated (Settings.table {} (.empty 0)).state ⟨0, 0⟩).play
        13).map (fun s => decide ((advance s).outcome = .error (.staleHandle ⟨1, 0⟩))) =
        some true := by
      decide +kernel
    obtain ⟨s, played, facts⟩ := Option.map_eq_some_iff.mp plays
    have fails := of_decide_eq_true facts
    have reached : Reached {} belated s := (Reached.start rfl).play played
    have fits : Settings.Fits {} belated := by
      refine ⟨by decide, ?_⟩
      simp [belated, Settings.Admits, Settings.AdmitsAction]
    obtain ⟨live, -, stale⟩ := no_dangling_handles.2 {} belated s fits reached
    exact ⟨s, reached, live.2, fails, stale _ fails⟩

end

end KernelSync
