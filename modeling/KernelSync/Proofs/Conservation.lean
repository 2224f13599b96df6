import KernelSync.Proofs.Failures
import KernelSync.Proofs.Grounded

/-!
Where the threads of a simulation are. As long as no failure is recorded, whatever faults are caught,
each live thread is in one place: it runs, it is ready, or it is in the wait list of one semaphore
(`Housed`, `threads_conserved`). So nobody is made ready who is ready or running, only the running
thread gives up the processor, and a deadlock is recorded just where a thread blocks or exits and finds
all others in wait lists. There is one exception, a thread that strays: it is live, and nowhere
(`stray_is_nowhere`).
-/

namespace KernelSync.Simulation

open Stretch hiding pure bind
open Kernel

variable {settings : Settings} {script : List Action} {path : List Simulation}
  {s s' s₁ : Simulation} {how : Option Switch} {t next : ThreadId} {fault : Fault}
  {events : List Event}

/-- Everybody who is somewhere: the running thread, the ready threads and those in wait lists. -/
def places (s : Simulation) : List ThreadId :=
  s.queue.running.toList ++ s.queue.ready ++ s.kernel.waiting

/-- On the way the creation of the thread has failed, and has left it in the table. -/
def Strayed (path : List Simulation) (t : ThreadId) : Prop := ∃ s ∈ path, s.Strays t

theorem strayed_append : Strayed (path ++ [s]) t ↔ Strayed path t ∨ s.Strays t := by
  unfold Strayed
  simp only [List.mem_append, List.mem_singleton, or_and_right, exists_or, exists_eq_left]

/-- Everybody who contends for the processor or is in a wait list, at the switch that is about to be
made if there is one. -/
def housed (s : Simulation) (how : Option Switch) : List ThreadId :=
  s.contenders how ++ s.kernel.waiting

/-- The current thread runs, the run queue is clean, and each live thread either strays or is in one
place, and there once. -/
structure Housed (path : List Simulation) (how : Option Switch) (s : Simulation) : Prop where
  running : s.queue.running = some s.current
  clean : s.queue.poisoned = false
  nodup : (s.housed how).Nodup
  mem : ∀ t, t ∈ s.housed how ↔ s.kernel.table.contains t = true ∧ ¬ Strayed path t
  strays : ∀ t, Strayed path t → s.kernel.table.contains t = true

section Housed

variable (housed : Housed path how s)
include housed

/-- Nobody has moved. -/
theorem Housed.perm {how' : Option Switch} (running : s'.queue.running = some s'.current)
    (clean : s'.queue.poisoned = false) (same : (s'.housed how').Perm (s.housed how))
    (live : ∀ t, s'.kernel.table.contains t = s.kernel.table.contains t) :
    Housed path how' s' where
  running := running
  clean := clean
  nodup := same.nodup_iff.mpr housed.nodup
  mem := fun t => by rw [same.mem_iff, live, housed.mem]
  strays := fun t strayed => (live t).trans (housed.strays t strayed)

theorem Housed.live (mem : t ∈ s.contenders how) : s.kernel.table.contains t = true :=
  ((housed.mem t).mp (List.mem_append_left _ mem)).1

/-- Who waits does not contend. -/
theorem Housed.not_contender (waits : t ∈ s.kernel.waiting) : t ∉ s.contenders how := fun mem =>
  (List.nodup_append.mp housed.nodup).2.2 t mem t waits rfl

/-- Nobody contends just where all live threads are in wait lists, but for those that stray. -/
theorem Housed.nobody_iff : s.contenders how = [] ↔
    ∀ t, s.kernel.table.contains t = true → ¬ Strayed path t → ∃ x, t ∈ s.kernel.queue x := by
  constructor
  · intro nobody t live here
    have mem := (housed.mem t).mpr ⟨live, here⟩
    unfold Simulation.housed at mem
    rw [nobody, List.nil_append] at mem
    exact mem_waiting.mp mem
  · intro waiting
    refine List.eq_nil_iff_forall_not_mem.mpr fun t mem => ?_
    obtain ⟨live, here⟩ := (housed.mem t).mp (List.mem_append_left _ mem)
    exact housed.not_contender (mem_waiting.mpr (waiting t live here)) mem

end Housed

theorem Housed.places_perm (housed : Housed path none s) : s.places.Perm (s.housed none) := by
  unfold places Simulation.housed contenders
  rw [housed.running]
  have swap : ([s.current] ++ s.queue.ready).Perm (s.queue.ready ++ [s.current]) :=
    List.perm_append_comm
  exact swap.append_right _

/-! ### Turns -/

section Turns

variable (housed : Housed path none s)
include housed

/-- A turn in which nobody is made ready, and nobody comes or goes. -/
theorem Housed.shifts {t : SimThread} {kernel : Kernel} (shifts : Shifts s s₁ t kernel s.queue)
    (contenders : s.contenders how = s.contenders none) (waiting : kernel.waiting = s.kernel.waiting)
    (live : ∀ t, kernel.table.contains t = s.kernel.table.contains t) : Housed path how s₁ := by
  have same := shifts.kernel_eq
  subst same
  have contends : s₁.contenders how = s.contenders how := by
    unfold Simulation.contenders
    rw [shifts.queue_eq, shifts.current]
  refine housed.perm ?_ ?_ (.of_eq ?_) live
  · rw [shifts.queue_eq, shifts.current]
    exact housed.running
  · rw [shifts.queue_eq]
    exact housed.clean
  · unfold Simulation.housed
    rw [contends, contenders, waiting]

/-- Who is made ready by a call was in a wait list, and who blocks comes into one. -/
theorem Housed.goes {progress : Progress} {kernel : Kernel} {queue : RunQueue} {flag : Bool}
    {t : SimThread} (stirs : Stirs s.current s.kernel kernel progress)
    (heeds : Heeds s kernel progress.request queue flag how) (shifts : Shifts s s₁ t kernel queue)
    (live : ∀ t, kernel.table.contains t = s.kernel.table.contains t) : Housed path how s₁ := by
  have stirred := stirs.waiting
  have same := shifts.kernel_eq
  generalize progress.request = request at heeds stirred
  cases heeds with
  | proceeds | calm | defers => exact housed.shifts shifts rfl stirred live
  | preempts => exact housed.shifts shifts rfl stirred live
  | blocks =>
    subst same
    refine housed.perm ?_ ?_ ?_ live
    · rw [shifts.queue_eq, shifts.current]
      exact housed.running
    · rw [shifts.queue_eq]
      exact housed.clean
    · have blocked : (s.queue.ready ++ s₁.kernel.waiting).Perm
          (s.queue.ready ++ ([s.current] ++ s.kernel.waiting)) := stirred.append_left _
      unfold Simulation.housed contenders
      rw [shifts.queue_eq, List.append_assoc]
      exact blocked
  | @wakes woken notReady =>
    subst same
    refine housed.perm ?_ ?_ ?_ live
    · rw [shifts.queue_eq, shifts.current]
      exact housed.running
    · rw [shifts.queue_eq]
      exact housed.clean
    · have moved : (s.queue.ready ++ [woken] ++ [s.current] ++ s₁.kernel.waiting).Perm
          (s.queue.ready ++ [s.current] ++ (woken :: s₁.kernel.waiting)) := by
        simp only [List.append_assoc, List.singleton_append]
        exact (List.Perm.swap _ _ _).append_left _
      unfold Simulation.housed contenders
      rw [shifts.queue_eq, shifts.current]
      exact moved.trans (stirred.symm.append_left _)

/-- A new thread is ready, and nowhere else. -/
theorem Housed.spawns {id : ThreadId} {table : ThreadTable} {r : ThreadRecord} {depth : Nat}
    (gains : ThreadTable.Gains s.kernel.table id r table)
    (kernel : s₁.kernel = { (s.kernel.setTable table).addSemaphore 0 with depth })
    (queue : s₁.queue = { s.queue with ready := s.queue.ready ++ [id] })
    (current : s₁.current = s.current) : Housed path none s₁ := by
  have waiting : s₁.kernel.waiting = s.kernel.waiting := by
    refine waiting_congr fun x => ?_
    rw [kernel]
    exact queue_addSemaphore (k := s.kernel.setTable table)
  have longer : (s₁.housed none).Perm (id :: s.housed none) := by
    unfold Simulation.housed contenders
    rw [waiting, queue, current]
    simp only [List.append_assoc, List.singleton_append]
    exact List.perm_middle
  have live : ∀ t, s₁.kernel.table.contains t = true ↔
      t = id ∨ s.kernel.table.contains t = true := by
    rw [kernel]
    exact fun t => gains.contains
  have new : id ∉ s.housed none := fun mem =>
    nomatch gains.absent.symm.trans ((housed.mem id).mp mem).1
  have unstrayed : ¬ Strayed path id := fun strayed =>
    nomatch gains.absent.symm.trans (housed.strays id strayed)
  refine ⟨?_, ?_, longer.nodup_iff.mpr (List.nodup_cons.mpr ⟨new, housed.nodup⟩), fun t => ?_,
    fun t strayed => (live t).mpr (Or.inr (housed.strays t strayed))⟩
  · rw [queue, current]
    exact housed.running
  · rw [queue]
    exact housed.clean
  · rw [longer.mem_iff, List.mem_cons, housed.mem, live, or_and_right]
    refine or_congr_left (iff_self_and.mpr ?_)
    rintro rfl
    exact unstrayed

/-- A thread that leaves the table has been running. -/
theorem Housed.exits {t : SimThread} {table : ThreadTable}
    (loses : ThreadTable.Loses s.kernel.table s.current table)
    (shifts : Shifts s s₁ t (s.kernel.setTable table) s.queue) :
    Housed path (some .exit) s₁ := by
  have same : (s.housed none).Perm (s.current :: s₁.housed (some .exit)) := by
    have waiting : s₁.kernel.waiting = s.kernel.waiting := by
      rw [shifts.kernel_eq]
      exact waiting_congr fun _ => rfl
    unfold Simulation.housed contenders
    rw [shifts.queue_eq, waiting, List.append_assoc]
    exact List.perm_middle
  have live : ∀ t, s₁.kernel.table.contains t = true ↔
      t ≠ s.current ∧ s.kernel.table.contains t = true := by
    rw [shifts.kernel_eq]
    exact fun t => loses.contains
  obtain ⟨gone, nodup⟩ := List.nodup_cons.mp (same.nodup_iff.mp housed.nodup)
  have mine : s.current ∈ s.housed none := same.mem_iff.mpr List.mem_cons_self
  refine ⟨?_, ?_, nodup, fun t => ?_, fun t strayed => (live t).mpr ⟨?_, housed.strays t strayed⟩⟩
  · rw [shifts.queue_eq, shifts.current]
    exact housed.running
  · rw [shifts.queue_eq]
    exact housed.clean
  · have before := housed.mem t
    rw [same.mem_iff, List.mem_cons] at before
    rw [live, and_assoc, ← before]
    constructor
    · intro mem
      refine ⟨?_, Or.inr mem⟩
      rintro rfl
      exact gone mem
    · exact fun ⟨apart, mem⟩ => mem.resolve_left apart
  · rintro rfl
    exact ((housed.mem s.current).mp mine).2 strayed

/-- Every turn keeps everybody in one place. -/
theorem Housed.turn (turn : Turn s s₁ how) (grounded : Grounded settings s)
    (quiet : s.kernel.Quiet) (arena : ThreadTable.Arena s.kernel.table) : Housed path how s₁ := by
  cases turn with
  | rests => exact housed
  | thinks idle due unrolls shifts | interrupts idle due outside shifts | handled idle due shifts
  | returns idle due unasked shifts | yieldsOnReturn idle due asked shifts
  | yields idle due shifts | finishes idle due shifts =>
    exact housed.shifts shifts rfl (waiting_congr fun _ => rfl) fun _ => rfl
  | @answers made _ _ _ _ _ _ idle due asks shifts =>
    have untouched : Untouched s.kernel (made.run s.current s.kernel).state :=
      ShortCall.still_run s.kernel quiet
    rw [asks] at untouched
    exact housed.shifts shifts rfl (waiting_congr untouched.queue) untouched.live
  | @rebases level priority _ _ _ _ _ _ idle due changes shifts =>
    have hides : Hides presence (Donation.changeBasePriority s.current priority s.kernel.mode) :=
      Donation.hides_changeBase
    have table := (hides s.kernel.table).agree.contains
    rw [changes] at table
    exact housed.shifts shifts rfl (waiting_congr fun _ => rfl) table
  | spawns idle due adds notReady kernel queue current =>
    obtain ⟨-, full, -⟩ | ⟨_, ⟨⟩, gains⟩ := ThreadTable.spawn_eq_ok arena adds
    · cases full
    · exact housed.spawns gains kernel queue current
  | exits idle due removes shifts =>
    obtain ⟨-, -, -, loses⟩ := ThreadTable.remove_eq_ok arena removes
    exact housed.exits loses shifts
  | goes busy steps heeds shifts =>
    obtain ⟨frame, frames, call⟩ := List.exists_cons_of_ne_nil busy
    rw [call] at steps
    have conducts : Conducts presence s.kernel (Frame.step s.current (frame :: frames) s.kernel) :=
      Frame.conducted_step overlooks_presence _ quiet rfl
    rw [steps] at conducts
    obtain ⟨progress, advanced, rfl⟩ := step_eq_ok steps
    have first : frame.Grounded s.kernel :=
      grounded.calls s.current frame (by
        rw [show (s.thread s.current).call = frame :: frames from call]
        exact List.mem_cons_self)
    have stirs := (advances_of_ok quiet advanced).stirs_of_grounded first
    exact housed.goes stirs heeds shifts conducts.table.agree.contains

/-- Whoever is about to be made ready is in a wait list, or new. -/
theorem Housed.not_contender_of_unblocks (grounded : Grounded settings s) (quiet : s.kernel.Quiet)
    (arena : ThreadTable.Arena s.kernel.table) (unblocks : s.Unblocks t) :
    t ∉ s.contenders none := by
  cases unblocks with
  | wakes busy steps asks =>
    obtain ⟨frame, frames, call⟩ := List.exists_cons_of_ne_nil busy
    rw [call] at steps
    obtain ⟨progress, advanced, rfl⟩ := step_eq_ok steps
    have first : frame.Grounded s.kernel :=
      grounded.calls s.current frame (by
        rw [show (s.thread s.current).call = frame :: frames from call]
        exact List.mem_cons_self)
    have stirred := ((advances_of_ok quiet advanced).stirs_of_grounded first).waiting
    rw [show progress.request = .unblock t from asks] at stirred
    exact housed.not_contender (stirred.mem_iff.mpr List.mem_cons_self)
  | makes idle due ranked adds named =>
    obtain ⟨-, full, -⟩ | ⟨_, ⟨⟩, gains⟩ := ThreadTable.spawn_eq_ok arena adds
    · cases full
    · exact fun mem => nomatch gains.absent.symm.trans (housed.live mem)

end Turns

/-! ### Switches -/

theorem mostUrgent_run {table : ThreadTable} {list : List ThreadId}
    (live : ∀ t ∈ list, table.contains t = true) (best : ThreadId) (urgency : Priority) :
    ∃ next, mostUrgent best urgency list table = ⟨.ok next, table, []⟩ := by
  induction list generalizing best urgency with
  | nil => exact ⟨best, rfl⟩
  | cons id rest ih =>
    unfold mostUrgent
    rw [bind_run_ok (Donation.priority_run_rank (live id List.mem_cons_self))]
    have others := ih fun t mem => live t (List.mem_cons_of_mem _ mem)
    split
    · obtain ⟨next, run⟩ := others id (Donation.rank table id)
      rw [run]
      exact ⟨next, rfl⟩
    · obtain ⟨next, run⟩ := others best urgency
      rw [run]
      exact ⟨next, rfl⟩

/-- Among live threads one is picked, if there is any. -/
theorem pickNext_run {table : ThreadTable} {list : List ThreadId}
    (live : ∀ t ∈ list, table.contains t = true) (somebody : list ≠ []) :
    ∃ next, pickNext list table = ⟨.ok (some next), table, []⟩ := by
  obtain ⟨id, rest, rfl⟩ := List.exists_cons_of_ne_nil somebody
  obtain ⟨next, run⟩ := mostUrgent_run (fun t mem => live t (List.mem_cons_of_mem _ mem)) id
    (Donation.rank table id)
  have picks : pickNext (id :: rest) = (do
      return some (← mostUrgent id (← ThreadTable.priority id) rest)) := rfl
  refine ⟨next, ?_⟩
  rw [picks, bind_run_ok (Donation.priority_run_rank (live id List.mem_cons_self)), bind_run_ok run]
  rfl

/-- A switch of the running thread succeeds if somebody contends, and all contenders are live. -/
theorem Housed.switch_ok {how : Switch} (housed : Housed path (some how) s) (quiet : s.kernel.Quiet)
    (somebody : s.contenders (some how) ≠ []) :
    ∃ next events, Foremost s.kernel.table (s.contenders (some how)) next ∧
      switch how s = ⟨.ok (), s.switched how next, events⟩ := by
  obtain ⟨next, picks⟩ := pickNext_run (fun t mem => housed.live mem) somebody
  have asks : inKernel (withThreads (pickNext (s.contenders (some how)))) (s.lined how) =
      ⟨.ok (some next), s.lined how, []⟩ := inKernel_withThreads_run quiet picks
  have ends : ∃ events, switch how s = ⟨.ok (), s.switched how next, events⟩ := by
    rw [switch_run housed.running, bind_run_ok asks]
    dsimp only [award]
    split
    · exact ⟨_, rfl⟩
    · exact ⟨_, rfl⟩
  obtain ⟨events, run⟩ := ends
  obtain ⟨-, other, foremost, same⟩ := switch_eq_ok quiet run
  have picked : next = other := congrArg Simulation.current same
  exact ⟨next, events, picked ▸ foremost, run⟩

/-- A switch of the running thread leaves the run queue clean, also where nobody is left to run. -/
theorem clean_switch {how : Switch} (running : s.queue.running = some s.current)
    (clean : s.queue.poisoned = false) : (switch how s).state.queue.poisoned = false := by
  have goesOn : ∀ next, Keeps (·.queue.poisoned = false)
      (award s.current how (s.contenders (some how)) next) := by
    intro next
    cases next with
    | none =>
      exact keeps_bind (keeps_inKernel _) fun _ => keeps_bind (keeps_log _) fun _ =>
        keeps_bind (fun _ => id) fun _ => keeps_collapse fun _ _ _ _ => id
    | some next =>
      dsimp only [award]
      split
      · exact keeps_bind (keeps_log _) fun _ => keeps_bind (fun _ => id) fun _ => fun _ => id
      · exact keeps_bind (fun _ => id) fun _ => fun _ => id
  rw [switch_run running]
  exact keeps_bind (keeps_inKernel _) goesOn (s.lined how) clean

/-- Whoever was picked runs. -/
theorem Housed.switched {how : Switch} (housed : Housed path (some how) s)
    (mem : next ∈ s.contenders (some how)) : Housed path none (s.switched how next) := by
  refine housed.perm rfl housed.clean ?_ fun _ => rfl
  have moved : ((s.contenders (some how)).erase next ++ [next]).Perm (s.contenders (some how)) :=
    List.perm_append_comm.trans (List.perm_cons_erase mem).symm
  exact moved.append_right _

/-! ### Steps -/

/-- A thread that strays was not in the table. -/
theorem Strays.absent (strays : s.Strays t) (arena : ThreadTable.Arena s.kernel.table) :
    s.kernel.table.contains t = false := by
  obtain ⟨-, -, -, adds, -⟩ := strays
  obtain ⟨-, full, -⟩ | ⟨_, ⟨⟩, gains⟩ := ThreadTable.spawn_eq_ok arena adds
  · cases full
  · exact gains.absent

/-- Nobody strays in a turn that does not fail. -/
theorem Intact.not_strays (intact : Intact s) (run : untilSwitch s = ⟨.ok how, s₁, events⟩)
    (t : ThreadId) : ¬ s.Strays t := by
  rintro ⟨idle, due, ranked, adds, unnamed⟩
  have standing := intact.2.resolve_left fun idle => nomatch idle.2.symm.trans due
  have quiet := intact.1.quiet
  obtain ⟨-, mid, _, shifts, -, spawns⟩ := performs_of_untilSwitch standing.has idle due nofun run
  rw [← shifts.kernel_eq] at quiet adds
  exact (named_of_spawn spawns quiet ranked adds).1 unnamed

/-- A failing turn moves nobody, but one who strays is in the table and nowhere. -/
theorem Housed.lingers (housed : Housed path none s) (lingers : Lingers s s')
    (arena : ThreadTable.Arena s.kernel.table) : Housed (path ++ [s]) none s' := by
  have same : s'.housed none = s.housed none := by
    unfold Simulation.housed contenders
    rw [lingers.queue, lingers.current, waiting_congr lingers.lists.queue]
  refine ⟨?_, ?_, same ▸ housed.nodup, fun t => ?_, fun t strayed => (lingers.live t).mpr ?_⟩
  · rw [lingers.queue, lingers.current]
    exact housed.running
  · rw [lingers.queue]
    exact housed.clean
  · have absent := fun strays : s.Strays t => strays.absent arena
    rw [same, housed.mem, lingers.live, strayed_append]
    constructor
    · rintro ⟨live, here⟩
      exact ⟨Or.inl live, fun strayed =>
        strayed.elim here fun strays => nomatch (absent strays).symm.trans live⟩
    · rintro ⟨live | strays, here⟩
      · exact ⟨live, fun strayed => here (Or.inl strayed)⟩
      · exact absurd (Or.inr strays) here
  · exact (strayed_append.mp strayed).imp_left (housed.strays t)

/-- Where nobody strays the path may go on. -/
theorem Housed.goesOn (housed : Housed path how s₁) (plain : ∀ t, ¬ s.Strays t) :
    Housed (path ++ [s]) how s₁ := by
  have same : ∀ t, Strayed (path ++ [s]) t ↔ Strayed path t := fun t => by
    rw [strayed_append, or_iff_left (plain t)]
  exact ⟨housed.running, housed.clean, housed.nodup, fun t => by rw [same]; exact housed.mem t,
    fun t strayed => housed.strays t ((same t).mp strayed)⟩

/-- Whoever gives up the processor is there. -/
theorem Intact.has_of_run {how : Switch} (intact : Intact s)
    (run : untilSwitch s = ⟨.ok (some how), s₁, events⟩) : s.Has s.current := by
  rcases intact.2 with idle | standing
  · rw [untilSwitch_of_idle idle] at run
    cases run
  · exact standing.has

/-- A step is its turn, and the switch that the turn asks for. -/
theorem step_of_turn {reported : List Event} (run : untilSwitch s = ⟨.ok how, s₁, events⟩)
    (dispatches : dispatch how s₁ = ⟨.ok (), s', reported⟩) : (step s).state = s' := by
  have ends : advance s = ⟨.ok (), s', events ++ reported⟩ := by
    rw [advance_eq, bind_run_ok run, dispatches]
  rw [step_of_sound (congrArg Run.outcome ends), ends]

/-- No fault leaves a step. -/
theorem Intact.step_ok (intact : Intact s) : (step s).outcome = .ok () := by
  have stepped := triple_step s intact
  rcases run : step s with ⟨fault | ⟨⟩, s', events⟩
  · rw [run] at stepped
    exact stepped.elim
  · rfl

/-- A step after which no failure is on record has not failed, nor has any before. -/
theorem Intact.sound (intact : Intact s) (unfailed : (step s).state.queue.failure = none) :
    s.queue.failure = none ∧ ∀ failure, ¬ s.Fails failure := by
  have sound : ∀ failure, ¬ s.Fails failure := fun failure fails =>
    nomatch unfailed.symm.trans (failure_of_fails intact.step_ok fails)
  exact ⟨(failure_of_sound intact.step_ok sound).symm.trans unfailed, sound⟩

section Step

variable (housed : Housed path none s) (grounded : Grounded settings s) (intact : Intact s)
include housed grounded intact

/-- Whoever is about to be made ready is not. -/
theorem Housed.fresh (t : ThreadId) (unblocks : s.Unblocks t) : t ∉ s.queue.ready := fun mem =>
  housed.not_contender_of_unblocks grounded intact.1.quiet intact.1.arena unblocks
    (List.mem_append_left _ mem)

/-- Nobody is made ready in a turn that fails. -/
theorem Housed.not_unblocks_of_fails (fails : (untilSwitch s).outcome = .error fault) :
    ¬ s.Unblocks t :=
  not_unblocks_of_cut intact (housed.fresh grounded intact) (fun _ mem => housed.live mem) fails

/-- At a switch everybody is still in one place. -/
theorem Housed.at_switch {how : Switch} (switches : s.Switches how s₁) :
    Housed path (some how) s₁ ∧ s₁.kernel.Quiet := by
  obtain ⟨events, run⟩ := switches
  have turn := intact.turn_of_run run
  exact ⟨housed.turn turn grounded intact.1.quiet intact.1.arena, turn.quiet intact.1.quiet⟩

/-- A step after which no failure is on record is a turn that fails, or a turn and its switch. -/
theorem Housed.stepped (unfailed : (step s).state.queue.failure = none) :
    (∃ fault, (untilSwitch s).outcome = .error fault ∧ Lingers s (step s).state) ∨
      Stepped s (step s).state := by
  rcases run : untilSwitch s with ⟨fault | how, s₁, events⟩
  · have fails : (untilSwitch s).outcome = .error fault := by rw [run]
    exact Or.inl ⟨fault, rfl, lingers_of_fails intact (housed.fresh grounded intact)
      (fun t mem => housed.live mem) fails unfailed⟩
  · refine Or.inr ?_
    cases how with
    | none =>
      have stays : dispatch none s₁ = ⟨.ok (), s₁, []⟩ := rfl
      rw [step_of_turn run stays]
      exact .goesOn run
    | some how =>
      obtain ⟨turned, quiet⟩ := housed.at_switch grounded intact ⟨events, run⟩
      have somebody : s₁.contenders (some how) ≠ [] := fun nobody =>
        (intact.sound unfailed).2 _
          (.deadlocked ⟨how, ⟨events, run⟩, turned.running, quiet.threads, nobody⟩)
      obtain ⟨next, reported, foremost, switches⟩ := turned.switch_ok quiet somebody
      have dispatches : dispatch (some how) s₁ = _ := switches
      rw [step_of_turn run dispatches]
      exact .switches run foremost

/-- Every step after which no failure is on record keeps everybody in one place, whatever fault it
meets. -/
theorem Housed.step (unfailed : (step s).state.queue.failure = none) :
    Housed (path ++ [s]) none (step s).state ∧ Grounded settings (step s).state := by
  have quiet := intact.1.quiet
  have arena := intact.1.arena
  obtain ⟨fault, -, lingers⟩ | stepped := housed.stepped grounded intact unfailed
  · exact ⟨housed.lingers lingers arena, grounded.lingers lingers⟩
  have turned : ∀ {how s₁ events}, untilSwitch s = ⟨.ok how, s₁, events⟩ →
      Housed (path ++ [s]) how s₁ ∧ Grounded settings s₁ := fun run =>
    have turn := intact.turn_of_run run
    ⟨(housed.turn turn grounded quiet arena).goesOn (intact.not_strays run), grounded.turn turn quiet⟩
  generalize (Simulation.step s).state = s' at stepped ⊢
  cases stepped with
  | goesOn run => exact turned run
  | switches run foremost =>
    have retains := (intact.turn_of_run run).retains
    exact ⟨(turned run).1.switched foremost.mem, (turned run).2.switched
      (retains.current ▸ retains.has _ (intact.has_of_run run))⟩

end Step

/-! ### Runs -/

/-- At first there is the main thread, and it runs. -/
theorem housed_start {main : ThreadId} {table : ThreadTable}
    (boots : settings.table (.empty 0) = ⟨.ok main, table, events⟩) :
    Housed [] none (settings.start script table main) := by
  have nobody : (settings.start script table main).kernel.waiting = [] := by
    refine List.flatMap_eq_nil_iff.mpr fun i _ => ?_
    unfold Kernel.queue Kernel.semaphore Kernel.semaphoreCell Settings.start
    rw [List.getD_eq_getElem?_getD, List.getElem?_map]
    cases (settings.counts ++ List.replicate settings.locks 1)[i]? with
    | none => rfl
    | some count => rfl
  have alone : (settings.start script table main).housed none = [main] := by
    unfold Simulation.housed
    rw [nobody]
    rfl
  refine ⟨rfl, rfl, ?_, fun t => ?_, fun t ⟨r, mem, _⟩ => absurd mem List.not_mem_nil⟩
  · rw [alone]
    exact List.nodup_singleton main
  · have unstrayed : ¬ Strayed [] t := fun ⟨r, mem, _⟩ => absurd mem List.not_mem_nil
    rw [alone, List.mem_singleton, and_iff_left unstrayed]
    exact (live_of_boots boots).symm

/-- As long as no failure is on record everybody is in one place. -/
theorem Journey.housed (fits : settings.Fits script) (journey : Journey settings script path s)
    (unfailed : s.queue.failure = none) : Housed path none s ∧ Grounded settings s := by
  induction journey with
  | start boots => exact ⟨housed_start boots, grounded_start fits⟩
  | step before unfinished ih =>
    obtain ⟨housed, grounded⟩ := ih (before.intact.sound unfailed).1
    exact housed.step grounded before.intact unfailed

section Housed

variable (housed : Housed path none s) (grounded : Grounded settings s) (intact : Intact s)
include housed grounded intact

/-- No fault occurs while the run queue is in use, also in a step that records a failure. -/
theorem Housed.clean_step : (Simulation.step s).state.queue.poisoned = false := by
  refine kept_by_step (P := (·.queue.poisoned = false)) (fun _ _ _ _ => id) (fun _ _ => id) ?_
  rw [advance_eq]
  rcases run : untilSwitch s with ⟨fault | how, s₁, events⟩
  · have lingers := lingers_of_cut intact (housed.fresh grounded intact)
      (fun t mem => housed.live mem) (congrArg Run.outcome run)
    rw [run] at lingers
    rw [bind_run_error run]
    exact (congrArg RunQueue.poisoned lingers.queue).trans housed.clean
  · rw [bind_run_ok run]
    cases how with
    | none =>
      have turned := housed.turn (intact.turn_of_run run) grounded intact.1.quiet intact.1.arena
      exact turned.clean
    | some how =>
      obtain ⟨turned, -⟩ := housed.at_switch grounded intact ⟨events, run⟩
      exact clean_switch turned.running turned.clean

/-- A deadlock is recorded just where a thread blocks or exits and all others are in wait lists. -/
theorem Housed.deadlocked_iff (unfailed : s.queue.failure = none) :
    (∃ live, (Simulation.step s).state.queue.failure = some (.deadlock live)) ↔
      ∃ how s₁, s.Switches how s₁ ∧ (how = .block ∨ how = .exit) ∧
        ∀ t, s₁.kernel.table.contains t = true → ¬ Strayed path t → ∃ x, t ∈ s₁.kernel.queue x := by
  rw [Simulation.deadlocked_iff unfailed fun how s₁ switches => by
    obtain ⟨turned, quiet⟩ := housed.at_switch grounded intact switches
    exact ⟨turned.running, quiet.threads⟩]
  refine exists_congr fun how => exists_congr fun s₁ => and_congr_right fun switches => ?_
  rw [(housed.at_switch grounded intact switches).1.nobody_iff]
  refine ⟨fun waiting => ⟨?_, waiting⟩, And.right⟩
  have nobody := (housed.at_switch grounded intact switches).1.nobody_iff.mpr waiting
  cases how with
  | yield => exact absurd nobody (List.append_ne_nil_of_right_ne_nil _ (List.cons_ne_nil _ _))
  | block => exact Or.inl rfl
  | exit => exact Or.inr rfl

end Housed

/-- Threads are conserved as long as no failure is on record, whatever faults are caught. Each live
thread that has not strayed runs, or is ready, or is in one wait list, and is there once; nobody else
is anywhere. So nobody is made ready who is ready or running, no fault occurs while the run queue is in
use, only the running thread gives up the processor, and a deadlock is recorded just where a thread
blocks or exits and every thread that is then live and has not strayed is in a wait list. -/
theorem threads_conserved (fits : settings.Fits script) (journey : Journey settings script path s)
    (unfailed : s.queue.failure = none) :
    s.places.Nodup ∧
      (∀ t, t ∈ s.places ↔ s.kernel.table.contains t = true ∧ ¬ Strayed path t) ∧
      (∀ t, s.Unblocks t → t ∉ s.queue.ready ∧ s.queue.running ≠ some t) ∧
      (step s).state.queue.poisoned = false ∧
      (∀ how s₁, s.Switches how s₁ → s₁.queue.running = some s₁.current) ∧
      ((∃ live, (step s).state.queue.failure = some (.deadlock live)) ↔
        ∃ how s₁, s.Switches how s₁ ∧ (how = .block ∨ how = .exit) ∧
          ∀ t, s₁.kernel.table.contains t = true → ¬ Strayed path t →
            ∃ x, t ∈ s₁.kernel.queue x) := by
  obtain ⟨housed, grounded⟩ := journey.housed fits unfailed
  have intact := journey.intact
  refine ⟨housed.places_perm.nodup_iff.mpr housed.nodup, fun t => ?_, fun t unblocks => ?_,
    housed.clean_step grounded intact, fun how s₁ switches =>
      (housed.at_switch grounded intact switches).1.running,
    housed.deadlocked_iff grounded intact unfailed⟩
  · rw [housed.places_perm.mem_iff]
    exact housed.mem t
  · have apart := housed.not_contender_of_unblocks grounded intact.1.quiet intact.1.arena unblocks
    unfold contenders at apart
    rw [List.mem_append, List.mem_singleton, not_or] at apart
    refine ⟨apart.1, fun running => apart.2 ?_⟩
    exact Option.some.inj (running.symm.trans housed.running)

/-- In a famine each thread is in one place, and the next step makes all of them wait. -/
theorem famine_ends_in_deadlock : ∃ path s, Journey famine famished path s ∧
    s.queue.failure = none ∧ s.places = [⟨0, 0⟩, ⟨1, 0⟩] ∧ s.places.Nodup ∧
    ∃ how s₁, s.Switches how s₁ ∧ (how = .block ∨ how = .exit) ∧
      ∀ t, s₁.kernel.table.contains t = true → ¬ Strayed path t →
        ∃ x, t ∈ s₁.kernel.queue x := by
  have plays : (playJourney 11 []
      (famine.start famished (famine.table (.empty 0)).state ⟨0, 0⟩)).map (fun played =>
      decide (played.2.queue.failure = none ∧ played.2.places = [⟨0, 0⟩, ⟨1, 0⟩] ∧
        (step played.2).state.queue.failure.any Failure.isDeadlock = true)) = some true := by
    decide +kernel
  obtain ⟨⟨path, s⟩, played, facts⟩ := Option.map_eq_some_iff.mp plays
  obtain ⟨unfailed, places, dead⟩ := of_decide_eq_true facts
  have journey : Journey famine famished path s := Journey.play (.start rfl) played
  have conserved := threads_conserved famine_fits journey unfailed
  exact ⟨path, s, journey, unfailed, places, conserved.1,
    conserved.2.2.2.2.2.mp (Failure.exists_of_isDeadlock dead)⟩

/-- A thread whose name cannot be given to it, and the count of the threads after that. -/
def namelessly : List Action := [.attempt [.spawn "a\x00b" 10 [] none], .threads]

/-- The main thread catches the fault of the creation, and the run ends well. The thread is in the
table, and nowhere else. -/
theorem stray_is_nowhere : (run {} namelessly).outcome = .ok () ∧
    ∃ path s, Journey {} namelessly path s ∧ s.queue.failure = none ∧
      s.kernel.table.contains ⟨1, 0⟩ = true ∧ ⟨1, 0⟩ ∉ s.places := by
  refine ⟨by decide +kernel, ?_⟩
  have plays : (playJourney 4 []
      (Settings.start {} namelessly (Settings.table {} (.empty 0)).state ⟨0, 0⟩)).map (fun played =>
      decide (played.2.queue.failure = none ∧ played.2.kernel.table.contains ⟨1, 0⟩ = true ∧
        ⟨1, 0⟩ ∉ played.2.places)) = some true := by
    decide +kernel
  obtain ⟨⟨path, s⟩, played, facts⟩ := Option.map_eq_some_iff.mp plays
  exact ⟨path, s, Journey.play (.start rfl) played, of_decide_eq_true facts⟩

end KernelSync.Simulation
