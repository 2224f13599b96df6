import KernelSync.Proofs.Deadlocks

/-!
What a step does to the course of a simulation. A step fails if it ends the script of a thread other
than the main one in a fault, or leaves nobody to run (`Fails`); it may also end the script of the
main thread, which meets the failures of others as faults (`MainEnds`). The failure is recorded if it
is the first (`failure_of_fails`), without one the record stays (`failure_of_sound`), and nothing but
the end of its script ends the main thread (`mainEnds_iff`).
-/

namespace KernelSync.Simulation

open Stretch hiding pure bind

variable {s s' s₁ : Simulation} {id u : ThreadId} {events : List Event} {fault : Fault}

/-! ### Faults that leave a script -/

/-- The fault in which a script ends that a fault goes through: none if it is caught on the way, and
another if a disguise shows in its place. -/
def uncaught (fault : Fault) : List Pending → Option Fault
  | [] => some fault
  | .attempt :: _ => none
  | .disguise d :: _ => some d.shown.1
  | _ :: script => uncaught fault script

theorem conclude_touches {action : String} {reply : Reply} {result : Unit}
    (run : conclude action reply s = ⟨.ok result, s', events⟩) :
    ∃ kernel, s' = { s with kernel } := by
  obtain ⟨t, _, _, _, ⟨⟩, rest, -⟩ := bind_eq_ok.mp run
  obtain ⟨priority, mid, _, _, asks, ⟨⟩, -⟩ := bind_eq_ok.mp rest
  obtain ⟨kernel, -, is⟩ := inKernel_eq_ok.mp asks
  exact ⟨kernel, is⟩

theorem leaveHandler_touches {saved : Nat} {result : Unit}
    (run : leaveHandler saved s = ⟨.ok result, s', events⟩) : ∃ kernel, s' = { s with kernel } := by
  obtain ⟨⟨⟩, _, _, _, ⟨⟩, ⟨⟩, -⟩ := bind_eq_ok.mp run
  exact ⟨_, rfl⟩

/-- A script that is unwound to its end leaves the fault that is not caught in it. -/
theorem unwindScript_eq_ok {script : List Pending}
    {result : List Pending × Option String × Option Fault}
    (run : unwindScript fault script s = ⟨.ok result, s', events⟩) :
    result.2.2 = uncaught fault script ∧ ∃ kernel, s' = { s with kernel } := by
  induction script generalizing s events with
  | nil =>
    cases run
    exact ⟨rfl, _, rfl⟩
  | cons pending script ih =>
    cases pending with
    | attempt =>
      obtain ⟨⟨⟩, mid, _, _, concludes, ⟨⟩, -⟩ := bind_eq_ok.mp run
      exact ⟨rfl, conclude_touches concludes⟩
    | handler saved =>
      obtain ⟨⟨⟩, mid, _, _, leaves, rest, -⟩ := bind_eq_ok.mp run
      obtain ⟨kernel, rfl⟩ := leaveHandler_touches leaves
      obtain ⟨is, kernel', same⟩ := ih rest
      exact ⟨is, kernel', same⟩
    | remove saved =>
      obtain ⟨⟨⟩, mid, _, _, leaves, rest, -⟩ := bind_eq_ok.mp run
      obtain ⟨kernel, -, rfl⟩ := inKernel_eq_ok.mp leaves
      obtain ⟨is, kernel', same⟩ := ih rest
      exact ⟨is, kernel', same⟩
    | disguise d =>
      cases run
      exact ⟨rfl, _, rfl⟩
    | _ => exact ih run

/-- The main thread, and the script of `u`, are as they were. -/
structure Spares (u : ThreadId) (s s' : Simulation) : Prop where
  main : s'.main = s.main
  script : (s'.thread u).script = (s.thread u).script

theorem Spares.trans {s₂ : Simulation} (first : Spares u s s₁) (second : Spares u s₁ s₂) :
    Spares u s s₂ :=
  ⟨second.main.trans first.main, second.script.trans first.script⟩

/-- What is done to each thread leaves the handles, and the script of `u`. -/
theorem spares_of_map {f : SimThread → SimThread} (threads : s'.threads = s.threads.map f)
    (main : s'.main = s.main) (keeps : ∀ t, (f t).id = t.id)
    (same : ∀ t ∈ s.threads, t.id = u → (f t).script = t.script) : Spares u s s' := by
  refine ⟨main, ?_⟩
  unfold thread
  rw [threads, List.find?_map]
  have search : ((fun t => decide (t.id = u)) ∘ f) = fun t => decide (t.id = u) := by
    funext t
    simp only [Function.comp_apply, keeps]
  rw [search]
  cases found : s.threads.find? fun t => t.id = u with
  | none => rfl
  | some t =>
    have is := List.find?_some found
    exact same t (List.mem_of_find?_eq_some found) (of_decide_eq_true is)

/-- What is done to the thread `id` leaves the script of another one. -/
theorem spares_of_modify {f : SimThread → SimThread}
    (threads : s'.threads = (s.modifyThread id f).threads) (main : s'.main = s.main)
    (keeps : ∀ t, (f t).id = t.id) (apart : s.Has id → id ≠ u) : Spares u s s' := by
  refine spares_of_map threads main (fun t => ?_) fun t mem is => ?_
  · split
    · exact keeps t
    · rfl
  · rw [if_neg fun here => apart ⟨t, mem, here⟩ (here.symm.trans is)]

/-- A thread that is made current has its script as it was. -/
theorem spares_resume : Spares u s (s.resume id) := by
  refine spares_of_map rfl rfl (fun t => ?_) fun t _ _ => ?_ <;> split <;> rfl

/-- Unwinding the current thread leaves the fault that its script does not catch. -/
theorem unwind_eq_ok {left : Option Fault} (run : unwind fault s = ⟨.ok left, s', events⟩) :
    left = uncaught fault s.currentThread.script ∧ s'.course = s.course ∧ s'.main = s.main ∧
      (s.currentThread.id ≠ u → Spares u s s') := by
  have course : (unwind fault s).state.course = s.course :=
    keeps_unwind (P := (· = s.course)) fault s rfl
  rw [run] at course
  obtain ⟨t, _, _, _, ⟨⟩, rest, -⟩ := bind_eq_ok.mp run
  obtain ⟨⟨⟩, mid, _, _, leaves, rest, -⟩ := bind_eq_ok.mp rest
  obtain ⟨kernel, -, rfl⟩ := inKernel_eq_ok.mp leaves
  obtain ⟨⟨script, escaped, gives⟩, mid, _, _, unwinds, rest, -⟩ := bind_eq_ok.mp rest
  obtain ⟨is, kernel', rfl⟩ := unwindScript_eq_ok unwinds
  obtain ⟨⟨⟩, _, _, _, ⟨⟩, ⟨⟩, -⟩ := bind_eq_ok.mp rest
  refine ⟨is, course, rfl, fun other => ?_⟩
  exact spares_of_modify rfl rfl (fun _ => rfl) fun has => thread_id has ▸ other

/-! ### What comes of a fault -/

/-- To give up a thread leaves the others. -/
theorem retire_run {t : SimThread} (other : t.id ≠ u) :
    ∃ s' events, retire t s = ⟨.ok (), s', events⟩ ∧ Spares u s s' := by
  unfold retire
  rw [bind_run_ok (update_run _ _)]
  have emptied : Spares u s (s.modifyThread t.id ({ · with call := [], script := [] })) :=
    spares_of_modify rfl rfl (fun _ => rfl) fun _ => other
  cases disguise? t.script with
  | none => exact ⟨_, _, rfl, emptied⟩
  | some d =>
    exact ⟨_, _, rfl, emptied.trans (spares_of_modify rfl rfl (fun _ => rfl) fun _ => other)⟩

theorem retireAll_run {threads : List SimThread} (others : ∀ t ∈ threads, t.id ≠ u) :
    ∃ s' events, retireAll threads s = ⟨.ok (), s', events⟩ ∧ Spares u s s' := by
  induction threads generalizing s with
  | nil => exact ⟨s, [], rfl, rfl, rfl⟩
  | cons t rest ih =>
    obtain ⟨mid, _, gives, first⟩ := retire_run (s := s) (others t List.mem_cons_self)
    obtain ⟨s', _, goesOn, second⟩ := ih (s := mid) fun t mem => others t (List.mem_cons_of_mem _ mem)
    exact ⟨s', _, by rw [retireAll, bind_run_ok gives, goesOn], first.trans second⟩

/-- To give up the others leaves the main thread. -/
theorem retireOthers_run :
    ∃ s' events, retireOthers s = ⟨.ok (), s', events⟩ ∧ Spares s.main s s' := by
  have others : ∀ t ∈ s.threads.filter fun t => t.id ≠ s.main, t.id ≠ s.main :=
    fun t mem => of_decide_eq_true (List.mem_filter.mp mem).2
  obtain ⟨s', _, retires, spares⟩ := retireAll_run (s := s) others
  exact ⟨s', _, by rw [retireOthers, bind_run_ok (read_run _ _), retires], spares⟩

/-- After a failure the main thread is current, with its script as it was, and meets the failure. -/
theorem collapse_run {first : Failure} (failed : s.queue.failure = some first) :
    (collapse s).outcome = .error (.ended first.text) ∧ (collapse s).state.current = s.main ∧
      Spares s.main s (collapse s).state := by
  obtain ⟨mid, _, retires, spares⟩ := retireOthers_run (s := s)
  have still : (retireOthers s).state.queue.failure = some first :=
    keeps_retireOthers (P := (·.queue.failure = some first))
      (fun c _ _ _ failed => c.failed_stays failed _) s failed
  rw [retires] at still
  have meets : endedFault (mid.resume mid.main) = .ended first.text := by
    unfold endedFault
    rw [show (mid.resume mid.main).queue = mid.queue from rfl, still]
    rfl
  rw [collapse, bind_run_ok retires, bind_run_ok (update_run _ _), bind_run_ok (read_run _ _),
    meets]
  exact ⟨rfl, spares.main, spares.trans spares_resume⟩

/-- A second failure changes nothing. -/
theorem Course.fail_failed {c : Course} {first : Failure} (failed : c.queue.failure = some first)
    (nobody : c.queue.running = none) (failure : Failure) : c.fail failure = c := by
  rcases c with ⟨⟨running, ready, recorded, poisoned⟩, result⟩
  cases failed
  cases nobody
  rfl

/-- The simulation in which a failure has been recorded, unless it was not the first. -/
def failing (s : Simulation) (failure : Failure) : Simulation :=
  { s with queue := (s.course.fail failure).queue }

@[simp] theorem main_failing {failure : Failure} : (s.failing failure).main = s.main := rfl

@[simp] theorem thread_failing {failure : Failure} : (s.failing failure).thread u = s.thread u := rfl

/-- The course after the main thread has met a fault: uncaught, it ends the thread. -/
def afterMain (s : Simulation) (fault : Fault) : Course :=
  match uncaught fault (s.thread s.main).script with
  | none => s.course
  | some last => { s.course with result := some (.error last) }

theorem afterMain_congr (same : s₁.course = s.course) (spares : Spares s.main s s₁) :
    s₁.afterMain fault = s.afterMain fault := by
  unfold afterMain
  rw [spares.main, spares.script, same]

/-- The course after the running thread has met a fault. Uncaught, it ends the main thread; of any
other thread it is a failure, and the main thread meets the first one as a fault. -/
def afterFault (s : Simulation) (fault : Fault) : Course :=
  match uncaught fault s.currentThread.script with
  | none => s.course
  | some left =>
      if s.currentThread.id = s.main then { s.course with result := some (.error left) }
      else
        let failure := Failure.faulted s.currentThread.id s.currentThread.name left
        (s.failing failure).afterMain (.ended (s.queue.failure.getD failure).text)

theorem endWith_course {left : Option Fault} : (endWith left s).state.course =
    match left with
    | none => s.course
    | some last => { s.course with result := some (.error last) } := by
  cases left <;> rfl

/-- The main thread meets the failure that has been recorded. -/
def meetFailure : Stretch Simulation Unit := do
  match ← Stretch.catching collapse with
  | .ok () => pure ()
  | .error fault => endWith (← unwind fault)

theorem meetFailure_course {first : Failure} (failed : s.queue.failure = some first)
    (nobody : s.queue.running = none) (unwinds : (meetFailure s).outcome = .ok ()) :
    (meetFailure s).state.course = s.afterMain (.ended first.text) := by
  obtain ⟨ends, current, spares⟩ := collapse_run failed
  have same : (collapse s).state.course = s.course := by
    refine keeps_collapse (P := (· = s.course)) (fun c id name fault is => ?_) s rfl
    rw [is]
    exact s.course.fail_failed failed nobody _
  have caught : catching collapse s =
      ⟨.ok (.error (.ended first.text)), (collapse s).state, (collapse s).events⟩ := by
    rw [← ends]
    rfl
  unfold meetFailure at unwinds ⊢
  rw [bind_run_ok caught] at unwinds ⊢
  generalize (collapse s).state = s₁ at current spares same unwinds ⊢
  have script : s₁.currentThread.script = (s.thread s.main).script := by
    unfold currentThread
    rw [current, spares.script]
  dsimp only at unwinds ⊢
  rcases ran : unwind (.ended first.text) s₁ with ⟨error | left, s₂, before⟩
  · rw [bind_run_error ran] at unwinds
    cases unwinds
  · obtain ⟨leaves, still, -⟩ := unwind_eq_ok (u := s.main) ran
    rw [bind_run_ok ran]
    dsimp only
    rw [endWith_course, leaves, script, still, same]
    rfl

/-- If no unwinding is cut short, this is the course that is taken. -/
theorem meet_course (unwinds : (meet fault s).outcome = .ok ()) :
    (meet fault s).state.course = s.afterFault fault := by
  unfold meet at unwinds ⊢
  rw [bind_run_ok (read_run _ _)] at unwinds ⊢
  rcases ran : unwind fault s with ⟨error | left, s₁, before⟩
  · rw [bind_run_error ran] at unwinds
    cases unwinds
  obtain ⟨leaves, same, main, spares⟩ := unwind_eq_ok (u := s.main) ran
  rw [bind_run_ok ran] at unwinds ⊢
  unfold afterFault
  rw [← leaves]
  cases left with
  | none => exact same
  | some left =>
    dsimp only at unwinds ⊢
    rw [bind_run_ok (read_run _ _), main] at unwinds ⊢
    by_cases here : s.currentThread.id = s.main
    · rw [if_pos here, if_pos here]
      exact endWith_course.trans (by rw [same])
    · rw [if_neg here] at unwinds
      rw [if_neg here, if_neg here]
      generalize named : Failure.faulted s.currentThread.id s.currentThread.name left = failure
      have records : recordFault s.currentThread left s₁ =
          ⟨.ok (), s₁.failing failure, [.log (.simulationFailed failure.text)]⟩ := by
        rw [← named]
        rfl
      rw [bind_run_ok records] at unwinds ⊢
      have failed : (s₁.failing failure).queue.failure = some (s.queue.failure.getD failure) := by
        show (s₁.course.fail failure).queue.failure = _
        rw [same]
        exact s.course.failure_fail
      have aside := spares here
      refine (meetFailure_course failed rfl unwinds).trans (afterMain_congr ?_ ?_)
      · show s₁.course.fail failure = s.course.fail failure
        rw [same]
      · exact ⟨aside.main, aside.script⟩

/-! ### Steps that fail -/

/-- The step comes to a switch that leaves nobody to run. -/
def Strands (s s₁ : Simulation) : Prop := ∃ how, s.Switches how s₁ ∧ s₁.Stranded how

/-- A fault ends the running thread, which is not the main one, in the midst of its script or of its
exit. -/
inductive Falls (s : Simulation) : Simulation → Failure → Prop where
  | uncaught {fault left : Fault} {s₁ : Simulation} {events : List Event}
      (faults : advance s = ⟨.error fault, s₁, events⟩) (spawned : s₁.currentThread.id ≠ s₁.main)
      (leaves : uncaught fault s₁.currentThread.script = some left) :
      Falls s s₁ (.faulted s₁.currentThread.id s₁.currentThread.name left)

/-- The step fails: nobody is left to run, or a thread other than the main one falls by itself. -/
inductive Fails (s : Simulation) : Failure → Prop where
  | deadlocked {s₁ : Simulation} (strands : s.Strands s₁) :
      Fails s (.deadlock s₁.kernel.table.entries)
  | faulted {s₁ : Simulation} {failure : Failure} (falls : s.Falls s₁ failure)
      (own : ∀ s', ¬ s.Strands s') : Fails s failure

/-- The step ends the script of the main thread: the thread returns, or does not catch a fault of its
own or the fault as which it meets the failure of another. -/
inductive MainEnds (s : Simulation) : Except Fault Unit → Prop where
  | returned {rest : List Pending} (idle : s.currentThread.call = [])
      (due : s.currentThread.script = .returned :: rest) : MainEnds s (.ok ())
  | faulted {fault last : Fault} {s₁ : Simulation} {events : List Event}
      (faults : advance s = ⟨.error fault, s₁, events⟩) (main : s₁.currentThread.id = s₁.main)
      (leaves : uncaught fault s₁.currentThread.script = some last) : MainEnds s (.error last)
  | failed {s₁ : Simulation} {failure : Failure} {last : Fault} (falls : s.Falls s₁ failure)
      (leaves : uncaught (.ended (s₁.queue.failure.getD failure).text)
        (s₁.thread s₁.main).script = some last) : MainEnds s (.error last)

/-! ### The failure on record -/

theorem failure_of_strands (strands : s.Strands s₁) : (advance s).state.queue.failure =
    some (s.queue.failure.getD (.deadlock s₁.kernel.table.entries)) := by
  obtain ⟨how, ⟨events, turns⟩, stranded⟩ := strands
  have still : (untilSwitch s).state.queue.failure = s.queue.failure :=
    keeps_failure_untilSwitch _ s rfl
  rw [turns] at still
  rw [advance_eq, bind_run_ok turns, ← still]
  exact switch_of_stranded stranded

theorem failure_of_unstranded (own : ∀ s', ¬ s.Strands s') :
    (advance s).state.queue.failure = s.queue.failure := by
  have still : (untilSwitch s).state.queue.failure = s.queue.failure :=
    keeps_failure_untilSwitch _ s rfl
  rw [advance_eq]
  rcases turns : untilSwitch s with ⟨fault | how, s₁, events⟩
  · rw [turns] at still
    rw [bind_run_error turns]
    exact still
  · rw [turns] at still
    rw [bind_run_ok turns]
    cases how with
    | none => exact still
    | some how =>
      refine Eq.trans ?_ still
      show (switch how s₁).state.queue.failure = s₁.queue.failure
      by_cases running : s₁.queue.running = some s₁.current
      · exact (switch_of_unstranded running fun stranded => own s₁ ⟨how, ⟨events, turns⟩, stranded⟩).1
      · unfold switch
        rw [bind_run_ok (read_run _ _), bind_run_ok (read_run _ _), if_pos running]
        rfl

/-- The course of a step in which no unwinding is cut short. -/
theorem step_course (unwinds : (step s).outcome = .ok ()) : (step s).state.course =
    match (advance s).outcome with
    | .ok () => (advance s).state.course
    | .error fault => (advance s).state.afterFault fault := by
  have caught : catching advance s =
      ⟨.ok (advance s).outcome, (advance s).state, (advance s).events⟩ := rfl
  unfold step at unwinds ⊢
  rw [bind_run_ok caught] at unwinds ⊢
  cases ends : (advance s).outcome with
  | ok _ => rfl
  | error fault =>
    rw [ends] at unwinds
    exact meet_course unwinds

@[simp] theorem queue_afterMain : (s.afterMain fault).queue = s.queue := by
  unfold afterMain
  split <;> rfl

/-- A failure is recorded if it is the first. -/
theorem failure_of_fails {failure : Failure} (unwinds : (step s).outcome = .ok ())
    (fails : s.Fails failure) :
    (step s).state.queue.failure = some (s.queue.failure.getD failure) := by
  cases fails with
  | deadlocked strands =>
    exact kept_by_step (P := (·.queue.failure = some _))
      (fun c _ _ _ failed => c.failed_stays failed _) (fun _ _ holds => holds)
      (failure_of_strands strands)
  | faulted falls own =>
    have still := failure_of_unstranded own
    have course := congrArg (·.queue.failure) (step_course unwinds)
    cases falls with
    | uncaught faults spawned leaves =>
      rw [faults] at still course
      dsimp only at still course
      rw [← still]
      refine course.trans ?_
      unfold afterFault
      rw [leaves]
      dsimp only
      rw [if_neg spawned, queue_afterMain]
      exact Course.failure_fail

/-- Without a failure the record stays as it is. -/
theorem failure_of_sound (unwinds : (step s).outcome = .ok ())
    (sound : ∀ failure, ¬ s.Fails failure) :
    (step s).state.queue.failure = s.queue.failure := by
  have own : ∀ s', ¬ s.Strands s' := fun s' strands => sound _ (.deadlocked strands)
  have still := failure_of_unstranded own
  have course := congrArg (·.queue.failure) (step_course unwinds)
  rcases ran : advance s with ⟨fault | ⟨⟩, s₁, events⟩
  · rw [ran] at still course
    dsimp only at still course
    rw [← still]
    refine course.trans ?_
    unfold afterFault
    cases leaves : uncaught fault s₁.currentThread.script with
    | none => rfl
    | some left =>
      dsimp only
      split
      · rfl
      · rename_i spawned
        exact absurd (.faulted (.uncaught ran spawned leaves) own) (sound _)
  · rw [ran] at still course
    exact course.trans still

/-! ### The end of the main thread -/

theorem keeps_result_switch (result : Option (Except Fault Unit)) (how : Switch) :
    Keeps (·.result = result) (switch how) := by
  refine keeps_bind (keeps_read _) fun me => keeps_bind (keeps_read _) fun queue => ?_
  split
  · exact fun _ holds => holds
  · refine keeps_bind (fun _ holds => holds) fun _ => keeps_bind (keeps_inKernel _) fun next => ?_
    cases next with
    | none =>
      exact keeps_bind (keeps_inKernel _) fun _ => keeps_bind (keeps_log _) fun _ =>
        keeps_bind (fun _ holds => holds) fun _ => keeps_collapse fun _ _ _ _ holds => holds
    | some next =>
      dsimp only
      split
      · exact keeps_bind (keeps_log _) fun _ => keeps_bind (fun _ holds => holds) fun _ =>
          keeps_update fun _ => rfl
      · exact keeps_bind (fun _ holds => holds) fun _ => keeps_update fun _ => rfl

/-- The main thread returns where its script is at its end. -/
theorem advance_returned {rest : List Pending} (idle : s.currentThread.call = [])
    (due : s.currentThread.script = .returned :: rest) :
    (advance s).outcome = .ok () ∧ (advance s).state.result = some (.ok ()) := by
  unfold advance
  rw [bind_run_ok (read_run _ _), idle, due]
  exact ⟨rfl, rfl⟩

/-- Nothing else ends the main thread before a fault is met. -/
theorem result_of_advance
    (goesOn : ∀ rest, s.currentThread.call = [] → s.currentThread.script ≠ .returned :: rest) :
    (advance s).state.result = s.result := by
  have unblocks : ∀ id, Keeps (·.result = s.result) (unblock id) :=
    keeps_unblock fun _ _ _ holds => holds
  have still : (untilSwitch s).state.result = s.result := by
    unfold untilSwitch
    rw [bind_run_ok (read_run _ _)]
    cases call : s.currentThread.call with
    | nil =>
      cases due : s.currentThread.script with
      | nil => rfl
      | cons pending rest =>
        have kept : Keeps (·.result = s.result) (proceedUntil pending) :=
          keeps_proceedUntil (fun _ _ _ _ _ _ => keeps_spawn unblocks _ _ _ _)
            fun returns => absurd (returns ▸ due) (goesOn rest call)
        exact kept (s.modifyCurrent fun t => { t with script := rest }) rfl
    | cons head frames =>
      exact keeps_advanceCallUntil unblocks _ _ s rfl
  rw [advance_eq]
  rcases turns : untilSwitch s with ⟨fault | how, s₁, events⟩
  · rw [turns] at still
    rw [bind_run_error turns]
    exact still
  · rw [turns] at still
    rw [bind_run_ok turns]
    cases how with
    | none => exact still
    | some how => exact keeps_result_switch s.result how s₁ still

/-- A fault that ends the main thread is met by it, or comes from a thread that falls. -/
theorem mainEnds_of_result {last : Except Fault Unit} (faults : advance s = ⟨.error fault, s₁, events⟩)
    (goesOn : s₁.result = none) (ended : (s₁.afterFault fault).result = some last) :
    s.MainEnds last := by
  unfold afterFault at ended
  cases leaves : uncaught fault s₁.currentThread.script with
  | none =>
    rw [leaves] at ended
    exact nomatch goesOn.symm.trans ended
  | some left =>
    rw [leaves] at ended
    dsimp only at ended
    split at ended
    · rename_i main
      cases ended
      exact .faulted faults main leaves
    · rename_i spawned
      unfold afterMain at ended
      split at ended
      · exact nomatch goesOn.symm.trans ended
      · rename_i met
        cases ended
        exact .failed (.uncaught faults spawned leaves) met

theorem result_of_mainEnds {last : Except Fault Unit} (faults : advance s = ⟨.error fault, s₁, events⟩)
    (ends : s.MainEnds last) : (s₁.afterFault fault).result = some last := by
  unfold afterFault
  cases ends with
  | returned idle due =>
    have fine := (advance_returned idle due).1
    rw [faults] at fine
    cases fine
  | faulted faults' main leaves =>
    cases faults.symm.trans faults'
    rw [leaves]
    dsimp only
    rw [if_pos main]
  | failed falls met =>
    cases falls with
    | uncaught faults' spawned leaves =>
      cases faults.symm.trans faults'
      rw [leaves]
      dsimp only
      rw [if_neg spawned]
      unfold afterMain
      rw [main_failing, thread_failing, met]

/-- The main thread has ended just if the step ends it. -/
theorem mainEnds_iff {last : Except Fault Unit} (unwinds : (step s).outcome = .ok ())
    (goesOn : s.result = none) : (step s).state.result = some last ↔ s.MainEnds last := by
  have result : (step s).state.result = _ := congrArg Course.result (step_course unwinds)
  rw [result]
  by_cases returns : ∃ rest, s.currentThread.call = [] ∧ s.currentThread.script = .returned :: rest
  · obtain ⟨rest, idle, due⟩ := returns
    obtain ⟨ends, returned⟩ := advance_returned idle due
    rw [ends]
    refine ⟨fun is => ?_, fun main => ?_⟩
    · cases returned.symm.trans is
      exact .returned idle due
    · cases main with
      | returned => exact returned
      | faulted faults =>
        rw [faults] at ends
        cases ends
      | failed falls =>
        cases falls with
        | uncaught faults =>
          rw [faults] at ends
          cases ends
  · have still := result_of_advance (s := s) fun rest idle due => returns ⟨rest, idle, due⟩
    rw [goesOn] at still
    rcases ran : advance s with ⟨fault | ⟨⟩, s₁, events⟩
    · rw [ran] at still
      exact ⟨mainEnds_of_result ran still, result_of_mainEnds ran⟩
    · rw [ran] at still
      refine ⟨fun is => (nomatch still.symm.trans is), fun main => ?_⟩
      cases main with
      | returned idle due => exact absurd ⟨_, idle, due⟩ returns
      | faulted faults => cases ran.symm.trans faults
      | failed falls =>
        cases falls with
        | uncaught faults => cases ran.symm.trans faults

end KernelSync.Simulation
