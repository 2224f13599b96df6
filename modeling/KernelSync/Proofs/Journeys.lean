import KernelSync.Proofs.OpenSections

/-!
Runs of a simulation through all faults. A step may end in a fault, which the running thread catches
or which ends it. At every step call and script of each thread tell what it has yet to leave
(`Journey.intact`): what a fault unwinds leaves the sections and the handler that it was in, innermost
first. No step ends in a fault of its own, and none accesses a cell during an access to it.
-/

namespace KernelSync.Simulation

open Stretch hiding pure bind
open Kernel ThreadTable

variable {α : Type} {s s' : Simulation} {t : SimThread} {id u : ThreadId} {depths : List Nat}
  {handlers saved : Nat} {pending : Pending} {script : List Pending} {fault : Fault}
  {list : List ThreadId}

/-! ### Dispatch -/

section Intact

variable (intact : Intact s)
include intact

theorem Intact.aside (kernel : s'.kernel = s.kernel) (threads : s'.threads = s.threads)
    (current : s'.current = s.current) : Intact s' := by
  have same : s'.currentThread = s.currentThread := by
    unfold currentThread Simulation.thread
    rw [threads, current]
  refine ⟨intact.1.aside kernel threads current, ?_⟩
  rw [same]
  exact intact.2.imp_right fun standing => standing.aside kernel threads current

/-- Threads may be given up, and may change where it does not matter. -/
theorem Intact.modifyThread {f : SimThread → SimThread} (keeps : ∀ t, (f t).id = t.id)
    (mild : ∀ t, (f t).Idle ∨
      (f t).call = t.call ∧ (f t).script = t.script ∧ (f t).registers = t.registers) :
    Intact (s.modifyThread id f) := by
  have threads : ∀ u, ((s.modifyThread id f).thread u).Idle ∨
      ((s.modifyThread id f).thread u).call = (s.thread u).call ∧
      ((s.modifyThread id f).thread u).script = (s.thread u).script ∧
      ((s.modifyThread id f).thread u).registers = (s.thread u).registers := by
    intro u
    by_cases has : s.Has id
    · rw [thread_modifyThread keeps has]
      split
      · rename_i here
        rw [here]
        exact mild _
      · exact Or.inr ⟨rfl, rfl, rfl⟩
    · rw [modifyThread_of_absent has]
      exact Or.inr ⟨rfl, rfl, rfl⟩
  obtain ⟨poised, current⟩ := intact
  have others : Poised (s.modifyThread id f) := by
    refine ⟨poised.quiet, poised.arena, fun u other => ?_⟩
    rcases threads u with idle | ⟨call, script, registers⟩
    · exact Or.inl idle
    · unfold SimThread.Idle SimThread.sections
      rw [call, script, registers]
      exact poised.others u other
  refine ⟨others, ?_⟩
  rcases threads s.current with idle | ⟨call, script, -⟩
  · exact Or.inl idle
  · rcases current with idle | standing
    · exact Or.inl ⟨call.trans idle.1, script.trans idle.2⟩
    · refine Or.inr ⟨others, (has_modifyThread keeps).mpr standing.has, rfl, standing.live, ?_⟩
      have sections : (s.modifyThread id f).currentThread.sections = s.currentThread.sections :=
        congrArg₂ (fun call script => Frame.saved call ++ sectionsOf script) call script
      have handlers : handlersOf (s.modifyThread id f).currentThread.script =
          handlersOf s.currentThread.script := congrArg handlersOf script
      rw [sections, handlers]
      exact standing.shows

omit intact in
/-- The running thread may be given up wherever it is. -/
theorem Poised.retire {f : SimThread → SimThread} (poised : Poised s) (has : s.Has s.current)
    (keeps : ∀ t, (f t).id = t.id) (idle : (f s.currentThread).Idle) :
    Intact (s.modifyCurrent f) := by
  have threads : ∀ u, (s.modifyCurrent f).thread u =
      if u = s.current then f s.currentThread else s.thread u :=
    fun u => thread_modifyThread keeps has
  refine ⟨⟨poised.quiet, poised.arena, fun u other => ?_⟩, Or.inl ?_⟩
  · have apart : u ≠ s.current := other
    rw [threads, if_neg apart]
    exact poised.others u apart
  · have given : (s.modifyCurrent f).currentThread = f s.currentThread :=
      (threads s.current).trans (if_pos rfl)
    rw [given]
    exact idle

/-- Whoever runs next finds the registers that it has left. -/
theorem Intact.resume (id : ThreadId) : Intact (s.resume id) := by
  obtain ⟨poised, current⟩ := intact
  let kept : Registers := ⟨s.kernel.depth, s.kernel.inInterrupt⟩
  have threads : ∀ u, (s.resume id).thread u =
      if u = s.current ∧ s.Has u then { s.currentThread with registers := kept } else s.thread u := by
    intro u
    by_cases has : s.Has s.current
    · refine (thread_modifyThread (f := ({ · with registers := kept })) (fun _ => rfl) has).trans ?_
      by_cases here : u = s.current
      · subst here
        rw [if_pos rfl, if_pos ⟨rfl, has⟩]
        rfl
      · rw [if_neg here, if_neg fun both => here both.1]
    · have same : (s.modifyCurrent ({ · with registers := kept })).thread u = s.thread u :=
        congrArg (Simulation.thread · u) (modifyThread_of_absent has)
      rw [if_neg fun ⟨here, there⟩ => has (here ▸ there)]
      exact same
  -- what a thread has yet to leave is what the registers show that are kept for it
  have all : ∀ u, ((s.resume id).thread u).Idle ∨ s.kernel.table.contains u = true ∧
      ((s.resume id).thread u).registers.Shows ((s.resume id).thread u).sections
        (handlersOf ((s.resume id).thread u).script) := by
    intro u
    rw [threads]
    by_cases here : u = s.current
    · subst here
      by_cases has : s.Has s.current
      · rw [if_pos ⟨rfl, has⟩]
        exact current.imp_right fun standing => ⟨standing.live, standing.shows⟩
      · rw [if_neg fun both => has both.2, thread_absent has]
        exact Or.inl idle_absent
    · rw [if_neg fun both => here both.1]
      exact poised.others u here
  have others : Poised (s.resume id) :=
    ⟨⟨poised.quiet.threads, poised.quiet.semaphores, poised.quiet.condvars⟩, poised.arena,
      fun u _ => all u⟩
  refine ⟨others, ?_⟩
  by_cases has : (s.resume id).Has id
  · exact (all id).imp_right fun ⟨live, shows⟩ => ⟨others, has, rfl, live, shows⟩
  · have absent : (s.resume id).currentThread = .absent := thread_absent has
    rw [absent]
    exact Or.inl idle_absent

end Intact

section Dispatch

variable {P : Simulation → Prop} {Q : α → Simulation → Prop} {E E' : Fault → Simulation → Prop}

/-- What holds whoever runs, also when threads are given up; where it holds, any fault but that of an
overlap may end things. -/
structure Outlasts (P : Simulation → Prop) (E : Fault → Simulation → Prop) : Prop where
  aside : ∀ {s s' : Simulation}, P s → s'.kernel = s.kernel → s'.threads = s.threads →
    s'.current = s.current → P s'
  givesUp : ∀ {s : Simulation} {id : ThreadId}, P s →
    P (s.modifyThread id ({ · with call := [], script := [] }))
  escapes : ∀ {s : Simulation} {id : ThreadId} {escaped : Option String}, P s →
    P (s.modifyThread id ({ · with escaped }))
  resumes : ∀ {s : Simulation} {id : ThreadId}, P s → P (s.resume id)
  asks : ∀ {α : Type} {x : Stretch ThreadTable α}, Looks x → (∀ donates, Duly donates x) →
    Triple P (inKernel (withThreads x)) (fun _ => P) E
  fails : ∀ {fault : Fault} {s : Simulation}, Fair fault → P s → E fault s

/-- Only the run queue changes when a thread is made ready. -/
theorem triple_unblock (aside : ∀ s s' : Simulation, P s →
      s'.kernel = s.kernel → s'.threads = s.threads → s'.current = s.current → P s') :
    Triple P (unblock id) (fun _ => P) fun fault s => Fair fault ∧ P s := by
  have queues : ∀ f : RunQueue → RunQueue, ∀ s, P s → P { s with queue := f s.queue } :=
    fun f s before => aside s _ before rfl rfl rfl
  apply triple_look
  intro ready
  split
  · unfold failInQueue
    apply triple_bind (R := fun _ => P) (triple_update (queues ({ · with poisoned := true })))
    intro _
    exact triple_fail fun s before => ⟨fun _ => nofun, before⟩
  · apply triple_bind triple_report
    intro _
    exact triple_update (queues ({ · with ready := ready ++ [id] }))

section Outlasts

variable (outlasts : Outlasts P E)
include outlasts

theorem triple_modifyQueue {f : RunQueue → RunQueue} :
    Triple P (modifyQueue f) (fun _ => P) E' :=
  triple_update fun _ holds => outlasts.aside holds rfl rfl rfl

theorem triple_recordFailure {failure : Failure} :
    Triple P (recordFailure failure) (fun _ => P) E' :=
  triple_modifyQueue outlasts

theorem triple_recordFault : Triple P (recordFault t fault) (fun _ => P) E' :=
  triple_bind triple_report fun _ => triple_recordFailure outlasts

theorem triple_failInQueue (fair : Fair fault) :
    Triple P (failInQueue fault) (fun _ => P) E :=
  triple_bind (triple_modifyQueue outlasts) fun _ =>
    triple_fail fun _ holds => outlasts.fails fair holds

theorem triple_retire : Triple P (retire t) (fun _ => P) E' := by
  apply triple_bind (R := fun _ => P)
  · exact triple_update fun _ holds => outlasts.givesUp holds
  · intro _
    cases disguise? t.script with
    | none => exact triple_pure fun _ holds => holds
    | some d =>
      apply triple_bind (triple_recordFault outlasts)
      intro _
      exact triple_update fun _ holds => outlasts.escapes holds

theorem triple_retireAll {threads : List SimThread} :
    Triple P (retireAll threads) (fun _ => P) E' := by
  induction threads with
  | nil => exact triple_pure fun _ holds => holds
  | cons t rest ih => exact triple_bind (triple_retire outlasts) fun _ => ih

theorem triple_collapse : Triple P collapse (fun _ => P) E := by
  apply triple_bind (R := fun _ => P)
  · exact triple_look fun _ => triple_retireAll outlasts
  · intro _
    apply triple_bind (R := fun _ => P)
    · exact triple_update fun _ holds => outlasts.resumes holds
    · intro _
      apply triple_read
      intro fault
      apply triple_fail
      rintro s ⟨holds, rfl⟩
      exact outlasts.fails (fun _ => nofun) holds

theorem triple_deadlock : Triple P deadlock (fun _ => P) E := by
  apply triple_bind (outlasts.asks (looks_read _) fun _ => avoids_read _)
  intro entries
  apply triple_bind triple_report
  intro _
  exact triple_bind (triple_recordFailure outlasts) fun _ => triple_collapse outlasts

theorem triple_switch {how : Switch} : Triple P (switch how) (fun _ => P) E := by
  apply triple_look
  intro me
  apply triple_look
  intro queue
  split
  · exact triple_failInQueue outlasts fun _ => nofun
  · apply triple_bind (triple_modifyQueue outlasts)
    intro _
    apply triple_bind (outlasts.asks inspects_pickNext.looks fun _ =>
      inspects_pickNext.avoids not_undue_staleHandle)
    intro found
    cases found with
    | none => exact triple_deadlock outlasts
    | some next =>
      have goes : Triple P (do
          modifyQueue ({ · with
            ready := (if how = .yield then queue.ready ++ [me] else queue.ready).erase next
            running := some next })
          Stretch.update (·.resume next)) (fun _ => P) E :=
        triple_bind (triple_modifyQueue outlasts) fun _ =>
          triple_update fun _ holds => outlasts.resumes holds
      dsimp only
      split
      · exact triple_bind triple_report fun _ => goes
      · exact goes

theorem triple_endWith {outcome : Option Fault} : Triple P (endWith outcome) (fun _ => P) E' := by
  cases outcome with
  | none => exact triple_pure fun _ holds => holds
  | some fault => exact triple_update fun _ holds => outlasts.aside holds rfl rfl rfl

/-- A fault is met in what outlasts it, if threads are unwound in that. -/
theorem triple_meet (unwinds : ∀ fault, Triple P (unwind fault) (fun _ => P) E')
    (stands : ∀ fault s, E fault s → P s) : Triple P (meet fault) (fun _ => P) E' := by
  apply triple_look
  intro t
  apply triple_bind (unwinds fault)
  intro uncaught
  cases uncaught with
  | none => exact triple_pure fun _ holds => holds
  | some fault =>
    apply triple_look
    intro main
    split
    · exact triple_endWith outlasts
    · apply triple_bind (triple_recordFault outlasts)
      intro _
      apply triple_bind (triple_catching (triple_collapse outlasts))
      intro result
      cases result with
      | ok => exact triple_pure fun _ holds => holds
      | error fault =>
        apply triple_bind
        · exact triple_weaken (unwinds fault) (stands fault) (fun _ _ holds => holds)
            fun _ _ cut => cut
        · exact fun _ => triple_endWith outlasts

end Outlasts

/-- To look at the thread table changes nothing. -/
theorem triple_lookTable {x : Stretch ThreadTable α} (looks : Looks x)
    (duly : ∀ donates, Duly donates x) :
    Triple Intact (inKernel (withThreads x)) (fun _ => Intact) Broken := by
  intro s intact
  have run := withThreads_looks intact.1.quiet.threads looks
  unfold inKernel within
  rw [run]
  rcases ends : (x s.kernel.table).outcome with fault | a
  · exact ⟨fair_of_not_undue ((duly true).outcome _ fault ends), intact⟩
  · exact intact

theorem outlasts_intact : Outlasts Intact Broken where
  aside := fun intact => intact.aside
  givesUp := fun intact => intact.modifyThread (fun _ => rfl) fun _ => Or.inl ⟨rfl, rfl⟩
  escapes := fun intact => intact.modifyThread (fun _ => rfl) fun _ => Or.inr ⟨rfl, rfl, rfl⟩
  resumes := fun intact => intact.resume _
  asks := triple_lookTable
  fails := fun fair intact => ⟨fair, intact⟩

theorem triple_checkPreemption : Triple Intact checkPreemption (fun _ => Intact) Broken := by
  apply triple_look
  intro me
  apply triple_look
  intro ready
  apply triple_bind (triple_lookTable inspects_outranked.looks fun _ =>
    inspects_outranked.avoids not_undue_staleHandle)
  intro outranked
  split
  · apply triple_look
    intro inside
    split
    · exact triple_update fun _ intact =>
        intact.modifyThread (fun _ => rfl) fun _ => Or.inr ⟨rfl, rfl, rfl⟩
    · exact triple_bind triple_report fun _ => triple_switch outlasts_intact
  · exact triple_pure fun _ intact => intact

end Dispatch

/-! ### Actions -/

/-- A thread between calls that makes one is in the sections that the call has entered, besides those
in which it was. -/
theorem standing_of_call {frames : List Frame} (idle : t.call = [])
    (runs : Runs { t with call := frames } (Frame.saved frames ++ t.sections)
      (handlersOf t.script) s) : Standing { t with call := frames } s := by
  have sections : SimThread.sections { t with call := frames } =
      Frame.saved frames ++ t.sections := by
    unfold SimThread.sections
    rw [idle]
    rfl
  unfold Standing
  rw [sections]
  exact runs

section Actions

variable {E : Fault → Simulation → Prop}

theorem triple_standing_setCall (frames : List Frame) (idle : t.call = []) :
    Triple (Runs t (Frame.saved frames ++ t.sections) (handlersOf t.script)) (setCall frames)
      (fun _ => Standing { t with call := frames }) E :=
  triple_weaken triple_setCall (fun _ runs => runs) (fun _ _ runs => standing_of_call idle runs)
    fun _ _ cut => cut

/-- The last thing that an action does. -/
theorem triple_lastCall (frames : List Frame) (idle : t.call = []) :
    Triple (Runs t (Frame.saved frames ++ t.sections) (handlersOf t.script)) (setCall frames)
      (fun _ => Intact) E :=
  triple_weaken (triple_standing_setCall frames idle) (fun _ runs => runs)
    (fun _ _ standing => standing.intact) fun _ _ cut => cut

theorem triple_lastPush (saves : pending.saved? = none) (plain : pending.isHandler = false) :
    Triple (Standing t) (push pending) (fun _ => Intact) E :=
  triple_weaken (triple_standing_push saves plain) (fun _ standing => standing)
    (fun _ _ standing => standing.intact) fun _ _ cut => cut

theorem triple_of_intact {x : Stretch Simulation α} {Q : α → Simulation → Prop}
    (triple : Triple Intact x Q E) : Triple (Standing t) x Q E :=
  triple_weaken triple (fun _ standing => standing.intact) (fun _ _ after => after)
    fun _ _ cut => cut

theorem triple_panic (fair : Fair fault) :
    Triple (Standing t) (fail fault : Stretch Simulation Unit) (fun _ => Intact) Broken :=
  triple_fail fun _ standing => broken_of_standing fair standing

/-- A fault in a section of the kernel leaves the section. -/
theorem Runs.broken_leave (fair : Fair fault)
    (runs : Runs t (saved :: t.sections) (handlersOf t.script) s) :
    Broken fault (inKernel (Kernel.leave saved) s).state :=
  broken_of_standing fair runs.leave

theorem triple_ofLevel {level : Nat} : Triple (Standing t)
    (ofExcept (Priority.ofLevel level)) (fun _ => Standing t) Broken := by
  apply triple_ofExcept
  intro fault s fails standing
  unfold Priority.ofLevel at fails
  split at fails
  · cases fails
  · cases fails
    exact broken_of_standing (fun _ => nofun) standing

variable (idle : t.call = [])
include idle

theorem triple_yieldNow : Triple (Standing t) yieldNow (fun _ => Intact) Broken := by
  apply triple_bind triple_enter
  intro saved
  apply triple_bind (triple_standing_setCall [.leave saved] idle)
  intro _
  exact triple_of_intact (triple_switch outlasts_intact)

theorem triple_setPriority {level : Nat} :
    Triple (Standing t) (setPriority level) (fun _ => Intact) Broken := by
  apply triple_bind triple_ofLevel
  intro priority
  apply triple_look
  intro me
  apply triple_bind triple_enter
  intro saved
  let deeper := Runs t (saved :: t.sections) (handlersOf t.script)
  apply triple_bind (R := fun _ => deeper)
  · apply triple_onFault (F := fun fault s => Fair fault ∧ deeper s)
    · apply triple_read
      intro mode
      apply triple_inKernel fun _ before => before.1
      · exact wellNested_withThreads Donation.logs_changeBase
      · rintro s ⟨-, rfl⟩
        exact conducted_withThreads Donation.hides_changeBase Donation.duly_changeBase
    · exact fun fault s ⟨fair, runs⟩ => runs.broken_leave fair
  · intro effective
    apply triple_bind triple_report
    intro _
    apply triple_bind triple_push
    intro _
    exact triple_lastCall [.check, .leave saved] idle

omit idle in
/-- A thread that has just been spawned has nothing to leave. -/
theorem Runs.withThread (runs : Runs t depths handlers s) {name : String} {actions : List Action}
    {disguise : Option Disguise} {exited : SemaphoreId}
    (live : s.kernel.table.contains id = true) :
    Runs t depths handlers (s.withThread (.fresh id name actions disguise exited)) := by
  have threads : ∀ u, (s.withThread (.fresh id name actions disguise exited)).thread u =
      if s.Has u then s.thread u
      else if u = id then .fresh id name actions disguise exited else .absent :=
    fun u => thread_withThread
  refine ⟨⟨runs.poised.quiet, runs.poised.arena, fun u other => ?_⟩, ?_, ?_, runs.live, runs.shows⟩
  · rw [threads]
    split
    · exact runs.poised.others u other
    · split
      · rename_i here
        subst here
        refine Or.inr ⟨live, ?_, ?_⟩
        · cases disguise <;> rfl
        · cases disguise <;> rfl
      · exact Or.inl idle_absent
  · exact has_withThread.mpr (Or.inl runs.has)
  · refine (threads s.current).trans ?_
    rw [if_pos runs.has]
    exact runs.thread

omit idle in
/-- A thread that is created is live. -/
theorem triple_spawn_table {name : String} {priority : Priority} :
    Triple (Runs t depths handlers) (inKernel (withThreads (ThreadTable.spawn name priority)))
      (fun result s => Runs t depths handlers s ∧
        ∀ id, result = .ok id → s.kernel.table.contains id = true)
      fun fault s => Fair fault ∧ Runs t depths handlers s := by
  intro s runs
  have run := withThreads_run runs.poised.quiet.threads (ThreadTable.spawn name priority)
  unfold inKernel within
  rw [run]
  rcases adds : ThreadTable.spawn name priority s.kernel.table with ⟨fault | result, table, events⟩
  · obtain ⟨same, index, rfl⟩ := spawn_of_fails (congrArg Run.outcome adds)
    rw [adds] at same
    cases same
    exact ⟨fun _ => nofun, runs.withKernel (runs.poised.quiet.setTable _) runs.poised.arena
      (fun _ live => live) runs.shows⟩
  · rcases spawn_eq_ok runs.poised.arena adds with ⟨-, rfl, rfl⟩ | ⟨id, rfl, gains⟩
    · exact ⟨runs.withKernel (runs.poised.quiet.setTable _) runs.poised.arena (fun _ live => live)
        runs.shows, nofun⟩
    · refine ⟨runs.withKernel (runs.poised.quiet.setTable _) gains.arena
        (fun u live => gains.contains.mpr (Or.inr live)) runs.shows, ?_⟩
      rintro _ ⟨⟩
      exact gains.contains.mpr (Or.inl rfl)

theorem triple_spawn {name : String} {level : Nat} {actions : List Action}
    {disguise : Option Disguise} :
    Triple (Standing t) (spawn name level actions disguise) (fun _ => Intact) Broken := by
  apply triple_bind triple_ofLevel
  intro priority
  apply triple_bind triple_enter
  intro saved
  apply triple_bind (triple_onFault triple_spawn_table
    fun _ _ ⟨fair, runs⟩ => runs.broken_leave fair)
  intro result
  cases result with
  | error reason =>
    apply triple_bind (R := fun _ => Standing t)
    · exact triple_weaken triple_leave (fun _ before => before.1) (fun _ _ after => after)
        fun _ _ cut => cut
    · exact fun _ => triple_ends
  | ok id =>
    let deeper := Runs t (saved :: t.sections) (handlersOf t.script)
    apply triple_bind (R := fun _ s => deeper s ∧ s.kernel.table.contains id = true)
    · apply triple_onFault (F := fun fault s => fault = .nullInName name ∧ deeper s)
      · exact triple_weaken (triple_require fun s before => ⟨rfl, before.1⟩)
          (fun _ before => before) (fun _ _ before => ⟨before.1, before.2 id rfl⟩) fun _ _ cut => cut
      · rintro _ s ⟨rfl, runs⟩
        exact runs.broken_leave fun _ => nofun
    · intro _
      apply triple_bind (R := fun _ s => deeper s ∧ s.kernel.table.contains id = true)
      · apply triple_look
        intro exited
        apply triple_bind (R := fun _ s => deeper s ∧ s.kernel.table.contains id = true)
        · apply triple_update
          rintro s ⟨runs, live⟩
          exact ⟨runs.withKernel (runs.poised.quiet.addSemaphore 0) runs.poised.arena
            (fun _ live => live) runs.shows, live⟩
        · exact fun _ => triple_pure fun _ after => after
      · intro exited
        apply triple_bind (R := fun _ => deeper)
        · exact triple_update fun s ⟨runs, live⟩ => runs.withThread live
        · intro _
          apply triple_bind triple_report
          intro _
          apply triple_bind (R := fun _ => deeper)
          · apply triple_onFault (triple_unblock fun _ _ runs => runs.aside)
            exact fun _ _ ⟨fair, runs⟩ => runs.broken_leave fair
          · intro _
            apply triple_bind triple_push
            intro _
            apply triple_bind triple_push
            intro _
            exact triple_lastCall [.check, .leave saved] idle

theorem triple_join {name : String} :
    Triple (Standing t) (join name) (fun _ => Intact) Broken := by
  apply triple_look
  intro joinable
  split
  · exact triple_ends
  · rename_i handle _
    apply triple_bind (R := fun _ => Standing t)
    · exact triple_update fun _ standing => standing.aside rfl rfl rfl
    · intro _
      apply triple_bind triple_report
      intro _
      apply triple_bind triple_push
      intro _
      exact triple_lastCall [.call (.down handle.exited)] idle

omit idle in
theorem triple_showPriority : Triple (Standing t) (showPriority id) (fun _ => Intact) Broken := by
  apply triple_bind (triple_askTable inspects_priority.looks fun _ =>
    inspects_priority.avoids not_undue_staleHandle)
  intro effective
  apply triple_bind (triple_askTable inspects_basePriority.looks fun _ =>
    inspects_basePriority.avoids not_undue_staleHandle)
  intro base
  exact triple_ends

/-- A handler is entered at the depth of its caller, who is in none. -/
theorem triple_interrupt {actions : List Action} :
    Triple (Standing t) (interrupt actions) (fun _ => Intact) Broken := by
  apply triple_read
  intro inside
  cases inside with
  | true =>
    apply triple_bind (R := fun _ _ => False)
    · exact triple_fail fun _ before => broken_of_standing (fun _ => nofun) before.1
    · exact fun _ _ before => before.elim
  | false =>
    apply triple_bind (R := fun _ s => Standing t s ∧ s.kernel.inInterrupt = false)
    · exact triple_pure fun _ before => before
    · intro _
      apply triple_bind (R := fun _ => Runs t t.sections (handlersOf t.script + 1))
      · apply triple_update
        rintro s ⟨standing, outside⟩
        have none : handlersOf t.script = 0 := by
          have shown := standing.shows.handlers
          rw [show s.registers.inInterrupt = false from outside] at shown
          exact shown
        apply standing.withKernel (k := { s.kernel with inInterrupt := true })
        · exact ⟨standing.poised.quiet.threads, standing.poised.quiet.semaphores,
            standing.poised.quiet.condvars⟩
        · exact standing.poised.arena
        · exact fun _ live => live
        · refine ⟨standing.shows.depth, ?_⟩
          rw [none]
          rfl
      · intro _
        apply triple_bind triple_enter
        intro saved
        apply triple_bind triple_push
        intro _
        apply triple_bind triple_push
        intro _
        apply triple_bind triple_push
        intro _
        let t' : SimThread := { t with
          script := .actions actions :: .handler saved :: .handlerReturned ::
            .over "interrupt" .done :: t.script }
        have sections : t'.sections = saved :: t.sections := by
          unfold SimThread.sections
          rw [idle]
          rfl
        have handlers : handlersOf t'.script = handlersOf t.script + 1 := by
          rw [handlersOf_push rfl, handlersOf_handler, handlersOf_push rfl, handlersOf_push rfl]
        refine triple_weaken triple_push (fun _ runs => runs) (fun _ s runs => ?_) fun _ _ cut => cut
        apply Runs.intact (t := t')
        unfold Standing
        rw [sections, handlers]
        exact runs

omit idle in
theorem triple_leaveHandler :
    Triple (Runs t (saved :: depths) (handlers + 1)) (leaveHandler saved)
      (fun _ => Runs t depths handlers) E := by
  apply triple_bind triple_leave
  intro _
  apply triple_update
  intro s runs
  -- there is one handler at most
  have none : handlers = 0 := by
    have shown := runs.shows.handlers
    split at shown
    · omega
    · omega
  apply runs.withKernel (k := { s.kernel with inInterrupt := false })
  · exact ⟨runs.poised.quiet.threads, runs.poised.quiet.semaphores, runs.poised.quiet.condvars⟩
  · exact runs.poised.arena
  · exact fun _ live => live
  · exact ⟨runs.shows.depth, none⟩

/-- Every action leaves things intact, whether it is over, has only begun, or has failed. -/
theorem triple_perform {action : Action} :
    Triple (Standing t) (perform action) (fun _ => Intact) Broken := by
  cases action with
  | call made =>
    apply triple_bind triple_push
    intro _
    exact triple_lastCall [.call made] idle
  | short made =>
    apply triple_look
    intro me
    apply triple_bind (triple_ask ShortCall.wellNested_run fun _ =>
      ShortCall.conducted_run overlooks_presence)
    intro answer
    apply triple_bind (R := fun _ => Standing { t with last := answer })
    · exact triple_update fun _ standing =>
        standing.modify (f := ({ · with last := answer })) fun _ => rfl
    · exact fun _ => triple_ends
  | permits x =>
    apply triple_bind (triple_ask
      (wellNested_inSection fun _ => wellNested_accessing (wellNested_read _)) fun _ =>
        conducted_inSection fun _ => Semaphore.conducted_readCount)
    intro count
    apply triple_bind (triple_ask
      (wellNested_inSection fun _ => wellNested_accessing (wellNested_read _)) fun _ =>
        conducted_inSection fun _ => Semaphore.conducted_readWaiterCount)
    intro waiters
    exact triple_ends
  | holder lock =>
    apply triple_bind (triple_ask
      (wellNested_inSection fun _ => wellNested_withThreads (avoids_read _)) fun _ =>
        conducted_inSection fun _ => conducted_look)
    intro holder
    exact triple_ends
  | registrations c =>
    apply triple_bind (triple_ask
      (wellNested_inSection fun _ => wellNested_accessing (wellNested_read _)) fun _ =>
        conducted_inSection fun _ => Condvar.conducted_readWaiterCount)
    intro waiters
    exact triple_ends
  | waitWhile c lock condition => exact triple_lastPush rfl rfl
  | spawn name level actions disguise => exact triple_spawn idle
  | join name => exact triple_join idle
  | yield =>
    apply triple_bind (triple_standing_push rfl rfl)
    intro _
    exact triple_yieldNow idle
  | setPriority level => exact triple_setPriority idle
  | priority => exact triple_look fun _ => triple_showPriority
  | priorityOf name =>
    apply triple_look
    intro known
    split
    · exact triple_showPriority
    · exact triple_ends
  | threads =>
    apply triple_bind (triple_askTable (looks_read _) fun _ => avoids_read _)
    intro live
    exact triple_ends
  | mode | inInterrupt | showKernel => exact triple_look fun _ => triple_ends
  | interrupt actions => exact triple_interrupt idle
  | snapshot =>
    apply triple_bind (triple_askTable (looks_read _) fun _ => avoids_read _)
    intro entries
    exact triple_ends
  | note written => exact triple_ends
  | set index value => exact triple_update fun _ standing => standing.intact.aside rfl rfl rfl
  | add index amount =>
    apply triple_look
    intro value
    apply triple_bind (R := fun _ => Standing t)
    · exact triple_update fun _ standing => standing.aside rfl rfl rfl
    · exact fun _ => triple_ends
  | times count actions => exact triple_lastPush rfl rfl
  | ifLast yes no => exact triple_look fun _ => triple_lastPush rfl rfl
  | branch condition yes no => exact triple_look fun _ => triple_lastPush rfl rfl
  | attempt actions =>
    apply triple_bind (triple_standing_push rfl rfl)
    intro _
    exact triple_lastPush rfl rfl
  | raise text => exact triple_panic fun _ => nofun
  | raiseWithoutText => exact triple_panic fun _ => nofun
  | nested => exact triple_panic fun _ => nofun
  | foreign => exact triple_ends
  | unknown => exact triple_panic fun _ => nofun

/-! ### Steps -/

omit idle in
/-- Who removes itself leaves the others as they were. -/
theorem triple_removeSelf : Triple (fun s => Runs t depths handlers s ∧ s.current = id)
    (inKernel (withThreads (ThreadTable.remove id)))
    (fun _ s => Poised s ∧ s.Has s.current ∧ s.currentThread = t)
    fun fault s => Fair fault ∧ Runs t depths handlers s := by
  rintro s ⟨runs, rfl⟩
  have run := withThreads_run runs.poised.quiet.threads (ThreadTable.remove s.current)
  unfold inKernel within
  rw [run]
  rcases removes : ThreadTable.remove s.current s.kernel.table with ⟨fault | r, table, events⟩
  · have fails := congrArg Run.outcome removes
    have same := remove_of_fails fails
    rw [removes] at same
    cases same
    have due : ¬ Undue true fault := duly_remove fails
    exact ⟨fair_of_not_undue due, runs.withKernel (runs.poised.quiet.setTable _) runs.poised.arena
      (fun _ live => live) runs.shows⟩
  · obtain ⟨-, -, -, loses⟩ := remove_eq_ok runs.poised.arena removes
    refine ⟨⟨runs.poised.quiet.setTable _, loses.arena, fun u other => ?_⟩, runs.has, runs.thread⟩
    exact (runs.poised.others u other).imp_right fun ⟨live, shows⟩ =>
      ⟨loses.contains.mpr ⟨other, live⟩, shows⟩

/-- The exit of a thread leaves its section with the thread, or because it has failed. -/
theorem triple_exit : Triple (Runs t (saved :: t.sections) (handlersOf t.script))
    (proceed (.remove saved)) (fun _ => Intact) Broken := by
  apply triple_read
  intro me
  apply triple_bind (triple_onFault triple_removeSelf fun _ _ ⟨fair, runs⟩ => runs.broken_leave fair)
  intro r
  apply triple_bind triple_report
  intro _
  apply triple_bind (R := fun _ => Intact)
  · apply triple_update
    rintro s ⟨poised, has, rfl⟩
    exact poised.retire has (fun _ => rfl) ⟨idle, rfl⟩
  · exact fun _ => triple_switch outlasts_intact

theorem triple_finish {exited : SemaphoreId} :
    Triple (Standing t) (proceed (.finish exited)) (fun _ => Intact) Broken := by
  apply triple_bind triple_conclude
  intro _
  apply triple_bind triple_enter
  intro saved
  apply triple_bind triple_push
  intro _
  let t' : SimThread := { t with call := [.call (.up exited)], script := .remove saved :: t.script }
  have sections : t'.sections = saved :: t.sections := by
    unfold SimThread.sections
    rw [idle]
    rfl
  have handlers : handlersOf t'.script = handlersOf t.script := handlersOf_push rfl
  refine triple_weaken triple_setCall (fun _ runs => runs) (fun _ s runs => ?_) fun _ _ cut => cut
  apply Runs.intact (t := t')
  unfold Standing
  rw [sections, handlers]
  exact runs

/-- A thread goes on with what was pending, which is off its script. -/
theorem triple_proceed : Triple
    (Runs t (pending.saved?.toList ++ t.sections)
      (handlersOf [pending] + handlersOf t.script))
    (proceed pending) (fun _ => Intact) Broken := by
  have plain : pending.saved? = none → pending.isHandler = false →
      ∀ {x : Stretch Simulation Unit}, Triple (Standing t) x (fun _ => Intact) Broken →
        Triple (Runs t (pending.saved?.toList ++ t.sections)
          (handlersOf [pending] + handlersOf t.script)) x (fun _ => Intact) Broken := by
    intro saves handles x triple
    have none : handlersOf [pending] = 0 := handlersOf_push handles
    rw [saves, none, Nat.zero_add]
    exact triple
  cases pending with
  | start =>
    apply plain rfl rfl
    apply triple_look
    intro me
    exact triple_bind triple_report fun _ => triple_ends
  | actions actions =>
    apply plain rfl rfl
    cases actions with
    | nil => exact triple_pure fun _ standing => standing.intact
    | cons action actions =>
      exact triple_bind (triple_standing_push rfl rfl) fun _ =>
        triple_perform (t := { t with script := .actions actions :: t.script }) idle
  | times count actions =>
    apply plain rfl rfl
    cases count with
    | zero => exact triple_pure fun _ standing => standing.intact
    | succ count =>
      exact triple_bind (triple_standing_push rfl rfl) fun _ => triple_lastPush rfl rfl
  | waiting c lock condition waits =>
    apply plain rfl rfl
    apply triple_look
    intro holds
    split
    · apply triple_bind triple_push
      intro _
      exact triple_lastCall [.call (.wait c lock)] idle
    · exact triple_ends
  | «over» action reply => exact plain rfl rfl triple_ends
  | known name id exited =>
    exact plain rfl rfl (triple_update fun _ standing => standing.intact.aside rfl rfl rfl)
  | attempt => exact plain rfl rfl triple_ends
  | handler saved =>
    have one : handlersOf [.handler saved] + handlersOf t.script = handlersOf t.script + 1 := by
      rw [handlersOf_handler]
      exact Nat.add_comm _ _
    rw [one]
    exact triple_weaken triple_leaveHandler (fun _ runs => runs)
      (fun _ _ standing => standing.intact) fun _ _ cut => cut
  | handlerReturned =>
    apply plain rfl rfl
    apply triple_look
    intro t'
    split
    · apply triple_bind (R := fun _ => Standing { t with yieldOnReturn := false })
      · exact triple_update fun _ standing =>
          standing.modify (f := ({ · with yieldOnReturn := false })) fun _ => rfl
      · intro _
        exact triple_bind triple_report fun _ => triple_yieldNow idle
    · exact triple_pure fun _ standing => standing.intact
  | disguise d => exact plain rfl rfl (triple_pure fun _ standing => standing.intact)
  | returned =>
    exact plain rfl rfl (triple_update fun _ standing => standing.intact.aside rfl rfl rfl)
  | finish exited => exact plain rfl rfl (triple_finish idle)
  | remove saved =>
    have none : handlersOf [.remove saved] + handlersOf t.script = handlersOf t.script :=
      Nat.zero_add _
    rw [none]
    exact triple_exit idle

end Actions

/-- The sections of a call lie within those that the thread was in before. -/
theorem stacked_append {base depth : Nat} {inner outer : List Nat} :
    Frame.Stacked base (inner ++ outer) depth ↔
      ∃ between, Frame.Stacked between inner depth ∧ Frame.Stacked base outer between := by
  induction inner generalizing depth with
  | nil =>
    constructor
    · exact fun stacked => ⟨depth, rfl, stacked⟩
    · rintro ⟨_, rfl, stacked⟩
      exact stacked
  | cons saved rest ih =>
    constructor
    · rintro ⟨here, stacked⟩
      obtain ⟨between, first, second⟩ := ih.mp stacked
      exact ⟨between, ⟨here, first⟩, second⟩
    · rintro ⟨between, ⟨here, first⟩, second⟩
      exact ⟨here, ih.mpr ⟨between, first, second⟩⟩

/-- A stretch of a call leaves the sections open that the frames say; a fault leaves them all. -/
theorem triple_step_call {me : ThreadId} {frames : List Frame} :
    Triple (Runs t (Frame.saved frames ++ depths) handlers) (inKernel (Frame.step me frames))
      (fun progress => Runs t (Frame.saved progress.frames ++ depths) handlers)
      fun fault s => Fair fault ∧ Runs t depths handlers s := by
  intro s runs
  obtain ⟨between, inner, outer⟩ := stacked_append.mp runs.shows.depth
  have follows : Frame.Follows between s.kernel (Frame.saved frames)
      (Frame.step me frames s.kernel).events (Frame.step me frames s.kernel).state
      (Frame.savedAfter [] (Frame.step me frames s.kernel).outcome) := Frame.step_follows inner
  have conducts : Conducts presence s.kernel (Frame.step me frames s.kernel) :=
    Frame.conducted_step overlooks_presence _ runs.poised.quiet rfl
  have after : ∀ {depths'}, Frame.Stacked 0 depths' (Frame.step me frames s.kernel).state.depth →
      Runs t depths' handlers { s with kernel := (Frame.step me frames s.kernel).state } := by
    intro depths' stacked
    apply runs.withKernel conducts.quiet (conducts.table.shape.arena runs.poised.arena)
    · exact fun u live => (conducts.table.agree.contains u).trans live
    · refine ⟨stacked, ?_⟩
      rw [conducts.inInterrupt]
      exact runs.shows.handlers
  have stacked := follows.stacked
  unfold inKernel within
  rcases run : Frame.step me frames s.kernel with ⟨fault | progress, kernel, events⟩
  · rw [run] at after conducts stacked
    exact ⟨fair_of_not_undue (conducts.due fault rfl),
      after (stacked_append.mpr ⟨_, stacked, outer⟩)⟩
  · rw [run] at after stacked
    rw [Frame.savedAfter_nil] at stacked
    exact after (stacked_append.mpr ⟨_, stacked, outer⟩)

theorem triple_advanceCall {me : ThreadId} :
    Triple (Standing t) (advanceCall me t.call) (fun _ => Intact) Broken := by
  apply triple_bind triple_setCall
  intro _
  apply triple_bind
  · exact triple_weaken triple_step_call (fun _ runs => runs) (fun _ _ runs => runs)
      fun _ _ ⟨fair, runs⟩ => broken_of_standing fair runs
  · intro progress
    apply triple_bind (R := fun _ => Standing { t with call := progress.frames })
    · exact triple_setCall
    · intro _
      cases progress.request with
      | proceed => exact triple_pure fun _ standing => standing.intact
      | block =>
        exact triple_of_intact (triple_bind triple_report fun _ => triple_switch outlasts_intact)
      | unblock id =>
        apply triple_of_intact
        exact triple_unblock fun _ _ intact => intact.aside
      | check => exact triple_of_intact triple_checkPreemption

/-- What is pending is taken off the script, and is done. -/
theorem triple_next {rest : List Pending} (idle : t.call = []) (due : t.script = pending :: rest) :
    Triple (Standing t)
      (do
        Stretch.update (·.modifyCurrent ({ · with script := rest }))
        proceed pending) (fun _ => Intact) Broken := by
  let t' : SimThread := { t with script := rest }
  have sections : t.sections = pending.saved?.toList ++ t'.sections := by
    unfold SimThread.sections sectionsOf
    rw [idle, due]
    cases saves : pending.saved? with
    | none => exact List.filterMap_cons_none saves
    | some saved => exact List.filterMap_cons_some saves
  have handlers : handlersOf t.script = handlersOf [pending] + handlersOf t'.script := by
    rw [due]
    exact (List.countP_append : ([pending] ++ rest).countP Pending.isHandler = _)
  apply triple_bind (R := fun _ =>
    Runs t' (pending.saved?.toList ++ t'.sections) (handlersOf [pending] + handlersOf t'.script))
  · apply triple_update
    intro s standing
    rw [← sections, ← handlers]
    exact standing.modify (f := ({ · with script := rest })) fun _ => rfl
  · exact fun _ => triple_proceed idle

/-- Whatever the running thread does, it leaves things intact, also where a fault cuts it short. -/
theorem triple_advance : Triple Intact advance (fun _ => Intact) Broken := by
  apply triple_read
  intro t
  rintro s ⟨⟨poised, doing⟩, rfl⟩
  rcases doing with ⟨idle, empty⟩ | standing
  · rw [idle, empty]
    exact ⟨poised, Or.inl ⟨idle, empty⟩⟩
  · rcases call : s.currentThread.call with _ | ⟨head, rest⟩
    · rcases due : s.currentThread.script with _ | ⟨pending, rest⟩
      · exact standing.intact
      · exact triple_next call due s standing
    · have goes : Triple (Standing s.currentThread)
          (advanceCall s.currentThread.id s.currentThread.call) (fun _ => Intact) Broken :=
        triple_advanceCall
      rw [call] at goes
      exact goes s standing

/-! ### Faults -/

section Faults

variable {E : Fault → Simulation → Prop}

/-- To unwind a script is to leave what it has yet to leave, down to where the fault is caught. -/
theorem triple_unwindScript :
    Triple (Runs t (sectionsOf script) (handlersOf script)) (unwindScript fault script)
      (fun result s => Poised s ∧ s.Has s.current ∧
        (result.1 = [] ∨ Runs t (sectionsOf result.1) (handlersOf result.1) s)) E := by
  induction script with
  | nil => exact triple_pure fun _ runs => ⟨runs.poised, runs.has, Or.inl rfl⟩
  | cons pending rest ih =>
    cases pending with
    | attempt =>
      apply triple_bind triple_conclude
      intro _
      exact triple_pure fun _ runs => ⟨runs.poised, runs.has, Or.inr runs⟩
    | handler saved =>
      rw [handlersOf_handler]
      exact triple_bind triple_leaveHandler fun _ => ih
    | remove saved => exact triple_bind triple_leave fun _ => ih
    | disguise d => exact triple_pure fun _ runs => ⟨runs.poised, runs.has, Or.inl rfl⟩
    | start | actions | times | waiting | «over» | known | handlerReturned | returned | finish =>
      exact ih

theorem triple_unwindCall {frames : List Frame} :
    Triple (Runs t (Frame.saved frames ++ depths) handlers) (inKernel (Frame.unwind frames))
      (fun _ => Runs t depths handlers) E := by
  intro s runs
  obtain ⟨between, inner, outer⟩ := stacked_append.mp runs.shows.depth
  obtain ⟨ends, follows⟩ := Frame.unwind_follows inner
  have conducts : Conducts presence s.kernel (Frame.unwind frames s.kernel) :=
    Frame.conducted_unwind _ runs.poised.quiet rfl
  have depth : (Frame.unwind frames s.kernel).state.depth = between := follows.stacked
  have after : Runs t depths handlers
      { s with kernel := (Frame.unwind frames s.kernel).state } := by
    apply runs.withKernel conducts.quiet (conducts.table.shape.arena runs.poised.arena)
    · exact fun u live => (conducts.table.agree.contains u).trans live
    · refine ⟨depth ▸ outer, ?_⟩
      rw [conducts.inInterrupt]
      exact runs.shows.handlers
  unfold inKernel within
  rcases run : Frame.unwind frames s.kernel with ⟨outcome, kernel, events⟩
  rw [run] at ends after
  obtain rfl : outcome = .ok () := ends
  exact after

/-- Unwinds what a thread was doing. Gives the fault, unless it was caught. -/
def unwindThread (fault : Fault) (t : SimThread) : Stretch Simulation (Option Fault) := do
  inKernel (Frame.unwind t.call)
  let left ← unwindScript fault t.script
  Stretch.update (·.modifyCurrent ({ · with call := [], script := left.1, escaped := left.2.1 }))
  return left.2.2

theorem unwind_eq : unwind fault = Stretch.read (·.currentThread) >>= unwindThread fault := rfl

/-- A thread that meets a fault goes on where it is caught, or has nothing left to do. -/
theorem triple_unwind : Triple Intact (unwind fault) (fun _ => Intact) fun _ _ => False := by
  rw [unwind_eq]
  apply triple_read
  intro t
  rintro s ⟨⟨poised, doing⟩, rfl⟩
  rcases doing with ⟨idle, empty⟩ | standing
  · unfold unwindThread
    rw [idle, empty]
    have given : Intact s := ⟨poised, Or.inl ⟨idle, empty⟩⟩
    exact given.modifyThread (fun _ => rfl) fun _ => Or.inl ⟨rfl, rfl⟩
  · have triple : Triple (Standing s.currentThread) (unwindThread fault s.currentThread)
        (fun _ => Intact) fun _ _ => False := by
      apply triple_bind triple_unwindCall
      intro _
      apply triple_bind triple_unwindScript
      rintro ⟨script, escaped, uncaught⟩
      apply triple_bind (R := fun _ => Intact)
      · apply triple_update
        rintro s' ⟨poised, has, rfl | runs⟩
        · exact poised.retire has (f := ({ · with call := [], script := [], escaped }))
            (fun _ => rfl) ⟨rfl, rfl⟩
        · exact (runs.modify (f := ({ · with call := [], script, escaped })) fun _ => rfl).intact
      · exact fun _ => triple_pure fun _ intact => intact
    exact triple s standing

/-- Every step leaves things intact, and no fault leaves the step. -/
theorem triple_step : Triple Intact step (fun _ => Intact) fun _ _ => False := by
  apply triple_bind (triple_catching triple_advance)
  intro result
  cases result with
  | ok => exact triple_pure fun _ intact => intact
  | error fault =>
    have meets : Triple Intact (meet fault) (fun _ => Intact) fun _ _ => False :=
      triple_meet outlasts_intact (fun _ => triple_unwind) fun _ _ broken => broken.2
    exact triple_weaken meets (fun _ broken => broken.2) (fun _ _ intact => intact)
      fun _ _ cut => cut

end Faults

/-! ### Turns -/

variable {s₁ : Simulation} {how : Option Switch}

theorem untilSwitch_of_idle (idle : s.currentThread.Idle) : untilSwitch s = ⟨.ok none, s, []⟩ := by
  unfold untilSwitch
  rw [bind_run_ok (read_run _ _)]
  simp only [idle.1, idle.2]
  rfl

/-- Whatever the running thread does up to a switch is a turn. -/
theorem Intact.turn_of_run {events : List Event} (intact : Intact s)
    (run : untilSwitch s = ⟨.ok how, s₁, events⟩) : Turn s s₁ how := by
  rcases intact.2 with idle | standing
  · rw [untilSwitch_of_idle idle] at run
    cases run
    exact .rests idle.1 idle.2
  · exact turn_of_ok intact.1.quiet standing.has run

/-! ### Runs -/

variable {settings : Settings} {actions : List Action} {path path' : List Simulation}

/-- The states that the simulation of a script passes through until the script of the main thread has
ended, whatever fails on the way; each with those from which the steps up to it have started. -/
inductive Journey (settings : Settings) (actions : List Action) :
    List Simulation → Simulation → Prop where
  | start {main : ThreadId} {table : ThreadTable} {events : List Event}
      (boots : settings.table (.empty 0) = ⟨.ok main, table, events⟩) :
      Journey settings actions [] (settings.start actions table main)
  | step {path : List Simulation} {s : Simulation} (before : Journey settings actions path s)
      (unfinished : s.result = none) : Journey settings actions (path ++ [s]) (step s).state

/-- At first the main thread is in nothing. -/
theorem intact_start {main : ThreadId} {table : ThreadTable} {events : List Event}
    (boots : settings.table (.empty 0) = ⟨.ok main, table, events⟩) :
    Intact (settings.start actions table main) := by
  obtain ⟨small, priority, reported, adds⟩ := booted boots
  have live : Arena table ∧ table.contains main = true := by
    rcases spawn_eq_ok (arena_empty small) adds with ⟨-, full, -⟩ | ⟨id, same, gains⟩
    · cases full
    · cases same
      exact ⟨gains.arena, gains.contains.mpr (Or.inl rfl)⟩
  have poised : Poised (settings.start actions table main) := by
    refine ⟨⟨rfl, fun cell mem => ?_, fun cell mem => ?_⟩, live.1, fun u other => Or.inl ?_⟩
    · obtain ⟨count, -, rfl⟩ := List.mem_map.mp mem
      rfl
    · rw [List.eq_of_mem_replicate mem]
    · have apart : u ≠ main := other
      rw [thread_start, if_neg apart]
      exact idle_absent
  have now : (settings.start actions table main).currentThread =
      { id := main, name := "main", script := [.actions actions, .returned] } :=
    thread_start.trans (if_pos rfl)
  refine ⟨poised, Or.inr ⟨poised, ⟨_, List.mem_singleton.mpr rfl, rfl⟩, rfl, live.2, ?_⟩⟩
  rw [now]
  exact ⟨rfl, rfl⟩

/-- At every step call and script of each thread tell what it has yet to leave. -/
theorem Journey.intact (journey : Journey settings actions path s) : Intact s := by
  induction journey with
  | start boots => exact intact_start boots
  | @step path s before unfinished ih =>
    have stepped := triple_step s ih
    rcases run : Simulation.step s with ⟨fault | ⟨⟩, s', events⟩
    · rw [run] at stepped
      exact stepped.elim
    · rw [run] at stepped
      exact stepped

/-- As many steps, unless the script of the main thread ends before. -/
def playJourney : Nat → List Simulation → Simulation → Option (List Simulation × Simulation)
  | 0, path, s => some (path, s)
  | count + 1, path, s =>
      if s.result.isNone then playJourney count (path ++ [s]) (step s).state else none

theorem Journey.play {count : Nat} (journey : Journey settings actions path s)
    (played : playJourney count path s = some (path', s')) : Journey settings actions path' s' := by
  induction count generalizing path s with
  | zero =>
    cases played
    exact journey
  | succ count ih =>
    unfold playJourney at played
    split at played
    · rename_i unfinished
      exact ih (journey.step (Option.isNone_iff_eq_none.mp unfinished)) played
    · cases played

theorem playJourney_append (count : Nat) (earlier path : List Simulation) (s : Simulation) :
    playJourney count (earlier ++ path) s =
      (playJourney count path s).map fun played => (earlier ++ played.1, played.2) := by
  induction count generalizing path s with
  | zero => rfl
  | succ count ih =>
    unfold playJourney
    rw [List.append_assoc, ih]
    split
    · rfl
    · rfl

theorem Journey.playOn {count : Nat} {later : List Simulation}
    (journey : Journey settings actions path s)
    (played : playJourney count [] s = some (later, s')) :
    Journey settings actions (path ++ later) s' := by
  have played : playJourney count path s = some (path ++ later, s') := by
    have appended := playJourney_append count path [] s
    rw [List.append_nil, played] at appended
    exact appended
  exact journey.play played

end KernelSync.Simulation
