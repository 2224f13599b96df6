import KernelSync.Proofs.CutTurns
import KernelSync.Proofs.Deadlocks

/-!
Turns that fail. Where whoever is about to be made ready is not, and nobody in the run queue is gone, a
turn that fails leaves the run queue, the wait lists and all other threads as they were
(`lingers_of_fails`), and so does what becomes of the fault unless a failure is recorded. Nobody comes
or goes, with one exception: a thread whose creation fails for its name is in the table by then, and
stays there (`Strays`).
-/

namespace KernelSync.Simulation

open Stretch hiding pure bind
open Kernel

variable {s s' s₁ : Simulation} {id t u : ThreadId} {fault : Fault} {name : String} {level : Nat}
  {script actions : List Action} {disguise : Option Disguise} {table : ThreadTable}

/-- The running thread is about to have another made ready: one that it wakes, or one that it has
made. -/
inductive Unblocks (s : Simulation) : ThreadId → Prop where
  | wakes {id : ThreadId} {progress : Progress} {kernel : Kernel} {events : List Event}
      (busy : s.currentThread.call ≠ [])
      (steps : Frame.step s.current s.currentThread.call s.kernel =
        ⟨.ok progress, kernel, events⟩)
      (asks : progress.request = .unblock id) : Unblocks s id
  | makes {id : ThreadId} {name : String} {level : Nat} {script actions : List Action}
      {disguise : Option Disguise} {rest : List Pending} {priority : Priority}
      {table : ThreadTable} {events : List Event} (idle : s.currentThread.call = [])
      (due : s.currentThread.script =
        .actions (.spawn name level script disguise :: actions) :: rest)
      (ranked : Priority.ofLevel level = .ok priority)
      (adds : ThreadTable.spawn name priority s.kernel.table = ⟨.ok (.ok id), table, events⟩)
      (named : '\x00' ∉ name.toList) : Unblocks s id

/-- The running thread is about to make a thread that cannot have its name: it is added to the table,
and then its creation fails. -/
inductive Strays (s : Simulation) : ThreadId → Prop where
  | intro {id : ThreadId} {name : String} {level : Nat} {script actions : List Action}
      {disguise : Option Disguise} {rest : List Pending} {priority : Priority}
      {table : ThreadTable} {events : List Event} (idle : s.currentThread.call = [])
      (due : s.currentThread.script =
        .actions (.spawn name level script disguise :: actions) :: rest)
      (ranked : Priority.ofLevel level = .ok priority)
      (adds : ThreadTable.spawn name priority s.kernel.table = ⟨.ok (.ok id), table, events⟩)
      (unnamed : '\x00' ∈ name.toList) : Strays s id

/-! ### What a failed turn leaves -/

/-- The running thread has lost some of what it had to do, and the kernel is not the same. But nobody
has come into the run queue or a wait list, and nobody has come or gone who does not stray. -/
structure Lingers (s s' : Simulation) : Prop where
  current : s'.current = s.current
  queue : s'.queue = s.queue
  joinable : s'.joinable = s.joinable
  others : ∀ u, u ≠ s.current → s'.thread u = s.thread u
  call : ∀ frame ∈ s'.currentThread.call, frame ∈ s.currentThread.call
  script : ∀ p ∈ s'.currentThread.script, p ∈ s.currentThread.script ∨
    ∃ action actions, p = .actions actions ∧ .actions (action :: actions) ∈ s.currentThread.script
  quiet : s'.kernel.Quiet
  lists : SameLists s.kernel s'.kernel
  live : ∀ t, s'.kernel.table.contains t = true ↔
    s.kernel.table.contains t = true ∨ s.Strays t

theorem thread_modifyCurrent {f : SimThread → SimThread} (keeps : ∀ t, (f t).id = t.id)
    (u : ThreadId) : (s.modifyCurrent f).thread u = s.thread u ∨
      u = s.current ∧ (s.modifyCurrent f).thread u = f s.currentThread := by
  by_cases has : s.Has s.current
  · have changed : (s.modifyCurrent f).thread u =
        if u = s.current then f s.currentThread else s.thread u := thread_modifyThread keeps has
    by_cases here : u = s.current
    · exact Or.inr ⟨here, changed.trans (if_pos here)⟩
    · exact Or.inl (changed.trans (if_neg here))
  · exact Or.inl (congrArg (Simulation.thread · u) (modifyThread_of_absent has))

/-- The running thread may lose more of what it had to do. -/
theorem Lingers.modify (lingers : Lingers s s') {f : SimThread → SimThread}
    (keeps : ∀ t, (f t).id = t.id)
    (call : ∀ frame ∈ (f s'.currentThread).call, frame ∈ s'.currentThread.call)
    (script : ∀ p ∈ (f s'.currentThread).script, p ∈ s'.currentThread.script) :
    Lingers s (s'.modifyCurrent f) := by
  have threads := thread_modifyCurrent (s := s') keeps
  have now : (s'.modifyCurrent f).currentThread = s'.currentThread ∨
      (s'.modifyCurrent f).currentThread = f s'.currentThread :=
    (threads s'.current).imp_right And.right
  refine { lingers with others := fun u apart => ?_, call := ?_, script := ?_ }
  · have same := (threads u).resolve_right fun both => apart (both.1.trans lingers.current)
    exact same.trans (lingers.others u apart)
  · rcases now with same | changed
    · rw [same]
      exact lingers.call
    · rw [changed]
      exact fun frame mem => lingers.call frame (call frame mem)
  · rcases now with same | changed
    · rw [same]
      exact lingers.script
    · rw [changed]
      exact fun p mem => lingers.script p (script p mem)

theorem Lingers.withKernel (lingers : Lingers s s') {k : Kernel} (untouched : Untouched s'.kernel k) :
    Lingers s { s' with kernel := k } :=
  { lingers with
    quiet := untouched.quiet
    lists :=
      ⟨fun x => (untouched.queue x).trans (lingers.lists.queue x),
        untouched.length.trans lingers.lists.length⟩
    live := fun t => by rw [← lingers.live t]; exact Bool.eq_iff_iff.mp (untouched.live t) }

theorem Lingers.beside (lingers : Lingers s s₁) (beside : Beside s₁ s') : Lingers s s' := by
  obtain ⟨k, rfl, untouched⟩ := beside
  exact lingers.withKernel (untouched lingers.quiet)

/-- To unwind the running thread takes more from it, and nothing else. -/
theorem Lingers.unwind (lingers : Lingers s s') (fault : Fault) :
    Lingers s (unwind fault s').state := by
  rcases unwound_of_unwind s' fault with beside | unwound
  · exact lingers.beside beside
  · obtain ⟨mid, script, escaped, beside, suffix, is⟩ := unwound
    obtain ⟨k, rfl, untouched⟩ := beside
    rw [is]
    exact (lingers.withKernel (untouched lingers.quiet)).modify (fun _ => rfl)
      (List.forall_mem_nil _) fun p mem => suffix.subset mem

/-- The running thread has taken the head off its script. -/
theorem lingers_withScript {script : List Pending} {k : Kernel}
    (shorter : ∀ p ∈ script, p ∈ s.currentThread.script ∨
      ∃ action actions, p = .actions actions ∧
        .actions (action :: actions) ∈ s.currentThread.script)
    (quiet : k.Quiet) (lists : SameLists s.kernel k)
    (live : ∀ t, k.table.contains t = true ↔ s.kernel.table.contains t = true ∨ s.Strays t) :
    Lingers s { s.modifyCurrent ({ · with script }) with kernel := k } := by
  let taken : Simulation := { s.modifyCurrent ({ · with script }) with kernel := k }
  have threads : ∀ u, taken.thread u = s.thread u ∨
      u = s.current ∧ taken.thread u = { s.currentThread with script } :=
    thread_modifyCurrent (f := ({ · with script })) fun _ => rfl
  have now : taken.currentThread = s.currentThread ∨
      taken.currentThread = { s.currentThread with script } :=
    (threads s.current).imp_right And.right
  refine ⟨rfl, rfl, rfl, fun u apart => ?_, ?_, ?_, quiet, lists, live⟩
  · exact (threads u).resolve_right fun both => apart both.1
  · rcases now with same | changed
    · rw [same]
      exact fun _ mem => mem
    · rw [changed]
      exact fun _ mem => mem
  · rcases now with same | changed
    · rw [same]
      exact fun _ mem => Or.inl mem
    · rw [changed]
      exact shorter

theorem shorter_of_pop {pending : Pending} {rest : List Pending}
    (due : s.currentThread.script = pending :: rest) :
    ∀ p ∈ rest, p ∈ s.currentThread.script ∨ ∃ action actions, p = .actions actions ∧
      .actions (action :: actions) ∈ s.currentThread.script :=
  fun _ mem => Or.inl (due ▸ List.mem_cons_of_mem _ mem)

theorem shorter_of_goesOn {action : Action} {rest : List Pending}
    (due : s.currentThread.script = .actions (action :: actions) :: rest) :
    ∀ p ∈ Pending.actions actions :: rest, p ∈ s.currentThread.script ∨
      ∃ action actions, p = .actions actions ∧
        .actions (action :: actions) ∈ s.currentThread.script := by
  intro p mem
  rcases List.mem_cons.mp mem with rfl | mem
  · exact Or.inr ⟨action, actions, rfl, due ▸ List.mem_cons_self⟩
  · exact shorter_of_pop due p mem

/-- What holds of a failing turn that does not stray. -/
theorem trails_lingers (quiet : s.kernel.Quiet) (plain : ∀ t, ¬ s.Strays t) :
    Trails s (Lingers s) where
  pops := fun due => lingers_withScript (shorter_of_pop due) quiet (sameLists_of_semaphores rfl)
    fun t => (or_iff_left (plain t)).symm
  goesOn := fun due => lingers_withScript (shorter_of_goesOn due) quiet
    (sameLists_of_semaphores rfl) fun t => (or_iff_left (plain t)).symm
  kernel := fun _ _ lingers untouched => lingers.withKernel (untouched lingers.quiet)
  answers := fun lingers => lingers.modify (fun _ => rfl) (fun _ mem => mem) fun _ mem => mem
  stores := fun lingers => { lingers with }

/-! ### Spawns -/

/-- A thread that is created can have its name, and it is the last in the queue. -/
theorem named_of_spawn {priority : Priority} {reported events : List Event} {result : Unit}
    (run : spawn name level actions disguise s = ⟨.ok result, s₁, events⟩) (quiet : s.kernel.Quiet)
    (ranked : Priority.ofLevel level = .ok priority)
    (adds : ThreadTable.spawn name priority s.kernel.table = ⟨.ok (.ok id), table, reported⟩) :
    '\x00' ∉ name.toList ∧ s₁.queue.ready = s.queue.ready ++ [id] := by
  unfold spawn at run
  obtain ⟨_, mid, _, _, checks, begins, -⟩ := bind_eq_ok.mp run
  obtain ⟨ranked', rfl⟩ := ofExcept_eq_ok checks
  cases ranked.symm.trans ranked'
  obtain ⟨saved, mid, _, _, enters, tries, -⟩ := bind_eq_ok.mp begins
  cases enters
  obtain ⟨outcome, mid, _, _, tries, goesOn, -⟩ := bind_eq_ok.mp tries
  obtain ⟨kernel, accesses, rfl⟩ := inKernel_eq_ok.mp (onFault_eq_ok tries)
  obtain ⟨after, works, rfl⟩ := (withThreads_eq_ok (quiet.withDepth _)).mp accesses
  cases adds.symm.trans works
  obtain ⟨⟨⟩, mid, _, _, checked, goesOn, -⟩ := bind_eq_ok.mp goesOn
  obtain ⟨named, rfl⟩ := require_eq_ok (onFault_eq_ok checked)
  obtain ⟨exited, mid, _, _, news, goesOn, -⟩ := bind_eq_ok.mp goesOn
  cases news
  obtain ⟨⟨⟩, mid, _, _, joins, goesOn, -⟩ := bind_eq_ok.mp goesOn
  cases joins
  obtain ⟨⟨⟩, mid, _, _, logs, goesOn, -⟩ := bind_eq_ok.mp goesOn
  cases logs
  obtain ⟨⟨⟩, mid, _, _, unblocks, goesOn, -⟩ := bind_eq_ok.mp goesOn
  obtain ⟨-, rfl⟩ := unblock_eq_ok (onFault_eq_ok unblocks)
  obtain ⟨⟨⟩, mid, _, _, ends, goesOn, -⟩ := bind_eq_ok.mp goesOn
  cases ends
  obtain ⟨⟨⟩, mid, _, _, knows, calls, -⟩ := bind_eq_ok.mp goesOn
  cases knows
  cases calls
  exact ⟨named, rfl⟩

/-- The table answers, and what comes next has its answer. -/
theorem inKernel_withThreads_run {α : Type} {a : α} {x : Stretch ThreadTable α} {events : List Event}
    (quiet : s.kernel.Quiet) (run : x s.kernel.table = ⟨.ok a, table, events⟩) :
    inKernel (withThreads x) s = ⟨.ok a, { s with kernel := s.kernel.setTable table }, events⟩ := by
  unfold inKernel within
  rw [withThreads_run quiet.threads, run]
  rfl

/-- A thread that is not ready can be made ready. -/
theorem unblock_not_error (absent : id ∉ s.queue.ready) :
    (unblock id s).outcome ≠ .error fault := by
  unfold unblock
  rw [bind_run_ok (read_run _ _), if_neg absent]
  exact nofun

/-- A spawn that fails has added nobody to the table, or has added a thread that it cannot name, or one
that is ready. -/
theorem spawn_of_fails (quiet : s.kernel.Quiet) (arena : ThreadTable.Arena s.kernel.table)
    (fails : (spawn name level actions disguise s).outcome = .error fault) :
    (∀ priority id table events, Priority.ofLevel level = .ok priority →
        ThreadTable.spawn name priority s.kernel.table ≠ ⟨.ok (.ok id), table, events⟩) ∧
      Beside s (spawn name level actions disguise s).state ∨
    ∃ priority id table events, Priority.ofLevel level = .ok priority ∧
      ThreadTable.spawn name priority s.kernel.table = ⟨.ok (.ok id), table, events⟩ ∧
      ('\x00' ∈ name.toList ∧ (spawn name level actions disguise s).state =
          { s with kernel := s.kernel.setTable table } ∨
        '\x00' ∉ name.toList ∧ id ∈ s.queue.ready) := by
  have tolerant : Tolerant (Beside s) := tolerant_beside
  unfold spawn at fails ⊢
  cases ranked : Priority.ofLevel level with
  | error other => exact Or.inl ⟨nofun, s.kernel, rfl, .refl⟩
  | ok priority =>
    let deeper : Simulation := { s with kernel := { s.kernel with depth := s.kernel.depth + 1 } }
    let leaves : Stretch Simulation Unit := inKernel (Kernel.leave s.kernel.depth)
    have checks : ofExcept (.ok priority) s = ⟨.ok priority, s, []⟩ := rfl
    have enters : inKernel Kernel.enter s = ⟨.ok s.kernel.depth, deeper, [.entered s.kernel.depth]⟩ :=
      rfl
    rw [ranked] at fails
    rw [bind_run_ok checks, bind_run_ok enters] at fails ⊢
    by_cases full : s.kernel.table.capacity ≤ s.kernel.table.live
    · have refuses : ∀ priority, ThreadTable.spawn name priority s.kernel.table =
          ⟨.ok (.error ⟨s.kernel.table.capacity⟩), s.kernel.table, []⟩ :=
        fun _ => ThreadTable.spawn_full full
      have tries : onFault (inKernel (withThreads (ThreadTable.spawn name priority))) leaves deeper =
          ⟨.ok (.error ⟨s.kernel.table.capacity⟩), deeper, []⟩ :=
        onFault_run_ok (inKernel_withThreads_run (quiet.withDepth _) (refuses priority))
      have ends : Lasts (Beside s) (leaves >>= fun _ =>
          conclude "spawn" (.exhausted ⟨s.kernel.table.capacity⟩)) :=
        triple_bind (tolerant.asks still_leave) fun _ => tolerant.conclude
      rw [bind_run_ok tries] at fails ⊢
      refine Or.inl ⟨fun other id table events _ adds => ?_, ?_⟩
      · cases (refuses other).symm.trans adds
      · exact ends.fails.state ⟨_, rfl, still_enter s.kernel⟩ fails
    · obtain ⟨id, table, adds, -⟩ :=
        ThreadTable.spawn_gains arena (Nat.lt_of_not_le full) name priority
      let added : Simulation := { deeper with kernel := deeper.kernel.setTable table }
      have tries : onFault (inKernel (withThreads (ThreadTable.spawn name priority))) leaves deeper =
          ⟨.ok (.ok id), added, [.log (.threadAdded id priority)]⟩ :=
        onFault_run_ok (inKernel_withThreads_run (quiet.withDepth _) adds)
      refine Or.inr ⟨priority, id, table, _, rfl, adds, ?_⟩
      rw [bind_run_ok tries] at fails ⊢
      by_cases named : '\x00' ∈ name.toList
      · refine Or.inl ⟨named, ?_⟩
        have stops : onFault (require ('\x00' ∉ name.toList) (.nullInName name)) leaves added =
            ⟨.error (.nullInName name), (leaves added).state, [] ++ (leaves added).events⟩ :=
          onFault_run_error (require_run_of_not (not_not_intro named) _ added)
        dsimp only
        rw [bind_run_error stops]
        rfl
      · have passes : onFault (require ('\x00' ∉ name.toList) (.nullInName name)) leaves added =
            ⟨.ok (), added, []⟩ := onFault_run_ok (require_run named _ added)
        refine Or.inr ⟨named, ?_⟩
        by_contra absent
        dsimp only at fails
        rw [bind_run_ok passes] at fails
        obtain creates | ⟨exited, mid, _, creates, fails⟩ := error_of_bind fails
        · cases creates
        cases creates
        obtain joins | ⟨_, mid, _, joins, fails⟩ := error_of_bind fails
        · cases joins
        cases joins
        obtain logs | ⟨_, mid, _, logs, fails⟩ := error_of_bind fails
        · cases logs
        cases logs
        obtain unblocks | ⟨_, mid, _, -, fails⟩ := error_of_bind fails
        · exact absurd (error_of_onFault unblocks) (unblock_not_error absent)
        · cases fails

/-! ### Turns that fail -/

theorem anyAbove_run {list : List ThreadId} (live : ∀ t ∈ list, table.contains t = true)
    (urgency : Priority) : ∃ above, anyAbove urgency list table = ⟨.ok above, table, []⟩ := by
  induction list with
  | nil => exact ⟨false, rfl⟩
  | cons id rest ih =>
    unfold anyAbove
    rw [bind_run_ok (Donation.priority_run_rank (live id List.mem_cons_self))]
    split
    · exact ⟨true, rfl⟩
    · obtain ⟨above, run⟩ := ih fun t mem => live t (List.mem_cons_of_mem _ mem)
      rw [run]
      exact ⟨above, rfl⟩

/-- A check among live threads does not fail. -/
theorem checkUntil_not_error (quiet : s.kernel.Quiet)
    (live : ∀ t ∈ s.contenders none, s.kernel.table.contains t = true) :
    (checkUntil s).outcome ≠ .error fault := by
  have mine : s.kernel.table.contains s.current = true :=
    live _ (List.mem_append_right _ (List.mem_singleton.mpr rfl))
  have urgency := Donation.priority_run_rank mine
  have others : ∀ t ∈ s.queue.ready, s.kernel.table.contains t = true :=
    fun t mem => live t (List.mem_append_left _ mem)
  obtain ⟨above, compares⟩ := anyAbove_run others (Donation.rank s.kernel.table s.current)
  have asks : (ThreadTable.priority s.current >>= fun urgency => anyAbove urgency s.queue.ready)
      s.kernel.table = ⟨.ok above, s.kernel.table, []⟩ := by
    rw [bind_run_ok urgency, compares]
    rfl
  unfold checkUntil
  rw [bind_run_ok (read_run _ _), bind_run_ok (read_run _ _),
    bind_run_ok (inKernel_withThreads_run quiet asks)]
  dsimp only
  split
  · rw [bind_run_ok (read_run _ _)]
    split
    · exact nofun
    · exact nofun
  · exact nofun

section Fails

variable (intact : Intact s) (fresh : ∀ id, s.Unblocks id → id ∉ s.queue.ready)
  (live : ∀ t ∈ s.contenders none, s.kernel.table.contains t = true)
  (fails : (untilSwitch s).outcome = .error fault)
include intact fresh fails

omit intact fresh in
/-- A spawn that is due has failed when the turn has. -/
theorem spawn_of_cut {rest : List Pending} (idle : s.currentThread.call = [])
    (due : s.currentThread.script =
      .actions (.spawn name level script disguise :: actions) :: rest) :
    (spawn name level script disguise
        (s.modifyCurrent ({ · with script := .actions actions :: rest }))).outcome = .error fault ∧
      (untilSwitch s).state = (spawn name level script disguise
        (s.modifyCurrent ({ · with script := .actions actions :: rest }))).state := by
  have goesOn := untilSwitch_of_action idle due nofun
  have pops := bind_of_fails (x := perform (.spawn name level script disguise))
    (f := fun _ => (Pure.pure none : Stretch Simulation (Option Switch)))
    (fun _ _ => ⟨none, rfl⟩) (goesOn ▸ fails)
  exact ⟨pops.1, (congrArg Run.state goesOn).trans pops.2⟩

theorem lingers_of_spawn {rest : List Pending} (idle : s.currentThread.call = [])
    (due : s.currentThread.script =
      .actions (.spawn name level script disguise :: actions) :: rest) :
    Lingers s (untilSwitch s).state := by
  have quiet := intact.1.quiet
  obtain ⟨stops, state⟩ := spawn_of_cut fails idle due
  rw [state]
  rcases spawn_of_fails (s := s.modifyCurrent _) quiet intact.1.arena stops with
    ⟨never, beside⟩ | strays
  · have plain : ∀ t, ¬ s.Strays t := by
      rintro t ⟨-, due', ranked, adds, -⟩
      cases due.symm.trans due'
      exact never _ _ _ _ ranked adds
    exact ((trails_lingers quiet plain).goesOn due).beside beside
  · obtain ⟨priority, id, table, events, ranked, adds, ⟨unnamed, is⟩ | ⟨named, ready⟩⟩ := strays
    · have adds : ThreadTable.spawn name priority s.kernel.table = ⟨.ok (.ok id), table, events⟩ :=
        adds
      obtain ⟨-, full, -⟩ | ⟨_, ⟨⟩, gains⟩ := ThreadTable.spawn_eq_ok intact.1.arena adds
      · cases full
      rw [is]
      refine lingers_withScript (shorter_of_goesOn due) (quiet.setTable table)
        (sameLists_of_semaphores rfl) fun t => ?_
      have strays : s.Strays t ↔ t = id := by
        constructor
        · rintro ⟨-, due', ranked', adds', -⟩
          cases due.symm.trans due'
          cases ranked.symm.trans ranked'
          cases adds.symm.trans adds'
          rfl
        · rintro rfl
          exact ⟨idle, due, ranked, adds, unnamed⟩
      rw [strays, or_comm]
      exact gains.contains
    · exact absurd ready (fresh id (.makes idle due ranked adds named))

include live in
/-- A call fails in a stretch of its own, and not because of what it asks of the scheduler. -/
theorem stretch_of_cut (busy : s.currentThread.call ≠ []) : ∃ other kernel events,
    Frame.step s.current s.currentThread.call s.kernel = ⟨.error other, kernel, events⟩ ∧
      (untilSwitch s).state = { s.modifyCurrent ({ · with call := [] }) with kernel } := by
  have quiet := intact.1.quiet
  obtain ⟨head, frames, call⟩ := List.exists_cons_of_ne_nil busy
  have standing := intact.2.resolve_left fun idle => busy idle.1
  have same : s.currentThread.id = s.current := thread_id standing.has
  have goes : untilSwitch s = advanceCallUntil s.current (head :: frames) s := by
    unfold untilSwitch
    rw [bind_run_ok (read_run _ _), same, call]
    rfl
  let cleared : Simulation := s.modifyCurrent ({ · with call := [] })
  have clears : setCall [] s = ⟨.ok (), cleared, []⟩ := rfl
  rw [goes] at fails ⊢
  rw [call]
  unfold advanceCallUntil at fails ⊢
  rw [bind_run_ok clears] at fails ⊢
  rcases steps : Frame.step s.current (head :: frames) s.kernel with
    ⟨other | progress, kernel, events⟩
  · have stops : inKernel (Frame.step s.current (head :: frames)) cleared =
        ⟨.error other, { cleared with kernel }, events⟩ := inKernel_run steps
    rw [bind_run_error stops]
    exact ⟨other, kernel, events, rfl, rfl⟩
  · have ran : inKernel (Frame.step s.current (head :: frames)) cleared =
        ⟨.ok progress, { cleared with kernel }, events⟩ := inKernel_run steps
    let called : Simulation :=
      ({ cleared with kernel } : Simulation).modifyCurrent ({ · with call := progress.frames })
    have calls : setCall progress.frames { cleared with kernel } = ⟨.ok (), called, []⟩ := rfl
    rw [bind_run_ok ran, bind_run_ok calls] at fails
    obtain ⟨advance, advanced, rfl⟩ := step_eq_ok steps
    have advances := advances_of_ok quiet advanced
    cases asks : advance.request with
    | proceed | block =>
      dsimp only at fails
      rw [asks] at fails
      cases fails
    | unblock id =>
      dsimp only at fails
      rw [asks] at fails
      have wakes : s.Unblocks id := .wakes busy (call.symm ▸ steps) (by exact asks)
      have absent := fresh id wakes
      have unblocks := (bind_of_fails (fun _ _ => ⟨none, rfl⟩) fails).1
      exact absurd unblocks (unblock_not_error absent)
    | check =>
      dsimp only at fails
      rw [asks] at fails
      obtain rfl := advances.eq_of_check asks
      exact absurd fails (checkUntil_not_error (s := called) quiet live)

include live in
theorem lingers_of_call (busy : s.currentThread.call ≠ []) : Lingers s (untilSwitch s).state := by
  have quiet := intact.1.quiet
  have plain : ∀ t, ¬ s.Strays t := fun t ⟨idle, _, _, _, _⟩ => busy idle
  have begins : Lingers s (s.modifyCurrent ({ · with call := [] })) := by
    refine Lingers.modify ⟨rfl, rfl, rfl, fun _ _ => rfl, fun _ mem => mem, fun _ mem => Or.inl mem,
      quiet, sameLists_of_semaphores rfl, fun t => (or_iff_left (plain t)).symm⟩ (fun _ => rfl)
      (List.forall_mem_nil _) fun _ mem => mem
  obtain ⟨other, kernel, events, steps, state⟩ := stretch_of_cut intact fresh live fails busy
  obtain ⟨head, frames, call⟩ := List.exists_cons_of_ne_nil busy
  rw [call] at steps
  have untouched := Frame.untouched_of_fails quiet (congrArg Run.outcome steps)
  rw [steps] at untouched
  rw [state]
  exact begins.withKernel untouched

include live in
/-- Nobody is made ready in a turn that fails. -/
theorem not_unblocks_of_cut : ¬ s.Unblocks t := by
  intro unblocks
  have absent := fresh t unblocks
  cases unblocks with
  | wakes busy steps asks =>
    obtain ⟨_, _, _, stops, -⟩ := stretch_of_cut intact fresh live fails busy
    cases steps.symm.trans stops
  | makes idle due ranked adds named =>
    have stops := (spawn_of_cut fails idle due).1
    obtain ⟨never, -⟩ | ⟨_, _, _, _, ranked', adds', strays⟩ :=
      spawn_of_fails (s := s.modifyCurrent _) intact.1.quiet intact.1.arena stops
    · exact never _ _ _ _ ranked adds
    · cases ranked.symm.trans ranked'
      cases adds.symm.trans adds'
      exact strays.elim (fun strays => named strays.1) fun ready => absent ready.2

include live in
/-- A turn that fails leaves its traces in the running thread, and strays in the table. -/
theorem lingers_of_cut : Lingers s (untilSwitch s).state := by
  by_cases busy : s.currentThread.call = []
  case neg => exact lingers_of_call intact fresh live fails busy
  by_cases spawns : ∃ name level script disguise actions rest, s.currentThread.script =
    .actions (.spawn name level script disguise :: actions) :: rest
  · obtain ⟨name, level, script, disguise, actions, rest, due⟩ := spawns
    exact lingers_of_spawn intact fresh fails busy due
  · have plain : ∀ t, ¬ s.Strays t := fun t ⟨_, due, _, _, _⟩ => spawns ⟨_, _, _, _, _, _, due⟩
    exact (trails_lingers intact.1.quiet plain).of_idle busy (fun _ _ _ _ _ _ due =>
      spawns ⟨_, _, _, _, _, _, due⟩) fails

end Fails

/-! ### After the fault -/

/-- Who meets a fault is unwound. If that is not all, either the main thread has ended or a failure is
recorded. -/
theorem meet_eq (unfailed : (meet fault s).state.queue.failure = none) :
    ∃ result, (meet fault s).state = { (unwind fault s).state with result } := by
  have records : ∀ (c : Course) id name fault,
      (c.fail (.faulted id name fault)).queue.failure ≠ none := by
    intro c id name fault
    rw [c.failure_fail]
    exact nofun
  unfold meet at unfailed ⊢
  rw [bind_run_ok (read_run _ _)] at unfailed ⊢
  dsimp only at unfailed ⊢
  rcases run : unwind fault s with ⟨other | uncaught, mid, events⟩
  · rw [bind_run_error run]
    exact ⟨mid.result, rfl⟩
  rw [bind_run_ok run] at unfailed ⊢
  cases uncaught with
  | none => exact ⟨mid.result, rfl⟩
  | some fault =>
    dsimp only at unfailed ⊢
    rw [bind_run_ok (read_run _ _)] at unfailed ⊢
    by_cases main : s.currentThread.id = mid.main
    · rw [if_pos main]
      exact ⟨some (.error fault), rfl⟩
    · rw [if_neg main] at unfailed
      dsimp only at unfailed
      refine absurd unfailed
        (holds_bind (P := fun course => course.queue.failure ≠ none) ?_ fun _ => ?_)
      · exact records mid.course s.currentThread.id s.currentThread.name fault
      refine keeps_bind (keeps_catching (keeps_collapse fun _ _ _ _ _ => records _ _ _ _))
        fun ended => ?_
      cases ended with
      | ok => exact keeps_pure ()
      | error fault => exact keeps_bind (keeps_unwind fault) fun _ => keeps_endWith (fun _ _ => id) _

/-- A step whose turn fails leaves its traces in the running thread and strays in the table, if it
records no failure. -/
theorem lingers_of_fails (intact : Intact s) (fresh : ∀ id, s.Unblocks id → id ∉ s.queue.ready)
    (live : ∀ t ∈ s.contenders none, s.kernel.table.contains t = true)
    (fails : (untilSwitch s).outcome = .error fault)
    (unfailed : (step s).state.queue.failure = none) : Lingers s (step s).state := by
  have cut := lingers_of_cut intact fresh live fails
  rcases run : untilSwitch s with ⟨other | how, mid, events⟩
  · rw [run] at cut
    have stops : advance s = ⟨.error other, mid, events⟩ := by
      rw [advance_eq, bind_run_error run]
    have caught : catching advance s = ⟨.ok (.error other), mid, events⟩ := by
      unfold catching
      rw [stops]
    have met : (step s).state = (meet other mid).state := by
      unfold step
      rw [bind_run_ok caught]
    rw [met] at unfailed ⊢
    obtain ⟨result, is⟩ := meet_eq unfailed
    rw [is]
    exact { cut.unwind other with }
  · rw [run] at fails
    cases fails

end KernelSync.Simulation
