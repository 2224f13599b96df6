import KernelSync.Proofs.TurnCases

/-!
The list of what a turn can do is complete (`turn_of_ok`): each action, each other thing pending in a
script and each stretch of a call is followed to its end, and is one of the cases of `Turn`.
-/

namespace KernelSync.Simulation

open Stretch hiding pure bind
open Kernel

variable {s s₁ s₂ : Simulation} {t : SimThread} {kernel : Kernel} {queue : RunQueue}
  {script rest : List Pending} {events : List Event}

/-- To put something on the script, and to make a call. -/
theorem Shifts.push (has : s.Has s.current) (shifts : Shifts s s₁ t kernel queue)
    {pending : Pending} {result : Unit}
    (run : Simulation.push pending s₁ = ⟨.ok result, s₂, events⟩) :
    Shifts s s₂ { t with script := pending :: t.script } kernel queue := by
  cases run
  exact shifts.modify has fun _ => rfl

theorem Shifts.setCall (has : s.Has s.current) (shifts : Shifts s s₁ t kernel queue)
    {frames : List Frame} {result : Unit}
    (run : Simulation.setCall frames s₁ = ⟨.ok result, s₂, events⟩) :
    Shifts s s₂ { t with call := frames } kernel queue := by
  cases run
  exact shifts.modify has fun _ => rfl

/-- The simulation with a new thread that is ready, and a semaphore for its end. -/
def joinedBy (s : Simulation) (t : SimThread) (table : ThreadTable) : Simulation :=
  { s.withThread t with
    kernel := { (s.kernel.setTable table).addSemaphore 0 with depth := s.kernel.depth + 1 }
    queue := { s.queue with ready := s.queue.ready ++ [t.id] } }

/-! ### Actions -/

section Perform

variable {action : Action} {actions : List Action} {result : Unit} (quiet : s.kernel.Quiet)
  (has : s.Has s.current) (idle : s.currentThread.call = [])
  (due : s.currentThread.script = .actions (action :: actions) :: rest)
  (shifts : Shifts s s₁ { s.currentThread with script := .actions actions :: rest }
    s.kernel s.queue)

include idle due shifts in
/-- An action that is over at once. -/
theorem turn_of_act : Turn s s₁ none := .thinks idle due .acts (shifts.idle idle)

include quiet idle due shifts in
/-- An action that is over when that has been reported. -/
theorem turn_of_conclude {name : String} {reply : Reply}
    (run : conclude name reply s₁ = ⟨.ok result, s₂, events⟩) : Turn s s₂ none := by
  have calm : s₁.kernel.Quiet := shifts.kernel_eq ▸ quiet
  obtain rfl := conclude_eq_ok calm run
  exact turn_of_act idle due shifts

include quiet has idle shifts in
theorem turn_of_short {made : ShortCall}
    (due : s.currentThread.script = .actions (.short made :: actions) :: rest)
    (run : perform (.short made) s₁ = ⟨.ok result, s₂, events⟩) : Turn s s₂ none := by
  have calm : s₁.kernel.Quiet := shifts.kernel_eq ▸ quiet
  obtain ⟨me, mid, _, _, reads, rest, -⟩ := bind_eq_ok.mp run
  cases reads
  obtain ⟨answer, mid, _, _, asks, rest, -⟩ := bind_eq_ok.mp rest
  obtain ⟨kernel, answers, rfl⟩ := inKernel_eq_ok.mp asks
  obtain ⟨⟨⟩, mid, _, _, notes, concludes, -⟩ := bind_eq_ok.mp rest
  cases notes
  have answered : kernel.Quiet := (answers_of_ok calm answers).quiet calm
  obtain rfl := conclude_eq_ok answered concludes
  dsimp only at answers
  rw [shifts.current, shifts.kernel_eq] at answers
  exact .answers idle due answers ((shifts.withKernel kernel).modify has fun _ => rfl)

include has shifts in
/-- To join a thread is to begin to wait for the permit that tells of its end. -/
theorem shifts_of_join {name : String} {handle : JoinHandle}
    (found : (s₁.joinable.find? fun handle => handle.name = name) = some handle)
    (run : perform (.join name) s₁ = ⟨.ok result, s₂, events⟩) :
    Shifts s s₂
      { s.currentThread with
        call := [.call (.down handle.exited)]
        script := .over "join" .done :: .actions actions :: rest }
      s.kernel s.queue := by
  obtain ⟨joinable, mid, _, _, reads, goesOn, -⟩ := bind_eq_ok.mp run
  cases reads
  simp only [found] at goesOn
  obtain ⟨⟨⟩, mid, _, _, forgets, goesOn, -⟩ := bind_eq_ok.mp goesOn
  cases forgets
  obtain ⟨⟨⟩, mid, _, _, logs, goesOn, -⟩ := bind_eq_ok.mp goesOn
  cases logs
  obtain ⟨⟨⟩, mid, _, _, pushes, calls, -⟩ := bind_eq_ok.mp goesOn
  have fewer : Shifts s { s₁ with joinable := s₁.joinable.filter (·.name ≠ name) }
      { s.currentThread with script := .actions actions :: _ } s.kernel s.queue :=
    shifts.aside rfl rfl rfl rfl rfl fun other mem => Or.inl (List.mem_of_mem_filter mem)
  exact (fewer.push has pushes).setCall has calls

include quiet has idle shifts in
theorem turn_of_join {name : String} (same : s₁.joinable = s.joinable)
    (due : s.currentThread.script = .actions (.join name :: actions) :: rest)
    (run : perform (.join name) s₁ = ⟨.ok result, s₂, events⟩) : Turn s s₂ none := by
  cases found : s₁.joinable.find? fun handle => handle.name = name with
  | none =>
    obtain ⟨joinable, mid, _, _, reads, goesOn, -⟩ := bind_eq_ok.mp run
    cases reads
    simp only [found] at goesOn
    exact turn_of_conclude quiet idle due shifts goesOn
  | some handle =>
    have mem : handle ∈ s.joinable := same ▸ List.mem_of_find?_eq_some found
    exact .thinks idle due (.joins mem) (shifts_of_join has shifts found run)

include quiet has idle shifts in
theorem turn_of_setPriority {level : Nat}
    (due : s.currentThread.script = .actions (.setPriority level :: actions) :: rest)
    (run : perform (.setPriority level) s₁ = ⟨.ok result, s₂, events⟩) : Turn s s₂ none := by
  have calm : s₁.kernel.Quiet := shifts.kernel_eq ▸ quiet
  obtain ⟨priority, mid, _, _, checks, rest, -⟩ := bind_eq_ok.mp run
  obtain ⟨-, rfl⟩ := ofExcept_eq_ok checks
  obtain ⟨me, mid, _, _, reads, rest, -⟩ := bind_eq_ok.mp rest
  cases reads
  obtain ⟨saved, mid, _, _, enters, rest, -⟩ := bind_eq_ok.mp rest
  cases enters
  obtain ⟨effective, mid, _, _, guarded, rest, -⟩ := bind_eq_ok.mp rest
  obtain ⟨mode, mid', _, _, reads, changes, -⟩ := bind_eq_ok.mp (onFault_eq_ok guarded)
  cases reads
  obtain ⟨kernel, accesses, rfl⟩ := inKernel_eq_ok.mp changes
  obtain ⟨table, works, rfl⟩ := (withThreads_eq_ok (calm.withDepth _)).mp accesses
  obtain ⟨⟨⟩, mid, _, _, logs, rest, -⟩ := bind_eq_ok.mp rest
  cases logs
  obtain ⟨⟨⟩, mid, _, _, pushes, calls, -⟩ := bind_eq_ok.mp rest
  have after := ((shifts.withKernel _).push has pushes).setCall has calls
  dsimp only [setKernel] at works after
  rw [shifts.current, shifts.kernel_eq] at works
  rw [shifts.kernel_eq] at after
  exact .rebases idle due works after

include has shifts in
/-- Only outside handlers does a handler begin. -/
theorem shifts_of_interrupt {script : List Action}
    (run : interrupt script s₁ = ⟨.ok result, s₂, events⟩) :
    s.kernel.inInterrupt = false ∧ Shifts s s₂
      { s.currentThread with
        script := .actions script :: .handler s.kernel.depth :: .handlerReturned ::
          .over "interrupt" .done :: .actions actions :: rest }
      { s.kernel with depth := s.kernel.depth + 1, inInterrupt := true } s.queue := by
  unfold interrupt at run
  obtain ⟨inside, mid, _, _, reads, rest, -⟩ := bind_eq_ok.mp run
  cases reads
  obtain ⟨⟨⟩, mid, _, _, checks, begins, -⟩ := bind_eq_ok.mp rest
  obtain ⟨outside, rfl⟩ := require_eq_ok checks
  obtain ⟨⟨⟩, mid, _, _, sets, rest, -⟩ := bind_eq_ok.mp begins
  cases sets
  obtain ⟨saved, mid, _, _, enters, rest, -⟩ := bind_eq_ok.mp rest
  cases enters
  obtain ⟨⟨⟩, _, _, _, ends, rest, -⟩ := bind_eq_ok.mp rest
  obtain ⟨⟨⟩, _, _, _, returns, rest, -⟩ := bind_eq_ok.mp rest
  obtain ⟨⟨⟩, _, _, _, leaves, begins, -⟩ := bind_eq_ok.mp rest
  have after :=
    ((((shifts.withKernel _).push has ends).push has returns).push has leaves).push has begins
  dsimp only [setKernel] at outside after
  rw [shifts.kernel_eq] at outside after
  exact ⟨by simpa using outside, after⟩

include quiet has idle shifts in
theorem turn_of_spawn {name : String} {level : Nat} {script : List Action}
    {disguise : Option Disguise} (same : s₁.joinable = s.joinable)
    (due : s.currentThread.script = .actions (.spawn name level script disguise :: actions) :: rest)
    (run : spawn name level script disguise s₁ = ⟨.ok result, s₂, events⟩) : Turn s s₂ none := by
  have calm : s₁.kernel.Quiet := shifts.kernel_eq ▸ quiet
  unfold spawn at run
  obtain ⟨priority, mid, _, _, checks, begins, -⟩ := bind_eq_ok.mp run
  obtain ⟨ranked, unmoved⟩ := ofExcept_eq_ok checks
  rw [unmoved] at begins
  obtain ⟨saved, mid, _, _, enters, adds, -⟩ := bind_eq_ok.mp begins
  cases enters
  obtain ⟨outcome, mid, _, _, tries, goesOn, -⟩ := bind_eq_ok.mp adds
  obtain ⟨kernel, accesses, rfl⟩ := inKernel_eq_ok.mp (onFault_eq_ok tries)
  obtain ⟨table, works, rfl⟩ := (withThreads_eq_ok (calm.withDepth _)).mp accesses
  cases outcome with
  | error reason =>
    obtain ⟨⟨⟩, mid, _, _, leaves, concludes, -⟩ := bind_eq_ok.mp goesOn
    cases leaves
    obtain rfl : table = s₁.kernel.table := by
      unfold ThreadTable.spawn at works
      split at works
      · cases works
        rfl
      · split at works
        · cases works
        · cases works
    exact turn_of_conclude quiet idle due (shifts.kernel_eq ▸ shifts.withKernel s₁.kernel) concludes
  | ok id =>
    obtain ⟨⟨⟩, mid, _, _, asks, goesOn, -⟩ := bind_eq_ok.mp goesOn
    obtain ⟨named, rfl⟩ := require_eq_ok (onFault_eq_ok asks)
    obtain ⟨exited, mid, _, _, news, goesOn, -⟩ := bind_eq_ok.mp goesOn
    cases news
    obtain ⟨⟨⟩, mid, _, _, joins, goesOn, -⟩ := bind_eq_ok.mp goesOn
    cases joins
    obtain ⟨⟨⟩, mid, _, _, logs, goesOn, -⟩ := bind_eq_ok.mp goesOn
    cases logs
    obtain ⟨⟨⟩, mid, _, _, unblocks, goesOn, -⟩ := bind_eq_ok.mp goesOn
    obtain ⟨notReady, lined⟩ := unblock_eq_ok (onFault_eq_ok unblocks)
    replace notReady : id ∉ s₁.queue.ready := notReady
    replace lined : mid = s₁.joinedBy (.fresh id name script disguise s₁.kernel.nextSemaphore)
        table := lined
    obtain ⟨⟨⟩, mid', _, _, ends, goesOn, -⟩ := bind_eq_ok.mp goesOn
    obtain ⟨⟨⟩, mid'', _, _, knows, calls, -⟩ := bind_eq_ok.mp goesOn
    have here : mid.Has mid.current := by
      rw [lined]
      exact has_withThread.mpr (Or.inl ((shifts.has _).mpr (shifts.current ▸ has)))
    have after := (((shifts_self mid).push here ends).push here knows).setCall here calls
    have was : s₁.Has s₁.current := (shifts.has _).mpr (shifts.current ▸ has)
    have running : mid.currentThread =
        { s.currentThread with script := .actions actions :: rest } := by
      rw [← shifts.currentThread, lined]
      exact thread_withThread.trans (if_pos was)
    rw [running] at after
    have joinable : s₂.joinable = mid.joinable := by
      cases ends
      cases knows
      cases calls
      rfl
    have same_current : mid.current = s.current := by
      rw [lined]
      exact shifts.current
    have lookups : ∀ u, mid.thread u = if s.Has u then s₁.thread u else if u = id then
        .fresh id name script disguise s₁.kernel.nextSemaphore else .absent := by
      intro u
      rw [lined]
      exact thread_withThread.trans (if_congr (shifts.has u) rfl rfl)
    have adds' : ThreadTable.spawn name priority s₁.kernel.table = ⟨.ok (.ok id), table, _⟩ := works
    rw [shifts.kernel_eq] at adds'
    refine .spawns idle due adds' (shifts.queue_eq ▸ notReady) ?_ ?_
      (after.current.trans same_current) ?_ ?_ ?_ ?_ ?_ ranked named
    · rw [after.kernel_eq, lined, ← shifts.kernel_eq]
      rfl
    · rw [after.queue_eq, lined, ← shifts.queue_eq]
      rfl
    · rw [after.main, lined]
      exact shifts.main
    · intro u
      rw [after.thread, same_current, lookups, shifts.kernel_eq]
      by_cases here : u = s.current
      · rw [if_pos here, if_pos here]
        rfl
      · rw [if_neg here, if_neg here, shifts.thread, if_neg here]
    · intro u
      rw [after.has, lined]
      exact has_withThread.trans (or_congr (shifts.has u) Iff.rfl)
    · rw [joinable, lined]
      exact same
    · rw [after.ids, lined, ← shifts.ids]
      exact ids_withThread

include quiet idle due shifts in
theorem turn_of_showPriority {id : ThreadId}
    (run : showPriority id s₁ = ⟨.ok result, s₂, events⟩) : Turn s s₂ none := by
  have calm : s₁.kernel.Quiet := shifts.kernel_eq ▸ quiet
  obtain ⟨effective, mid, _, _, asks, goesOn, -⟩ := bind_eq_ok.mp run
  obtain rfl := askTable_eq_ok ThreadTable.inspects_priority.looks calm asks
  obtain ⟨base, mid', _, _, asks', concludes, -⟩ := bind_eq_ok.mp goesOn
  obtain rfl := askTable_eq_ok ThreadTable.inspects_basePriority.looks calm asks'
  exact turn_of_conclude quiet idle due shifts concludes

include quiet has idle due shifts in
/-- What an action other than a yield can do. -/
theorem turn_of_perform (same : s₁.joinable = s.joinable) (stays : action ≠ .yield)
    (run : perform action s₁ = ⟨.ok result, s₂, events⟩) : Turn s s₂ none := by
  have calm : s₁.kernel.Quiet := shifts.kernel_eq ▸ quiet
  cases action with
  | call made =>
    obtain ⟨⟨⟩, mid, _, _, pushes, calls, -⟩ := bind_eq_ok.mp run
    exact .thinks idle due .calls ((shifts.push has pushes).setCall has calls)
  | short made => exact turn_of_short quiet has idle shifts due run
  | permits x =>
    obtain ⟨count, mid, _, _, reads, goesOn, -⟩ := bind_eq_ok.mp run
    obtain rfl := inSection_looks (readCount_looks x) calm reads
    obtain ⟨waiters, mid', _, _, reads', concludes, -⟩ := bind_eq_ok.mp goesOn
    obtain rfl := inSection_looks (readWaiterCount_looks x) calm reads'
    exact turn_of_conclude quiet idle due shifts concludes
  | holder lock =>
    obtain ⟨holder, mid, _, _, reads, concludes, -⟩ := bind_eq_ok.mp run
    obtain rfl := inSection_looks (readHolder_looks lock) calm reads
    exact turn_of_conclude quiet idle due shifts concludes
  | registrations c =>
    obtain ⟨waiters, mid, _, _, reads, concludes, -⟩ := bind_eq_ok.mp run
    obtain rfl := inSection_looks (readWaiterCount_looks_condvar c) calm reads
    exact turn_of_conclude quiet idle due shifts concludes
  | waitWhile c lock condition =>
    exact .thinks idle due .waitsWhile ((shifts.push has run).idle idle)
  | spawn name level script disguise => exact turn_of_spawn quiet has idle shifts same due run
  | join name => exact turn_of_join quiet has idle shifts same due run
  | yield => exact absurd rfl stays
  | setPriority level => exact turn_of_setPriority quiet has idle shifts due run
  | priority =>
    obtain ⟨me, mid, _, _, reads, shows, -⟩ := bind_eq_ok.mp run
    cases reads
    exact turn_of_showPriority quiet idle due shifts shows
  | priorityOf name =>
    obtain ⟨known, mid, _, _, reads, answers, -⟩ := bind_eq_ok.mp run
    cases reads
    cases found : s₁.known.find? fun entry => entry.1 = name with
    | some entry =>
      simp only [found] at answers
      exact turn_of_showPriority quiet idle due shifts answers
    | none =>
      simp only [found] at answers
      exact turn_of_conclude quiet idle due shifts answers
  | threads =>
    obtain ⟨live, mid, _, _, asks, concludes, -⟩ := bind_eq_ok.mp run
    obtain rfl := askTable_eq_ok (looks_read _) calm asks
    exact turn_of_conclude quiet idle due shifts concludes
  | snapshot =>
    obtain ⟨records, mid, _, _, asks, concludes, -⟩ := bind_eq_ok.mp run
    obtain rfl := askTable_eq_ok (looks_read _) calm asks
    exact turn_of_conclude quiet idle due shifts concludes
  | mode | inInterrupt | showKernel =>
    obtain ⟨text, mid, _, _, reads, concludes, -⟩ := bind_eq_ok.mp run
    cases reads
    exact turn_of_conclude quiet idle due shifts concludes
  | note | foreign => exact turn_of_conclude quiet idle due shifts run
  | interrupt script =>
    obtain ⟨outside, after⟩ := shifts_of_interrupt has shifts run
    exact .interrupts idle due outside after
  | set index value =>
    cases run
    exact turn_of_act idle due
      (shifts.aside rfl rfl rfl rfl rfl fun _ mem => Or.inl mem)
  | add index amount =>
    obtain ⟨value, mid, _, _, reads, goesOn, -⟩ := bind_eq_ok.mp run
    cases reads
    obtain ⟨⟨⟩, mid, _, _, sets, concludes, -⟩ := bind_eq_ok.mp goesOn
    have moved : Shifts s mid { s.currentThread with script := .actions actions :: rest }
        s.kernel s.queue := by
      cases sets
      exact shifts.aside rfl rfl rfl rfl rfl fun _ mem => Or.inl mem
    exact turn_of_conclude quiet idle due moved concludes
  | times count script => exact .thinks idle due .repeats ((shifts.push has run).idle idle)
  | ifLast yes no =>
    obtain ⟨last, mid, _, _, reads, pushes, -⟩ := bind_eq_ok.mp run
    cases reads
    exact .thinks idle due (.chooses _) ((shifts.push has pushes).idle idle)
  | branch condition yes no =>
    obtain ⟨holds, mid, _, _, reads, pushes, -⟩ := bind_eq_ok.mp run
    cases reads
    exact .thinks idle due (.branches _) ((shifts.push has pushes).idle idle)
  | attempt script =>
    obtain ⟨⟨⟩, mid, _, _, pushes, begins, -⟩ := bind_eq_ok.mp run
    exact .thinks idle due .attempts (((shifts.push has pushes).push has begins).idle idle)
  | raise | raiseWithoutText | nested | unknown => cases run

end Perform

/-! ### Other pending things -/

section Proceed

variable {pending : Pending} {how : Option Switch} (quiet : s.kernel.Quiet)
  (has : s.Has s.current) (idle : s.currentThread.call = [])
  (due : s.currentThread.script = pending :: rest)
  (shifts : Shifts s s₁ { s.currentThread with script := rest } s.kernel s.queue)

include quiet idle due shifts in
/-- Something pending that is over when that has been reported. -/
theorem turn_of_report {name : String} {reply : Reply} {result : Unit}
    (unrolls : Unrolls s pending [] [])
    (run : conclude name reply s₁ = ⟨.ok result, s₂, events⟩) : Turn s s₂ none := by
  have calm : s₁.kernel.Quiet := shifts.kernel_eq ▸ quiet
  obtain rfl := conclude_eq_ok calm run
  exact .thinks idle due unrolls (shifts.idle idle)

include has in
theorem shifts_of_yield (shifts : Shifts s s₁ t s.kernel s.queue)
    (run : yieldUntil s₁ = ⟨.ok how, s₂, events⟩) :
    how = some .yield ∧ Shifts s s₂ { t with call := [.leave s.kernel.depth] }
      { s.kernel with depth := s.kernel.depth + 1 } s.queue := by
  obtain ⟨saved, mid, _, _, enters, goesOn, -⟩ := bind_eq_ok.mp run
  cases enters
  obtain ⟨⟨⟩, mid, _, _, calls, ends, -⟩ := bind_eq_ok.mp goesOn
  cases ends
  have after := (shifts.withKernel _).setCall has calls
  dsimp only [setKernel] at after
  rw [shifts.kernel_eq] at after
  exact ⟨rfl, after⟩

include quiet has idle shifts in
theorem turn_of_actions {action : Action} {actions : List Action}
    (due : s.currentThread.script = .actions (action :: actions) :: rest)
    (same : s₁.joinable = s.joinable)
    (run : proceedUntil (.actions (action :: actions)) s₁ = ⟨.ok how, s₂, events⟩) :
    Turn s s₂ how := by
  by_cases yields : action = .yield
  · subst yields
    obtain ⟨⟨⟩, mid, _, _, pushes, goesOn, -⟩ := bind_eq_ok.mp run
    obtain ⟨⟨⟩, mid', _, _, ends, gives, -⟩ := bind_eq_ok.mp goesOn
    obtain ⟨rfl, after⟩ := shifts_of_yield has ((shifts.push has pushes).push has ends) gives
    exact .yields idle due after
  · have plain : proceedUntil (.actions (action :: actions)) =
        (proceed (.actions (action :: actions)) >>= fun _ => Pure.pure none) := by
      cases action <;> first | rfl | exact absurd rfl yields
    rw [plain] at run
    obtain ⟨⟨⟩, mid, _, _, does, ends, -⟩ := bind_eq_ok.mp run
    cases ends
    obtain ⟨⟨⟩, mid', _, _, pushes, performs, -⟩ := bind_eq_ok.mp does
    have still : mid'.joinable = s.joinable := by
      cases pushes
      exact same
    exact turn_of_perform quiet has idle due (shifts.push has pushes) still yields performs

include quiet has idle shifts in
theorem turn_of_remove {saved : Nat} (due : s.currentThread.script = .remove saved :: rest)
    (run : proceedUntil (.remove saved) s₁ = ⟨.ok how, s₂, events⟩) : Turn s s₂ how := by
  have calm : s₁.kernel.Quiet := shifts.kernel_eq ▸ quiet
  obtain ⟨me, mid, _, _, reads, goesOn, -⟩ := bind_eq_ok.mp run
  cases reads
  obtain ⟨r, mid, _, _, guarded, goesOn, -⟩ := bind_eq_ok.mp goesOn
  obtain ⟨kernel, accesses, rfl⟩ := inKernel_eq_ok.mp (onFault_eq_ok guarded)
  obtain ⟨table, removes, rfl⟩ := (withThreads_eq_ok calm).mp accesses
  obtain ⟨⟨⟩, mid, _, _, logs, goesOn, -⟩ := bind_eq_ok.mp goesOn
  cases logs
  obtain ⟨⟨⟩, mid, _, _, clears, ends, -⟩ := bind_eq_ok.mp goesOn
  cases clears
  cases ends
  have removes' : ThreadTable.remove s₁.current s₁.kernel.table = ⟨.ok r, table, _⟩ := removes
  rw [shifts.current, shifts.kernel_eq] at removes'
  refine .exits idle due removes' ?_
  have after := (shifts.withKernel (setTable table s₁.kernel)).modify
    (f := fun t => { t with script := [] }) has fun _ => rfl
  exact shifts.kernel_eq ▸ after

include quiet has idle shifts in
theorem turn_of_finish {exited : SemaphoreId}
    (due : s.currentThread.script = .finish exited :: rest)
    (run : proceed (.finish exited) s₁ = ⟨.ok (), s₂, events⟩) : Turn s s₂ none := by
  have calm : s₁.kernel.Quiet := shifts.kernel_eq ▸ quiet
  obtain ⟨⟨⟩, mid, _, _, concludes, goesOn, -⟩ := bind_eq_ok.mp run
  obtain rfl := conclude_eq_ok calm concludes
  obtain ⟨saved, mid', _, _, enters, goesOn, -⟩ := bind_eq_ok.mp goesOn
  cases enters
  obtain ⟨⟨⟩, mid', _, _, pushes, calls, -⟩ := bind_eq_ok.mp goesOn
  have after := ((shifts.withKernel _).push has pushes).setCall has calls
  dsimp only [setKernel] at after
  rw [shifts.kernel_eq] at after
  exact .finishes idle due after

include quiet has idle due shifts in
/-- What something pending can do. -/
theorem turn_of_proceed (same : s₁.joinable = s.joinable)
    (run : proceedUntil pending s₁ = ⟨.ok how, s₂, events⟩) : Turn s s₂ how := by
  cases pending with
  | actions list =>
    cases list with
    | nil =>
      cases run
      exact .thinks idle due .ended (shifts.idle idle)
    | cons action actions => exact turn_of_actions quiet has idle shifts due same run
  | handlerReturned =>
    obtain ⟨t, mid, _, _, reads, goesOn, -⟩ := bind_eq_ok.mp run
    cases reads
    have flag : s₁.currentThread.yieldOnReturn = s.currentThread.yieldOnReturn := by
      rw [shifts.currentThread]
    cases asked : s.currentThread.yieldOnReturn with
    | false =>
      rw [if_neg (by simp [flag, asked])] at goesOn
      cases goesOn
      exact .returns idle due asked shifts
    | true =>
      rw [if_pos (by simp [flag, asked])] at goesOn
      obtain ⟨⟨⟩, mid, _, _, forgets, goesOn, -⟩ := bind_eq_ok.mp goesOn
      cases forgets
      obtain ⟨⟨⟩, mid, _, _, logs, gives, -⟩ := bind_eq_ok.mp goesOn
      cases logs
      obtain ⟨rfl, after⟩ := shifts_of_yield has
        (shifts.modify (f := fun t => { t with yieldOnReturn := false }) has fun _ => rfl) gives
      exact .yieldsOnReturn idle due asked after
  | remove saved => exact turn_of_remove quiet has idle shifts due run
  | start =>
    obtain ⟨⟨⟩, mid, _, _, starts, ends, -⟩ := bind_eq_ok.mp run
    cases ends
    obtain ⟨me, mid, _, _, reads, goesOn, -⟩ := bind_eq_ok.mp starts
    cases reads
    obtain ⟨⟨⟩, mid, _, _, logs, concludes, -⟩ := bind_eq_ok.mp goesOn
    cases logs
    exact turn_of_report quiet idle due shifts .start concludes
  | times count script =>
    obtain ⟨⟨⟩, mid, _, _, counts, ends, -⟩ := bind_eq_ok.mp run
    cases ends
    cases count with
    | zero =>
      cases counts
      exact .thinks idle due .timesOver (shifts.idle idle)
    | succ count =>
      obtain ⟨⟨⟩, mid', _, _, again, begins, -⟩ := bind_eq_ok.mp counts
      exact .thinks idle due .timesAgain
        (((shifts.push has again).push has begins).idle idle)
  | waiting c lock condition waits =>
    obtain ⟨⟨⟩, mid, _, _, tests, ends, -⟩ := bind_eq_ok.mp run
    cases ends
    obtain ⟨holds, mid', _, _, reads, goesOn, -⟩ := bind_eq_ok.mp tests
    cases reads
    split at goesOn
    · obtain ⟨⟨⟩, mid', _, _, pushes, calls, -⟩ := bind_eq_ok.mp goesOn
      exact .thinks idle due .waits ((shifts.push has pushes).setCall has calls)
    · exact turn_of_report quiet idle due shifts .waited goesOn
  | «over» action reply =>
    obtain ⟨⟨⟩, mid, _, _, concludes, ends, -⟩ := bind_eq_ok.mp run
    cases ends
    exact turn_of_report quiet idle due shifts .reports concludes
  | known name id exited =>
    obtain ⟨⟨⟩, mid, _, _, knows, ends, -⟩ := bind_eq_ok.mp run
    cases ends
    have after : Shifts s s₂ { s.currentThread with script := rest } s.kernel s.queue := by
      cases knows
      refine shifts.aside rfl rfl rfl rfl rfl fun handle mem => ?_
      rcases List.mem_cons.mp mem with rfl | mem
      · rw [due]
        exact Or.inr List.mem_cons_self
      · exact Or.inl (List.mem_of_mem_filter mem)
    exact .thinks idle due .known (after.idle idle)
  | attempt =>
    obtain ⟨⟨⟩, mid, _, _, concludes, ends, -⟩ := bind_eq_ok.mp run
    cases ends
    exact turn_of_report quiet idle due shifts .attempt concludes
  | handler saved =>
    obtain ⟨⟨⟩, mid, _, _, leaves, ends, -⟩ := bind_eq_ok.mp run
    cases ends
    obtain ⟨⟨⟩, mid', _, _, restores, goesOut, -⟩ := bind_eq_ok.mp leaves
    cases restores
    cases goesOut
    have after := shifts.withKernel { s₁.kernel with depth := saved, inInterrupt := false }
    rw [shifts.kernel_eq] at after
    exact .handled idle due (shifts.kernel_eq ▸ after)
  | disguise disguise =>
    cases run
    exact .thinks idle due .disguise (shifts.idle idle)
  | returned =>
    obtain ⟨⟨⟩, mid, _, _, ends, finishes, -⟩ := bind_eq_ok.mp run
    cases finishes
    have after : Shifts s s₂ { s.currentThread with script := rest } s.kernel s.queue := by
      cases ends
      exact shifts.aside rfl rfl rfl rfl rfl fun _ mem => Or.inl mem
    exact .thinks idle due .returned (after.idle idle)
  | finish exited =>
    obtain ⟨⟨⟩, mid, _, _, begins, ends, -⟩ := bind_eq_ok.mp run
    cases ends
    exact turn_of_finish quiet has idle shifts due begins

end Proceed

/-! ### Calls -/

section Goes

variable {how : Option Switch} {progress : Progress} (has : s.Has s.current)
  (shifts : Shifts s s₁ { s.currentThread with call := progress.frames } kernel s.queue)

include has shifts in
/-- What a check for preemption can do. -/
theorem heeds_of_check (calm : kernel.Quiet) (run : checkUntil s₁ = ⟨.ok how, s₂, events⟩) :
    ∃ flag, Heeds s kernel .check s.queue flag how ∧ Shifts s s₂
      { s.currentThread with call := progress.frames, yieldOnReturn := flag } kernel s.queue := by
  have quiet : s₁.kernel.Quiet := shifts.kernel_eq ▸ calm
  obtain ⟨me, mid, _, _, reads, goesOn, -⟩ := bind_eq_ok.mp run
  cases reads
  obtain ⟨ready, mid, _, _, reads, goesOn, -⟩ := bind_eq_ok.mp goesOn
  cases reads
  obtain ⟨outranked, mid, _, _, compares, goesOn, -⟩ := bind_eq_ok.mp goesOn
  obtain ⟨kernel', accesses, rfl⟩ := inKernel_eq_ok.mp compares
  obtain ⟨table, works, rfl⟩ := (withThreads_eq_ok quiet).mp accesses
  obtain ⟨urgency, mid, _, _, asks, searches, -⟩ := bind_eq_ok.mp works
  obtain ⟨rfl, rfl⟩ := priority_eq_ok asks
  obtain ⟨rfl, above⟩ := anyAbove_eq_ok searches
  have same : ({ s₁ with kernel := setTable s₁.kernel.table s₁.kernel } : Simulation) = s₁ := rfl
  rw [same] at goesOn
  cases outranked with
  | false =>
    cases goesOn
    refine ⟨_, .calm fun u mem => ?_, shifts⟩
    rw [← shifts.queue_eq] at mem
    rw [← shifts.kernel_eq, ← shifts.current]
    exact Nat.le_of_not_lt fun higher => nomatch above.mpr ⟨u, mem, higher⟩
  | true =>
    have higher : ∃ u ∈ s₁.queue.ready,
        Donation.rank s₁.kernel.table s₁.current < Donation.rank s₁.kernel.table u := above.mp rfl
    rw [shifts.kernel_eq, shifts.queue_eq, shifts.current] at higher
    obtain ⟨inside, mid, _, _, reads, goesOn, -⟩ := bind_eq_ok.mp goesOn
    cases reads
    cases inside : s₁.kernel.inInterrupt with
    | true =>
      rw [if_pos inside] at goesOn
      obtain ⟨⟨⟩, mid, _, _, notes, ends, -⟩ := bind_eq_ok.mp goesOn
      cases notes
      cases ends
      exact ⟨true, .defers (shifts.kernel_eq ▸ inside) higher, shifts.modify has fun _ => rfl⟩
    | false =>
      rw [if_neg (by simp [inside])] at goesOn
      obtain ⟨⟨⟩, mid, _, _, logs, ends, -⟩ := bind_eq_ok.mp goesOn
      cases logs
      cases ends
      exact ⟨_, .preempts (shifts.kernel_eq ▸ inside) higher, shifts⟩

end Goes

/-- What a thread inside a call can do. -/
theorem turn_of_call {how : Option Switch} (quiet : s.kernel.Quiet) (has : s.Has s.current)
    (busy : s.currentThread.call ≠ [])
    (run : advanceCallUntil s.current s.currentThread.call s = ⟨.ok how, s₁, events⟩) :
    Turn s s₁ how := by
  obtain ⟨⟨⟩, mid, _, _, clears, goesOn, -⟩ := bind_eq_ok.mp run
  have cleared := (shifts_self s).setCall has clears
  obtain ⟨progress, mid', _, _, steps, goesOn, -⟩ := bind_eq_ok.mp goesOn
  obtain ⟨kernel, stepped, rfl⟩ := inKernel_eq_ok.mp steps
  obtain ⟨⟨⟩, mid'', _, _, calls, goesOn, -⟩ := bind_eq_ok.mp goesOn
  have shifts := (cleared.withKernel kernel).setCall has calls
  rw [cleared.kernel_eq] at stepped
  cases requested : progress.request with
  | proceed =>
    rw [requested] at goesOn
    cases goesOn
    exact .goes busy stepped (requested ▸ .proceeds) shifts
  | block =>
    rw [requested] at goesOn
    obtain ⟨⟨⟩, mid, _, _, logs, ends, -⟩ := bind_eq_ok.mp goesOn
    cases logs
    cases ends
    exact .goes busy stepped (requested ▸ .blocks) shifts
  | unblock id =>
    rw [requested] at goesOn
    obtain ⟨⟨⟩, mid, _, _, unblocks, ends, -⟩ := bind_eq_ok.mp goesOn
    cases ends
    obtain ⟨notReady, lined⟩ := unblock_eq_ok unblocks
    rw [shifts.queue_eq] at notReady lined
    subst lined
    exact .goes busy stepped (requested ▸ .wakes notReady) (shifts.withQueue _)
  | check =>
    rw [requested] at goesOn
    have calm : kernel.Quiet := by
      cases frames : s.currentThread.call with
      | nil => exact absurd frames busy
      | cons head rest =>
        rw [frames] at stepped
        obtain ⟨advance, advances, -⟩ := step_eq_ok stepped
        exact (advances_of_ok quiet advances).quiet quiet
    obtain ⟨flag, heeds, after⟩ := heeds_of_check has shifts calm goesOn
    exact .goes busy stepped (requested ▸ heeds) after

/-- The list of what a turn can do is complete. -/
theorem turn_of_ok {how : Option Switch} (quiet : s.kernel.Quiet) (has : s.Has s.current)
    (run : untilSwitch s = ⟨.ok how, s₁, events⟩) : Turn s s₁ how := by
  obtain ⟨t, mid, _, _, reads, goesOn, -⟩ := bind_eq_ok.mp run
  cases reads
  cases call : s.currentThread.call with
  | nil =>
    cases script : s.currentThread.script with
    | nil =>
      simp only [call, script] at goesOn
      cases goesOn
      exact .rests call script
    | cons pending rest =>
      simp only [call, script] at goesOn
      obtain ⟨⟨⟩, mid, _, _, takes, proceeds, -⟩ := bind_eq_ok.mp goesOn
      cases takes
      have shifts := (shifts_self s).modify (f := fun t => { t with script := rest }) has fun _ => rfl
      exact turn_of_proceed quiet has call script shifts rfl proceeds
  | cons head frames =>
    have busy : s.currentThread.call ≠ [] := by simp [call]
    simp only [call] at goesOn
    rw [← call, show s.currentThread.id = s.current from thread_id has] at goesOn
    exact turn_of_call quiet has busy goesOn

/-- A thread between calls performs the next action of its script, if that is not to yield. -/
theorem performs_of_untilSwitch {how : Option Switch} {action : Action} {actions : List Action}
    (has : s.Has s.current) (idle : s.currentThread.call = [])
    (due : s.currentThread.script = .actions (action :: actions) :: rest) (stays : action ≠ .yield)
    (run : untilSwitch s = ⟨.ok how, s₁, events⟩) :
    how = none ∧ ∃ mid reported,
      Shifts s mid { s.currentThread with script := .actions actions :: rest } s.kernel s.queue ∧
        mid.joinable = s.joinable ∧ perform action mid = ⟨.ok (), s₁, reported⟩ := by
  obtain ⟨_, mid, _, _, reads, goesOn, -⟩ := bind_eq_ok.mp run
  cases reads
  simp only [idle, due] at goesOn
  obtain ⟨⟨⟩, mid, _, _, takes, proceeds, -⟩ := bind_eq_ok.mp goesOn
  cases takes
  rw [proceedUntil_action stays] at proceeds
  obtain ⟨⟨⟩, mid, _, _, does, ends, -⟩ := bind_eq_ok.mp proceeds
  cases ends
  obtain ⟨⟨⟩, mid, _, _, pushes, performs, -⟩ := bind_eq_ok.mp does
  have taken := (shifts_self s).modify (f := fun t => { t with script := rest }) has fun _ => rfl
  have same : mid.joinable = s.joinable := by
    cases pushes
    rfl
  exact ⟨rfl, mid, _, taken.push has pushes, same, performs⟩

end KernelSync.Simulation
