import KernelSync.Proofs.Advance

/-!
What a call without a wait can do. `Answers` lists it as `Advances` does for a stretch of a longer
call: the answer, and the kernel that the call leaves.
-/

namespace KernelSync

open Stretch Kernel

/-- What a short call can do to the kernel, and what it then answers. -/
inductive Answers (me : ThreadId) (k : Kernel) : ShortCall → Kernel → Bool → Prop where
  | takes {s : SemaphoreId} (permit : 0 < (k.semaphore s).count) :
      Answers me k (.tryDown s) (k.permitTaken s) true
  | refuses {s : SemaphoreId} (empty : (k.semaphore s).count = 0) :
      Answers me k (.tryDown s) k false
  | acquires {lock : Lock} (notMine : k.table.holder? lock.id ≠ some me)
      (permit : 0 < (k.semaphore lock.semaphore).count)
      (claims : (Lock.takeOwnership lock.id me k.mode.donates k.table).outcome = .ok ()) :
      Answers me k (.tryAcquire lock)
        ((k.permitTaken lock.semaphore).setTable
          (Lock.takeOwnership lock.id me k.mode.donates k.table).state) true
  | denies {lock : Lock} (notMine : k.table.holder? lock.id ≠ some me)
      (empty : (k.semaphore lock.semaphore).count = 0) :
      Answers me k (.tryAcquire lock) k false
  | looks {lock : Lock} :
      Answers me k (.held lock) k (decide (k.table.holder? lock.id = some me))

variable {me : ThreadId} {k k' : Kernel} {answer : Bool} {events : List Event}

theorem inSection_eq_ok {α : Type} {body : Nat → Stretch Kernel α} {a : α}
    (run : inSection body k = ⟨.ok a, k', events⟩) :
    ∃ mid reported, body k.depth { k with depth := k.depth + 1 } = ⟨.ok a, mid, reported⟩ ∧
      k' = { mid with depth := k.depth } := by
  rw [inSection_run] at run
  rcases hbody : body k.depth { k with depth := k.depth + 1 } with ⟨outcome, mid, reported⟩
  rw [hbody] at run
  cases run
  exact ⟨mid, reported, rfl, rfl⟩

theorem answers_of_tryDown (quiet : k.Quiet) {s : SemaphoreId}
    (run : (ShortCall.tryDown s).run me k = ⟨.ok answer, k', events⟩) :
    Answers me k (.tryDown s) k' answer := by
  obtain ⟨mid, reported, tries, rfl⟩ := inSection_eq_ok run
  rw [Semaphore.tryDown_run (quiet.withDepth _)] at tries
  by_cases permit : 0 < (k.semaphore s).count
  · have permit' : 0 < (({ k with depth := k.depth + 1 } : Kernel).semaphore s).count := permit
    rw [if_pos permit'] at tries
    cases tries
    exact .takes permit
  · have permit' : ¬ 0 < (({ k with depth := k.depth + 1 } : Kernel).semaphore s).count := permit
    rw [if_neg permit'] at tries
    cases tries
    exact .refuses (Nat.eq_zero_of_not_pos permit)

/-- To try a lock is to take its permit and then its ownership. -/
theorem tryAcquire_run (quiet : k.Quiet) (lock : Lock) : Lock.tryAcquire me lock k =
    if k.table.holder? lock.id = some me then ⟨.error (.retried me lock.id), k, []⟩
    else if 0 < (k.semaphore lock.semaphore).count then
      match Lock.takeOwnership lock.id me k.mode.donates k.table with
      | ⟨.ok (), table, events⟩ =>
          ⟨.ok true, (k.permitTaken lock.semaphore).setTable table,
            events ++ [.log (.tryAcquired me lock.id)]⟩
      | ⟨.error fault, table, events⟩ =>
          ⟨.error fault, (k.permitTaken lock.semaphore).setTable table, events⟩
    else ⟨.ok false, k, [.log (.tryRefused me lock.id)]⟩ := by
  have reads : withThreads (Stretch.read (·.holder? lock.id)) k =
      ⟨.ok (k.table.holder? lock.id), k, []⟩ :=
    withThreads_looks quiet.threads (looks_read _)
  unfold Lock.tryAcquire
  rw [bind_run_ok reads]
  by_cases mine : k.table.holder? lock.id = some me
  · rw [if_pos mine, bind_run_error (require_run_of_not (by simp [mine]) _ _)]
    rfl
  · rw [if_neg mine, bind_run_ok (require_run mine _ _), bind_run, Semaphore.tryDown_run quiet]
    by_cases permit : 0 < (k.semaphore lock.semaphore).count
    · have calm : (k.permitTaken lock.semaphore).threads.busy = false := quiet.threads
      have takes := withThreads_run calm (Lock.takeOwnership lock.id me k.mode.donates)
      have same : (k.permitTaken lock.semaphore).table = k.table := rfl
      rw [same] at takes
      rw [if_pos permit, if_pos permit]
      rcases owns : Lock.takeOwnership lock.id me k.mode.donates k.table with
        ⟨fault | ⟨⟩, table, events⟩
      · rw [owns] at takes
        simp only [Kernel.permitTaken] at takes
        simp [bind_run, takes, Kernel.permitTaken]
      · rw [owns] at takes
        simp only [Kernel.permitTaken] at takes
        simp [bind_run, takes, log_run, Kernel.permitTaken]
    · rw [if_neg permit, if_neg permit]
      simp [bind_run, log_run]

theorem answers_of_tryAcquire (quiet : k.Quiet) {lock : Lock}
    (run : (ShortCall.tryAcquire lock).run me k = ⟨.ok answer, k', events⟩) :
    Answers me k (.tryAcquire lock) k' answer := by
  obtain ⟨mid, reported, tries, rfl⟩ := inSection_eq_ok run
  have deeper : Quiet { k with depth := k.depth + 1 } := quiet.withDepth _
  rw [tryAcquire_run deeper] at tries
  split at tries
  · exact nomatch tries
  rename_i notMine
  split at tries
  · rename_i permit
    have claims : Lock.takeOwnership lock.id me
        ({ k with depth := k.depth + 1 } : Kernel).mode.donates
        ({ k with depth := k.depth + 1 } : Kernel).table =
          Lock.takeOwnership lock.id me k.mode.donates k.table := rfl
    rw [claims] at tries
    rcases owns : Lock.takeOwnership lock.id me k.mode.donates k.table with
      ⟨fault | ⟨⟩, table, claimed⟩
    · rw [owns] at tries
      exact nomatch tries
    · rw [owns] at tries
      cases tries
      have other : k.table.holder? lock.id ≠ some me := notMine
      have reached := Answers.acquires other permit (congrArg Run.outcome owns)
      rw [owns] at reached
      exact reached
  · rename_i refused
    cases tries
    exact .denies notMine (Nat.eq_zero_of_not_pos refused)

/-- The list of what a short call can do is complete. -/
theorem answers_of_ok (quiet : k.Quiet) {call : ShortCall}
    (run : call.run me k = ⟨.ok answer, k', events⟩) : Answers me k call k' answer := by
  cases call with
  | tryDown s => exact answers_of_tryDown quiet run
  | tryAcquire lock => exact answers_of_tryAcquire quiet run
  | held lock =>
    obtain ⟨mid, reported, looks, rfl⟩ := inSection_eq_ok run
    obtain ⟨holder, k₁, _, _, reads, rest, -⟩ := bind_eq_ok.mp looks
    unfold Lock.readHolder at reads
    have deeper : Quiet { k with depth := k.depth + 1 } := quiet.withDepth _
    rw [withThreads_looks deeper.threads (looks_read _)] at reads
    cases reads
    cases rest
    exact .looks

theorem Answers.quiet {call : ShortCall} (answers : Answers me k call k' answer)
    (quiet : k.Quiet) : k'.Quiet := by
  cases answers with
  | takes => exact quiet.setSemaphore _ _
  | refuses => exact quiet
  | acquires => exact (quiet.setSemaphore _ _).setTable _
  | denies => exact quiet
  | looks => exact quiet

theorem Answers.condvars_length {me : ThreadId} {k k' : Kernel} {call : ShortCall} {answer : Bool}
    (answers : Answers me k call k' answer) : k'.condvars.length = k.condvars.length := by
  cases answers <;> rfl

theorem Answers.inInterrupt {me : ThreadId} {k k' : Kernel} {call : ShortCall} {answer : Bool}
    (answers : Answers me k call k' answer) : k'.inInterrupt = k.inInterrupt := by
  cases answers <;> rfl

end KernelSync
