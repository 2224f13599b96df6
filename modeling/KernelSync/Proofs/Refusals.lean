import KernelSync.Proofs.Excluded

/-!
Refusals: the faults that answer a breach of a primitive's contract. For each place in a call
`Frame.refusal?` says when the stretch from there is refused, and with which fault. It is so just
then, and the kernel is left as it was (`advance_refused`, `refusal_of_advance`): whatever a
primitive changes it changes after it has made sure that it may.
-/

namespace KernelSync

open Stretch Kernel

/-- The caller has broken the contract of a primitive. -/
def Refusal : Fault → Prop
  | .exitHolding .. | .exitWaiting .. | .reacquired .. | .retried .. | .notReleasable ..
  | .lockNotHeld .. | .waitsInInterrupt _ | .countOverflow => True
  | _ => False

/-! ### What is refused -/

namespace Kernel

variable (k : Kernel)

/-- A handler may not wait. -/
def barsWait (call : WaitingCall) : Option Fault :=
  if k.inInterrupt then some (.waitsInInterrupt call) else none

/-- A thread may not acquire what it holds. -/
def barsHolder (me : ThreadId) (lock : LockId) (fault : Fault) : Option Fault :=
  if k.table.holder? lock = some me then some fault else none

/-- Only the holder may go on; `fault` is told who that is. -/
def barsOthers (me : ThreadId) (lock : LockId) (fault : Option ThreadId → Fault) : Option Fault :=
  if k.table.holder? lock = some me then none else some (fault (k.table.holder? lock))

/-- The largest count has no successor. -/
def barsPermit (s : SemaphoreId) : Option Fault :=
  if (k.semaphore s).count < Semaphore.maxCount then none else some .countOverflow

variable {k} {me : ThreadId} {lock : LockId} {fault : Fault}

theorem barsWait_eq_some {call : WaitingCall} : k.barsWait call = some fault ↔
    k.inInterrupt = true ∧ fault = .waitsInInterrupt call := by
  unfold barsWait
  split
  · rename_i inside
    simp [inside, eq_comm]
  · rename_i outside
    simp [outside]

theorem barsWait_eq_none {call : WaitingCall} : k.barsWait call = none ↔ k.inInterrupt = false := by
  simp [barsWait]

theorem barsHolder_eq_some {named : Fault} : k.barsHolder me lock named = some fault ↔
    k.table.holder? lock = some me ∧ fault = named := by
  simp [barsHolder, eq_comm]

theorem barsOthers_eq_some {named : Option ThreadId → Fault} :
    k.barsOthers me lock named = some fault ↔
      k.table.holder? lock ≠ some me ∧ fault = named (k.table.holder? lock) := by
  simp [barsOthers, eq_comm]

theorem barsPermit_eq_some {s : SemaphoreId} : k.barsPermit s = some fault ↔
    ¬ (k.semaphore s).count < Semaphore.maxCount ∧ fault = .countOverflow := by
  simp [barsPermit, eq_comm]

end Kernel

/-- What a call is refused with, if it is. -/
def Call.refusal? (me : ThreadId) (k : Kernel) : Call → Option Fault
  | .down _ => k.barsWait .down
  | .up s => k.barsPermit s
  | .acquire lock => (k.barsWait .acquire).or (k.barsHolder me lock.id (.reacquired me lock.id))
  | .release lock => k.barsOthers me lock.id (.notReleasable me lock.id)
  | .wait _ lock => (k.barsWait .wait).or (k.barsOthers me lock.id (.lockNotHeld .wait me lock.id))
  | .signal _ lock => k.barsOthers me lock.id (.lockNotHeld .signal me lock.id)
  | .broadcast _ lock => k.barsOthers me lock.id (.lockNotHeld .broadcast me lock.id)

/-- What the stretch from a place is refused with, if it is. -/
def Frame.refusal? (me : ThreadId) (k : Kernel) : Frame → Option Fault
  | .call (.down _) => k.barsWait .down
  | .call (.acquire _) => k.barsWait .acquire
  | .call (.wait c lock) => (Call.wait c lock).refusal? me k
  | .up s => k.barsPermit s
  | .acquire lock => k.barsHolder me lock.id (.reacquired me lock.id)
  | .giveUp lock => k.barsOthers me lock.id (.notReleasable me lock.id)
  | .claim purpose lock => k.barsOthers me lock.id (.lockNotHeld purpose me lock.id)
  | _ => none

variable {me : ThreadId} {k : Kernel} {fault : Fault}

/-- A call is refused before its section, or in the first stretch inside it. -/
theorem Call.refusal?_eq_or {call : Call} {head : Frame} {rest : List Frame}
    (opening : call.opening = some (head :: rest)) :
    call.refusal? me k = ((Frame.call call).refusal? me k).or (head.refusal? me k) := by
  cases call with
  | wait => cases opening
  | down | up | acquire | release | signal | broadcast =>
    cases opening
    simp [Call.refusal?, Frame.refusal?]

/-! ### Faults that are no refusals -/

theorem not_refusal_staleHandle (t : ThreadId) : ¬ Refusal (.staleHandle t) := not_false

theorem not_refusal_overlap (cell : CellId) : ¬ Refusal (.overlap cell) := not_false

/-- The computation is never refused. -/
abbrev Unrefused {σ α : Type} (x : Stretch σ α) : Prop := Avoids (fun _ => False) Refusal x

theorem unrefused_log {σ : Type} {entry : LogEntry} : Unrefused (log entry : Stretch σ Unit) :=
  avoids_report not_false

theorem tabular_unrefused : ∀ donates, Tabular Unrefused (fun fault => ¬ Refusal fault) donates :=
  ThreadTable.tabular_avoids not_refusal_staleHandle fun _ _ => not_false

theorem conveys_unrefused : Conveys Unrefused Unrefused (fun fault => ¬ Refusal fault)
    fun _ => True :=
  conveys_avoids not_refusal_staleHandle not_refusal_overlap fun _ _ => not_false

theorem Lock.unrefused_takeOwnership {lock : LockId} {donates : Bool} :
    Unrefused (Lock.takeOwnership lock me donates) :=
  (tabular_unrefused donates).takeOwnership fun _ => not_false

theorem Lock.unrefused_claim {lock : LockId} {donates : Bool} :
    Unrefused (Lock.claim lock me donates) :=
  (tabular_unrefused donates).claim fun _ => not_false

/-- Whoever does not hold a lock may register for it. -/
theorem Lock.refusal_of_register {lock : LockId} {donates : Bool} {table : ThreadTable}
    (fails : (Lock.register lock me donates table).outcome = .error fault)
    (refusal : Refusal fault) : table.holder? lock = some me := by
  unfold Lock.register at fails
  rw [bind_run_ok (read_run _ _)] at fails
  cases held : table.holder? lock with
  | none =>
    rw [held] at fails
    cases fails
  | some holder =>
    by_cases mine : holder = me
    · rw [mine]
    · rw [held] at fails
      replace fails := (congrArg Run.outcome (bind_run_ok (require_run mine _ _) _)).symm.trans fails
      have enrolls := (tabular_unrefused donates).enroll (fun _ _ _ => not_false)
        (fun _ _ => unrefused_log) me holder lock
      exact absurd refusal (enrolls.outcome _ _ fails)

/-- The holder is refused before anything is registered. -/
theorem Lock.register_refused {lock : LockId} {donates : Bool} {table : ThreadTable}
    (held : table.holder? lock = some me) :
    Lock.register lock me donates table = ⟨.error (.reacquired me lock), table, []⟩ := by
  unfold Lock.register
  rw [bind_run_ok (read_run _ _), held]
  exact bind_run_error (require_run_of_not (by simp) _ _) _

/-- Only the holder gives up a lock. -/
theorem Lock.refusal_of_giveUp {lock : LockId} {donates : Bool} {table : ThreadTable}
    (fails : (Lock.giveUp lock me donates table).outcome = .error fault)
    (refusal : Refusal fault) : table.holder? lock ≠ some me := by
  intro held
  unfold Lock.giveUp at fails
  rw [bind_run_ok (read_run _ _)] at fails
  replace fails := (congrArg Run.outcome (bind_run_ok (require_run held _ _) _)).symm.trans fails
  exact absurd refusal ((tabular_unrefused donates).withdraw.outcome _ _ fails)

theorem Lock.giveUp_refused {lock : LockId} {donates : Bool} {table : ThreadTable}
    (unheld : table.holder? lock ≠ some me) : Lock.giveUp lock me donates table =
      ⟨.error (.notReleasable me lock (table.holder? lock)), table, []⟩ := by
  unfold Lock.giveUp
  rw [bind_run_ok (read_run _ _), bind_run_error (require_run_of_not unheld _ _)]
  rfl

namespace Frame

theorem unrefused_takeOrQueue {lock : Lock} {donates : Bool} :
    Unrefused (takeOrQueue me lock donates) :=
  conveys_unrefused.takeOrQueue (avoids_withThreads not_false Lock.unrefused_claim)

/-! ### Stretches -/

/-- A call that may wait is refused to a handler. -/
theorem begin_refused {call : WaitingCall} {f : Unit → Stretch Kernel Progress}
    (inside : k.inInterrupt = true) :
    (requireCanWait call >>= f) k = ⟨.error (.waitsInInterrupt call), k, []⟩ :=
  bind_run_error ((requireCanWait_run call).trans (if_neg (by simp [inside]))) f

/-- A wait is refused to whoever does not hold the lock. -/
theorem wait_refused (quiet : k.Quiet) {c : CondvarId} {lock : Lock}
    (outside : k.inInterrupt = false) (unheld : k.table.holder? lock.id ≠ some me) :
    begin me (.wait c lock) k =
      ⟨.error (.lockNotHeld .wait me lock.id (k.table.holder? lock.id)), k,
        [.entered k.depth, .left (k.depth + 1) k.depth]⟩ := by
  have deeper : Quiet { k with depth := k.depth + 1 } := quiet.withDepth _
  have still : ¬ ({ k with depth := k.depth + 1 } : Kernel).table.holder? lock.id = some me := unheld
  have registers : inSection (fun _ => Condvar.register me c lock.id) k =
      ⟨.error (.lockNotHeld .wait me lock.id (k.table.holder? lock.id)), k,
        [.entered k.depth, .left (k.depth + 1) k.depth]⟩ := by
    rw [inSection_run, Condvar.register_run deeper, if_neg still]
    rfl
  exact (bind_run_ok ((requireCanWait_run .wait).trans (if_pos outside)) _).trans
    (by rw [bind_run_error registers]; rfl)

/-- A stretch that is refused ends there and then. -/
theorem advance_refused (quiet : k.Quiet) {frame : Frame}
    (refused : frame.refusal? me k = some fault) :
    ∃ events, frame.advance me k = ⟨.error fault, k, events⟩ := by
  cases frame with
  | call made =>
    cases made with
    | down x | acquire lock =>
      obtain ⟨inside, rfl⟩ := barsWait_eq_some.mp refused
      exact ⟨_, begin_refused inside⟩
    | wait c lock =>
      rcases Option.or_eq_some_iff.mp refused with barred | ⟨outside, barred⟩
      · obtain ⟨inside, rfl⟩ := barsWait_eq_some.mp barred
        exact ⟨_, begin_refused inside⟩
      · obtain ⟨unheld, rfl⟩ := barsOthers_eq_some.mp barred
        exact ⟨_, wait_refused quiet (barsWait_eq_none.mp outside) unheld⟩
    | up | release | signal | broadcast => cases refused
  | up x =>
    obtain ⟨full, rfl⟩ := barsPermit_eq_some.mp refused
    exact ⟨_, bind_run_error ((Semaphore.release_run quiet).trans (if_neg full)) _⟩
  | acquire lock =>
    obtain ⟨held, rfl⟩ := barsHolder_eq_some.mp refused
    rw [acquire_run quiet, Lock.register_refused held]
    exact ⟨_, rfl⟩
  | giveUp lock =>
    obtain ⟨unheld, rfl⟩ := barsOthers_eq_some.mp refused
    have gives : withThreads (Lock.giveUp lock.id me k.mode.donates) k =
        ⟨.error (.notReleasable me lock.id (k.table.holder? lock.id)), k, []⟩ := by
      rw [withThreads_run quiet.threads, Lock.giveUp_refused unheld]
      rfl
    exact ⟨_, (bind_run_ok (read_run _ _) _).trans (by rw [bind_run_error gives])⟩
  | claim purpose lock =>
    obtain ⟨unheld, rfl⟩ := barsOthers_eq_some.mp refused
    exact ⟨_, bind_run_error
      ((Condvar.requireHolds_run quiet.threads purpose).trans (if_neg unheld)) _⟩
  | down | downQueued | acquireQueued | check | signal | broadcast | signaled | leave => cases refused

/-- A wait that fails as it begins is refused. -/
theorem refusal_of_wait (quiet : k.Quiet) {c : CondvarId} {lock : Lock}
    (fails : (begin me (.wait c lock) k).outcome = .error fault) :
    ∃ other, (call (.wait c lock)).refusal? me k = some other := by
  refine Option.isSome_iff_exists.mp (Option.isSome_iff_ne_none.mpr fun none => ?_)
  obtain ⟨outside, mine⟩ := Option.or_eq_none_iff.mp none
  have held : k.table.holder? lock.id = some me := by
    by_contra unheld
    exact nomatch mine.symm.trans (barsOthers_eq_some.mpr ⟨unheld, rfl⟩)
  have deeper : Quiet { k with depth := k.depth + 1 } := quiet.withDepth _
  have still : ({ k with depth := k.depth + 1 } : Kernel).table.holder? lock.id = some me := held
  have mayWait := (requireCanWait_run (k := k) .wait).trans (if_pos (barsWait_eq_none.mp outside))
  replace fails := (congrArg Run.outcome (bind_run_ok mayWait _)).symm.trans fails
  rw [bind_run, inSection_run, Condvar.register_run deeper, if_pos still] at fails
  cases fails

/-- No other stretch ends in a refusal. -/
theorem refusal_of_advance (quiet : k.Quiet) {frame : Frame}
    (fails : (frame.advance me k).outcome = .error fault) (refusal : Refusal fault) :
    frame.refusal? me k = some fault := by
  have never : Unrefused (frame.advance me) → frame.refusal? me k = some fault :=
    fun unrefused => absurd refusal (unrefused.outcome _ _ fails)
  -- a stretch that would be refused with something else is not this one
  have same : (∃ other, frame.refusal? me k = some other) → frame.refusal? me k = some fault := by
    rintro ⟨other, refused⟩
    obtain ⟨events, run⟩ := advance_refused quiet refused
    rw [run] at fails
    cases fails
    exact refused
  cases frame with
  | call made =>
    cases made with
    | down | acquire =>
      refine same ⟨_, barsWait_eq_some.mpr ⟨?_, rfl⟩⟩
      by_contra outside
      have mayWait := fun call =>
        (requireCanWait_run (k := k) call).trans (if_pos (Bool.eq_false_iff.mpr outside))
      exact nomatch (congrArg Run.outcome (bind_run_ok (mayWait _) _)).symm.trans fails
    | wait c lock => exact same (refusal_of_wait quiet fails)
    | up | release | signal | broadcast => cases fails
  | up x =>
    refine same ⟨_, barsPermit_eq_some.mpr ⟨fun room => ?_, rfl⟩⟩
    have sorts : Unrefused (Donation.sortByPriority (k.semaphore x).waiters) :=
      Donation.inspects_sortByPriority.avoids not_refusal_staleHandle
    simp only [advance, bind_run, Semaphore.release_run quiet, if_pos room] at fails
    rcases sorted : (Donation.sortByPriority (k.semaphore x).waiters k.table).outcome with other | list
    · rw [sorted] at fails
      cases fails
      exact sorts.outcome _ _ sorted refusal
    · rw [sorted] at fails
      cases list <;> cases fails
  | acquire lock =>
    refine same ⟨_, barsHolder_eq_some.mpr ⟨?_, rfl⟩⟩
    rw [acquire_run quiet] at fails
    rcases registers : Lock.register lock.id me k.mode.donates k.table with
      ⟨other | ⟨⟩, table, events⟩
    · rw [registers] at fails
      cases fails
      exact Lock.refusal_of_register (congrArg Run.outcome registers) refusal
    · rw [registers] at fails
      exact absurd refusal (unrefused_takeOrQueue.outcome _ _ fails)
  | giveUp lock =>
    refine same ⟨_, barsOthers_eq_some.mpr ⟨?_, rfl⟩⟩
    replace fails := (congrArg Run.outcome (bind_run_ok (read_run _ _) _)).symm.trans fails
    rw [bind_run, withThreads_run quiet.threads] at fails
    rcases gives : Lock.giveUp lock.id me k.mode.donates k.table with ⟨other | ⟨⟩, table, events⟩
    · rw [gives] at fails
      cases fails
      exact Lock.refusal_of_giveUp (congrArg Run.outcome gives) refusal
    · rw [gives] at fails
      cases fails
  | claim purpose lock =>
    refine same ⟨_, barsOthers_eq_some.mpr ⟨fun held => ?_, rfl⟩⟩
    have shows := (Condvar.requireHolds_run quiet.threads purpose).trans (if_pos held)
    replace fails := (congrArg Run.outcome (bind_run_ok shows _)).symm.trans fails
    cases fails
  | down | downQueued | acquireQueued | check | signal | broadcast | signaled =>
    exact never (conveys_unrefused.advance trivial)
  | leave saved => cases fails

end Frame

/-! ### Calls without a wait -/

namespace ShortCall

/-- What a call without a wait is refused with, if it is. -/
def refusal? (me : ThreadId) (k : Kernel) : ShortCall → Option Fault
  | .tryAcquire lock => k.barsHolder me lock.id (.retried me lock.id)
  | .tryDown _ | .held _ => none

theorem run_refused (quiet : k.Quiet) {call : ShortCall} (refused : call.refusal? me k = some fault) :
    ∃ events, call.run me k = ⟨.error fault, k, events⟩ := by
  cases call with
  | tryAcquire lock =>
    obtain ⟨held, rfl⟩ := barsHolder_eq_some.mp refused
    have deeper : Quiet { k with depth := k.depth + 1 } := quiet.withDepth _
    have still : ({ k with depth := k.depth + 1 } : Kernel).table.holder? lock.id = some me := held
    refine ⟨[.entered k.depth, .left (k.depth + 1) k.depth], (inSection_run _).trans ?_⟩
    rw [tryAcquire_run deeper, if_pos still]
    rfl
  | tryDown | held => cases refused

theorem refusal_of_run (quiet : k.Quiet) {call : ShortCall}
    (fails : (call.run me k).outcome = .error fault) (refusal : Refusal fault) :
    call.refusal? me k = some fault := by
  have never : (∀ lock, call ≠ .tryAcquire lock) → Unrefused (call.run me) := fun notTry =>
    conveys_unrefused.run
      (fun unrefused => avoids_inSection (fun _ => not_false) (fun _ _ => not_false) fun _ =>
        unrefused)
      fun lock is => absurd is (notTry lock)
  cases call with
  | tryDown | held => exact absurd refusal ((never (by simp)).outcome _ _ fails)
  | tryAcquire lock =>
    have deeper : Quiet { k with depth := k.depth + 1 } := quiet.withDepth _
    replace fails : (inSection (fun _ => Lock.tryAcquire me lock) k).outcome = .error fault := fails
    rw [inSection_run, tryAcquire_run deeper] at fails
    split at fails
    · rename_i held
      cases fails
      exact barsHolder_eq_some.mpr ⟨held, rfl⟩
    · split at fails
      · split at fails
        · cases fails
        · rename_i owns
          cases fails
          exact absurd refusal (Lock.unrefused_takeOwnership.outcome _ _ (congrArg Run.outcome owns))
      · cases fails

end ShortCall

/-! ### The thread table -/

namespace ThreadTable

variable {table : ThreadTable} {t : ThreadId}

/-- To remove a thread one looks at its record, its locks and what it waits for, in that order. -/
theorem remove_run (t : ThreadId) (table : ThreadTable) : remove t table =
    match table.get? t with
    | none => ⟨.error (.staleHandle t), table, []⟩
    | some r =>
        match table.holdings.heldBy t, r.waitingOn with
        | lock :: _, _ => ⟨.error (.exitHolding t r.name lock), table, []⟩
        | [], some lock => ⟨.error (.exitWaiting t r.name lock), table, []⟩
        | [], none => ⟨.ok r, table.vacate t, [.log (.threadRemoved t)]⟩ := by
  cases found : table.get? t with
  | none => simp [remove, bind_run, record_run_of_stale found]
  | some r =>
    rcases held : table.holdings.heldBy t with _ | ⟨lock, others⟩
    · cases awaited : r.waitingOn with
      | none => simp [remove, bind_run, record_run found, held, awaited, log]
      | some lock => simp [remove, bind_run, record_run found, held, awaited]
    · simp [remove, bind_run, record_run found, held]

/-- A thread that could be removed leaves its slot vacant. -/
theorem remove_eq_vacate {r : ThreadRecord} {table' : ThreadTable} {events : List Event}
    (run : remove t table = ⟨.ok r, table', events⟩) : table' = table.vacate t := by
  rw [remove_run] at run
  split at run
  · cases run
  · split at run
    · cases run
    · cases run
    · cases run
      rfl

/-- A thread is removed unless it is gone, holds a lock or waits for one. -/
theorem remove_fails_iff : (∃ fault, (remove t table).outcome = .error fault) ↔
    ¬ table.contains t = true ∨ table.holdings.heldBy t ≠ [] ∨ table.waits t ≠ none := by
  rw [remove_run]
  cases found : table.get? t with
  | none => simp [contains, found]
  | some r =>
    rw [waits_of_get? found]
    rcases held : table.holdings.heldBy t with _ | ⟨lock, others⟩
    · cases awaited : r.waitingOn with
      | none => simp [contains, found, awaited]
      | some lock => simp [awaited]
    · simp

/-- Whatever a removal fails with, the table stays as it is. -/
theorem remove_of_fails (fails : (remove t table).outcome = .error fault) :
    remove t table = ⟨.error fault, table, []⟩ := by
  rw [remove_run] at fails ⊢
  cases found : table.get? t with
  | none =>
    rw [found] at fails
    cases fails
    rfl
  | some r =>
    rw [found] at fails
    rcases held : table.holdings.heldBy t with _ | ⟨lock, others⟩
    · cases awaited : r.waitingOn with
      | none => simp [held, awaited] at fails
      | some lock =>
        simp only [held, awaited, Except.error.injEq] at fails
        simp [awaited, ← fails]
    · simp only [held, Except.error.injEq] at fails
      simp [← fails]

end ThreadTable

end KernelSync
