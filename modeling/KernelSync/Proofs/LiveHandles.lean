import KernelSync.Proofs.DeadlockDetection
import KernelSync.Proofs.MutualExclusion
import KernelSync.Proofs.Signals

/-!
Stored handles. The handles in the donor lists, the holdings, the queues and the registrations are
those of live threads (`Living`), as long as no thread is removed in the middle of a call that may
wait. To remove a thread scrubs none of these lists: that it holds no lock keeps it out of the
holdings, that it waits for none out of the donor lists, and that it is in no such call out of the
queues and the registrations. So no primitive ever looks up a handle that is stale (`Found`).
-/

namespace KernelSync

open Stretch

/-- The computation does not end with a stale handle. -/
def Found {σ α : Type} (x : Stretch σ α) (s : σ) : Prop :=
  ∀ id, (x s).outcome ≠ .error (.staleHandle id)

section Found

variable {σ α β : Type} {x : Stretch σ α} {s : σ}

theorem found_of_ok {a : α} (ends : (x s).outcome = .ok a) : Found x s :=
  fun _ fails => nomatch ends.symm.trans fails

theorem found_of_error {fault : Fault} (ends : (x s).outcome = .error fault)
    (other : ∀ id, fault ≠ .staleHandle id) : Found x s :=
  fun id fails => other id (Except.error.inj (ends.symm.trans fails))

theorem found_bind {f : α → Stretch σ β} (first : Found x s)
    (next : ∀ a s' events, x s = ⟨.ok a, s', events⟩ → Found (f a) s') : Found (x >>= f) s := by
  intro id fails
  rcases error_of_bind fails with fails | ⟨a, s', events, run, fails⟩
  · exact first id fails
  · exact next a s' events run id fails

theorem found_after {f : α → Stretch σ β} {s' : σ} {a : α} {events : List Event}
    (run : x s = ⟨.ok a, s', events⟩) (found : Found (f a) s') : Found (x >>= f) s := by
  refine found_bind (found_of_ok (congrArg Run.outcome run)) fun b mid _ run' => ?_
  cases run.symm.trans run'
  exact found

theorem found_onFault {last : Stretch σ Unit} (found : Found x s) : Found (onFault x last) s :=
  fun id fails => found id (error_of_onFault fails)

theorem found_require {condition : Prop} [Decidable condition] {fault : Fault}
    (other : ∀ id, fault ≠ .staleHandle id) : Found (require condition fault) s := by
  unfold require
  split
  · exact found_of_ok rfl
  · exact found_of_error rfl other

end Found

open ThreadTable Donation

/-! ### Tables -/

theorem Holdings.mem_insert {holdings : Holdings} {lock : LockId} {holder : ThreadId}
    {entry : LockId × ThreadId} (mem : entry ∈ holdings.insert lock holder) :
    entry = (lock, holder) ∨ entry ∈ holdings := by
  induction holdings with
  | nil => exact Or.inl (List.mem_singleton.mp mem)
  | cons first rest ih =>
    unfold Holdings.insert at mem
    split at mem
    · exact (List.mem_cons.mp mem).imp_right (List.mem_cons_of_mem _)
    split at mem
    · exact List.mem_cons.mp mem
    · rcases List.mem_cons.mp mem with rfl | later
      · exact Or.inr List.mem_cons_self
      · exact (ih later).imp_right (List.mem_cons_of_mem _)

/-- Every handle in the holdings is that of a live thread. -/
def HoldersLive (table : ThreadTable) : Prop :=
  ∀ entry ∈ table.holdings, table.contains entry.2 = true

section Tables

variable {table after : ThreadTable} {mode : SchedulingMode} {deed : Deed} {me : ThreadId}

theorem HoldersLive.mono (holders : HoldersLive table)
    (fewer : ∀ entry ∈ after.holdings, entry ∈ table.holdings)
    (alive : ∀ t, table.contains t = true → after.contains t = true) : HoldersLive after :=
  fun entry mem => alive _ (holders entry (fewer entry mem))

theorem HoldersLive.of_sameGraph (holders : HoldersLive table) (same : SameGraph table after) :
    HoldersLive after :=
  holders.mono (fun _ mem => same.holdings ▸ mem) fun t alive => (same.contains t).trans alive

/-- No change leaves a lock to a thread that is gone. -/
theorem Change.holdersLive (change : Change mode table deed after) (sound : Sound table)
    (holders : HoldersLive table) : HoldersLive after := by
  have ⟨arena, accounted⟩ := sound
  cases change with
  | rest => exact holders
  | @register lock me holder live held apart may ok =>
    have enrolled : HoldersLive (Lock.enrolled table lock me holder) :=
      holders.mono (fun _ mem => mem) fun _ alive => Lock.contains_enrolled.trans alive
    exact enrolled.of_sameGraph (Lock.register_sameGraph accounted live held apart may _)
  | @claim lock me live free may =>
    obtain ⟨donors, priority, events, run, -⟩ :=
      Lock.claim_run arena accounted live free may mode.donates
    have alive : ∀ t, table.contains t = true →
        (Lock.claim lock me mode.donates table).state.contains t = true := by
      intro t alive
      rw [run]
      exact (Lock.contains_revised.trans contains_modify).trans alive
    intro entry mem
    have inserted : entry ∈ table.holdings.insert lock me := by
      rw [run] at mem
      exact mem
    rcases Holdings.mem_insert inserted with rfl | before
    · exact alive me live
    · exact alive _ (holders entry before)
  | @giveUp lock me live held idle =>
    obtain ⟨r, found⟩ := contains_iff.mp live
    obtain ⟨donors, priority, events, run, -⟩ := Lock.giveUp_run accounted found held mode.donates
    rw [run]
    exact holders.mono (fun _ mem => List.mem_of_mem_filter mem)
      fun t alive => Lock.contains_revised.trans alive
  | spawn gains =>
    exact holders.mono (fun _ mem => gains.holdings ▸ mem) fun t alive =>
      gains.contains.mpr (Or.inr alive)
  | @remove id _ loses idle unheld =>
    intro entry mem
    have held : entry ∈ table.holdings := loses.holdings ▸ mem
    refine loses.contains.mpr ⟨?_, holders entry held⟩
    rintro rfl
    have holds := Holdings.mem_heldBy.mpr (show (entry.1, entry.2) ∈ table.holdings from held)
    rw [unheld] at holds
    cases holds
  | setBase live => exact holders.of_sameGraph (changeBase_sameGraph accounted)
  | setEffective => exact holders.of_sameGraph (reranks_modify _).sameGraph

end Tables

/-- Every handle that is stored is that of a live thread. -/
structure Kernel.Living (k : Kernel) : Prop where
  donors : ∀ t r, k.table.get? t = some r → ∀ d ∈ r.donors, k.table.contains d = true
  holders : HoldersLive k.table
  queues : ∀ x, ∀ t ∈ k.queue x, k.table.contains t = true
  waiters : ∀ c, ∀ w ∈ k.waiters c, k.table.contains w.thread = true

namespace System

variable {s s' : System} {rule : Rule} {t u : ThreadId} {id : ThreadId} {move : Move}

theorem Reachable.holdersLive (reachable : Reachable rule s) : HoldersLive s.table := by
  induction reachable with
  | start small => exact fun _ mem => absurd mem List.not_mem_nil
  | move before allowed obeys ends ih =>
    obtain ⟨deed, change, -⟩ := (before.moved allowed ends).change before.orderly allowed
    exact change.holdersLive before.orderly.sound ih

/-- In a run in which no thread leaves a call that may wait all stored handles are those of live
threads. -/
theorem Reachable.living (reachable : Reachable exitsClear s) : s.kernel.Living where
  donors := fun _ _ found => reachable.orderly.sound.accounted.donors_live found
  holders := reachable.holdersLive
  queues := reachable.attended_of_clear.live
  waiters := by
    intro c w mem
    -- a registered thread has yet to get past its semaphore, so it is in a call
    have standing := reachable.standing_of_clear mem
    by_contra gone
    have frames := reachable.orderly.placed.absent w.thread gone
    have past := standing.passing w.thread
    rw [if_pos rfl] at past
    unfold tally at past
    rw [frames] at past
    exact nomatch past

end System

/-! ### Computations on the thread table -/

section Tables

variable {table : ThreadTable} {me id t : ThreadId} {lock : LockId}

namespace ThreadTable

theorem contains_of_stale (stale : table.get? id = none) : ¬ table.contains id = true :=
  fun live => nomatch stale.symm.trans (contains_iff.mp live).choose_spec

/-- A new thread is put into a slot without any handle being looked up. -/
theorem found_spawn {name : String} {priority : Priority} : Found (spawn name priority) table := by
  unfold Found spawn
  split
  · exact nofun
  · rcases placed : place (.fresh name priority) table with fault | ⟨id, after⟩
    · obtain ⟨index, rfl⟩ := place_eq_error placed
      exact nofun
    · exact nofun

/-- The one handle that a removal looks up is that of the thread to be removed. -/
theorem stale_of_remove (fails : (remove t table).outcome = .error (.staleHandle id)) :
    id = t ∧ ¬ table.contains t = true := by
  unfold remove at fails
  rw [bind_run_ok (read_run _ _)] at fails
  cases found : table.get? t with
  | none =>
    rw [bind_run_error (record_run_of_stale found)] at fails
    cases fails
    exact ⟨rfl, contains_of_stale found⟩
  | some r =>
    rw [bind_run_ok (record_run found)] at fails
    rcases held : table.holdings.heldBy t with _ | ⟨lock, others⟩
    · cases waits : r.waitingOn <;> simp [held, waits, bind_run] at fails
    · simp [held] at fails

theorem stale_of_amend {f : ThreadRecord → ThreadRecord}
    (fails : (amend t f table).outcome = .error (.staleHandle id)) :
    id = t ∧ ¬ table.contains t = true := by
  cases found : table.get? t with
  | none =>
    unfold amend at fails
    rw [bind_run_error (record_run_of_stale found)] at fails
    cases fails
    exact ⟨rfl, contains_of_stale found⟩
  | some r =>
    rw [amend_run found] at fails
    cases fails

end ThreadTable

variable {mode : SchedulingMode} (sound : Sound table)
  (acyclic : mode.donates = true → Acyclic table)
include sound acyclic

/-- To change a base priority looks up the thread, and those that it meets on the wait chain. -/
theorem Donation.stale_of_changeBase {base : Priority}
    (fails : (changeBasePriority t base mode table).outcome = .error (.staleHandle id)) :
    id = t ∧ ¬ table.contains t = true := by
  cases found : table.get? t with
  | none =>
    rw [System.changeBase_run_of_stale found] at fails
    cases fails
    exact ⟨rfl, ThreadTable.contains_of_stale found⟩
  | some r =>
    by_cases donating : mode.donates = true
    · have goesWell : ∃ priority, (changeBasePriority t base mode table).outcome = .ok priority :=
        (changeBase_outcome sound.arena sound.accounted (acyclic donating)
          (contains_of_get? found) donating).2
      obtain ⟨priority, ends⟩ := goesWell
      exact nomatch ends.symm.trans fails
    · rw [changeBase_run_plain found (by simpa using donating)] at fails
      cases fails

/-- A thread that registers for a lock finds the holder, and all that are ahead of it. -/
theorem Lock.found_register (live : table.contains me = true) (may : Lock.MayRegister table lock me) :
    Found (Lock.register lock me mode.donates) table := by
  cases held : table.holder? lock with
  | none => exact found_of_ok (congrArg Run.outcome (Lock.register_run_unheld held _))
  | some holder =>
    by_cases own : holder = me
    · subst own
      exact found_of_error (congrArg Run.outcome (Lock.register_run_own held _)) nofun
    by_cases donating : mode.donates = true
    · rw [donating]
      rcases (Lock.register_outcome sound.accounted live held own may sound.arena
        (acyclic donating)).2 with ⟨-, last, cycle⟩ | ⟨-, ends⟩
      · exact found_of_error cycle nofun
      · exact found_of_ok ends
    · rw [Bool.eq_false_iff.mpr donating]
      exact found_of_ok
        (congrArg Run.outcome (Lock.register_run sound.accounted live held own false))

end Tables

/-! ### Places of calls -/

section Kernel

variable {k : Kernel} {me : ThreadId} {x : SemaphoreId} {c : CondvarId}

theorem Semaphore.found_downOrQueue (quiet : k.Quiet) (live : k.table.contains me = true)
    (queue : ∀ t ∈ k.queue x, k.table.contains t = true) : Found (downOrQueue me x) k := by
  have inserts : insertByPriority me (k.semaphore x).waiters k.table = _ :=
    insertByPriority_run live queue
  rw [Found, downOrQueue_run quiet, inserts]
  split <;> exact nofun

theorem Semaphore.found_release (quiet : k.Quiet)
    (queue : ∀ t ∈ k.queue x, k.table.contains t = true) : Found (release x) k := by
  have sorts : sortByPriority (k.semaphore x).waiters k.table = _ := sortByPriority_run queue
  rw [Found, release_run quiet, sorts]
  split
  · cases sortedByRank k.table (k.semaphore x).waiters <;> exact nofun
  · exact nofun

theorem Condvar.sortByPriority_run {table : ThreadTable} {list : List Waiter}
    (live : ∀ w ∈ list, table.contains w.thread = true) :
    ∃ sorted, sortByPriority list table = ⟨.ok sorted, table, []⟩ := by
  unfold sortByPriority
  split
  · exact ⟨list, rfl⟩
  · have nobody : list.find? (fun w => !table.contains w.thread) = none := by
      rw [List.find?_eq_none]
      intro w mem
      simp [live w mem]
    rw [nobody]
    exact ⟨_, rfl⟩

theorem Condvar.found_takeMostUrgent (quiet : k.Quiet)
    (waiters : ∀ w ∈ k.waiters c, k.table.contains w.thread = true) :
    Found (takeMostUrgent c) k := by
  obtain ⟨sorted, sorts⟩ := sortByPriority_run waiters
  rw [Found, takeMostUrgent_run quiet, sorts]
  cases sorted <;> exact nofun

theorem Kernel.found_requireCanWait {call : WaitingCall} : Found (requireCanWait call) k := by
  rw [Found, requireCanWait_run]
  split <;> exact nofun

/-- No call looks up a handle before its section. -/
theorem Frame.found_begin (quiet : k.Quiet) (call : Call) : Found (Frame.begin me call) k := by
  cases call with
  | down | acquire =>
    exact found_bind Kernel.found_requireCanWait fun _ _ _ _ => found_of_ok rfl
  | up | release | signal | broadcast => exact found_of_ok rfl
  | wait c lock =>
    refine found_bind Kernel.found_requireCanWait fun _ mid _ checks => ?_
    have same : mid = k := by
      rw [Kernel.requireCanWait_run] at checks
      split at checks <;> cases checks
      rfl
    subst same
    refine found_bind ?_ fun _ _ _ _ => found_of_ok rfl
    rw [Found, Kernel.inSection_run, Condvar.register_run (quiet.withDepth _)]
    split <;> exact nofun

end Kernel

namespace Frame

variable {k : Kernel} {me : ThreadId} {lock : Lock} {donates : Bool}

/-- Without a permit a live caller queues behind live threads. -/
theorem found_takeOrQueue (quiet : k.Quiet) (live : k.table.contains me = true)
    (queue : ∀ t ∈ k.queue lock.semaphore, k.table.contains t = true)
    (empty : (k.semaphore lock.semaphore).count = 0) : Found (takeOrQueue me lock donates) k := by
  refine found_bind (Semaphore.found_downOrQueue quiet live queue) fun taken mid events downs => ?_
  have queues : taken = false := by
    have inserts : insertByPriority me (k.semaphore lock.semaphore).waiters k.table = _ :=
      insertByPriority_run live queue
    rw [Semaphore.downOrQueue_run quiet, if_neg (by rw [empty]; exact Nat.lt_irrefl 0),
      inserts] at downs
    cases downs
    rfl
  subst queues
  exact found_of_ok rfl

end Frame

/-! ### Moves -/

namespace System

variable {s s' : System} {t id : ThreadId} {move : Move} {head : Frame} {rest : List Frame}

section Found

variable (orderly : Orderly s) (acyclic : s.kernel.mode.donates = true → Acyclic s.table)
  (living : s.kernel.Living)
include orderly acyclic living

/-- A thread that tries a lock finds whoever holds it and whoever queues for it. -/
theorem found_acquire {lock : Lock} (allowed : s.Allowed (.go t))
    (busy : (s.activity t).frames = .acquire lock :: rest) :
    Found ((Frame.acquire lock).advance t) (s.kernelAt t) := by
  have here := at?_of_frames busy
  have mine : lock ∈ s.locks := (fine_of_busy orderly busy rfl).1
  have quiet : (s.kernelAt t).Quiet := orderly.quiet.withDepth _
  have may := orderly.mayRegister here
  have agrees := permit_of_not_up orderly allowed.1 mine (by rw [here]; simp)
  have live : s.table.contains t = true := allowed.2.1
  have registers : Found (Lock.register lock.id t s.kernel.mode.donates) s.table :=
    Lock.found_register orderly.sound acyclic live may
  intro id fails
  rw [Frame.acquire_run quiet] at fails
  rcases run : Lock.register lock.id t s.kernel.mode.donates s.table with
    ⟨fault | ⟨⟩, table, events⟩
  · have run' : Lock.register lock.id t (s.kernelAt t).mode.donates (s.kernelAt t).table =
        ⟨.error fault, table, events⟩ := run
    rw [run'] at fails
    exact registers id ((congrArg Run.outcome run).trans (congrArg _ (Except.error.inj fails)))
  have run' : Lock.register lock.id t (s.kernelAt t).mode.donates (s.kernelAt t).table =
      ⟨.ok (), table, events⟩ := run
  rw [run'] at fails
  revert fails
  have quietAfter : ((s.kernelAt t).setTable table).Quiet := quiet.setTable table
  cases held : s.table.holder? lock.id with
  | none =>
    rw [Lock.register_run_unheld held] at run
    cases run
    have permit : 0 < (((s.kernelAt t).setTable s.table).semaphore lock.semaphore).count := by
      show 0 < (s.kernel.semaphore lock.semaphore).count
      rw [agrees, if_pos held]
      exact Nat.one_pos
    obtain ⟨donors, priority, reported, claims, -⟩ := Lock.claim_run orderly.sound.arena
      orderly.sound.accounted live held may s.kernel.mode.donates
    exact found_of_ok (Frame.takeOrQueue_of_permit quietAfter permit
      (congrArg Run.outcome claims)) id
  | some holder =>
    have apart : holder ≠ t := by
      rintro rfl
      rw [Lock.register_run_own held] at run
      cases run
    have same := Lock.register_sameGraph orderly.sound.accounted live held apart may
      s.kernel.mode.donates
    rw [run] at same
    have alive : ∀ u, s.table.contains u = true → table.contains u = true := fun u before =>
      (same.contains u).trans (Lock.contains_enrolled.trans before)
    exact Frame.found_takeOrQueue quietAfter (alive t live)
      (fun u mem => alive u (living.queues _ u mem))
      (agrees.trans (if_neg (by simp [held]))) id

/-- A stretch of a live thread looks up no stale handle. -/
theorem found_advance (allowed : s.Allowed (.go t)) (busy : (s.activity t).frames = head :: rest) :
    Found (head.advance t) (s.kernelAt t) := by
  have quiet : (s.kernelAt t).Quiet := orderly.quiet.withDepth _
  have live : (s.kernelAt t).table.contains t = true := allowed.2.1
  cases head with
  | call call => exact Frame.found_begin quiet call
  | down x =>
    refine found_bind (Semaphore.found_downOrQueue quiet live (living.queues x))
      fun taken _ _ _ => ?_
    cases taken <;> exact found_of_ok rfl
  | acquire lock => exact found_acquire orderly acyclic living allowed busy
  | up x =>
    refine found_bind (Semaphore.found_release quiet (living.queues x)) fun woken _ _ _ => ?_
    cases woken <;> exact found_of_ok rfl
  | giveUp lock =>
    refine found_after rfl (found_bind ?_ fun _ _ _ _ => found_of_ok rfl)
    rw [Found, Kernel.withThreads_run quiet.threads]
    obtain ⟨r, found⟩ := contains_iff.mp live
    by_cases held : s.table.holder? lock.id = some t
    · obtain ⟨donors, priority, events, gives, -⟩ :=
        Lock.giveUp_run orderly.sound.accounted found held s.kernel.mode.donates
      exact found_of_ok (x := Lock.giveUp lock.id t s.kernel.mode.donates)
        (congrArg Run.outcome gives)
    · exact found_of_error (x := Lock.giveUp lock.id t s.kernel.mode.donates)
        (congrArg Run.outcome (Lock.giveUp_run_of_not held _)) nofun
  | claim purpose lock =>
    refine found_bind ?_ fun _ _ _ _ => found_of_ok rfl
    rw [Found, Condvar.requireHolds_run quiet.threads]
    split <;> exact nofun
  | signal c | broadcast c =>
    refine found_bind (Condvar.found_takeMostUrgent quiet (living.waiters c)) fun taken _ _ _ => ?_
    cases taken <;> exact found_of_ok rfl
  | downQueued | acquireQueued | check | signaled | leave => exact found_of_ok rfl

omit acyclic living in
/-- A call that does not wait looks up no stale handle. -/
theorem found_short {call : ShortCall} (allowed : s.Allowed (.short t call)) :
    Found (call.run t) (s.kernelAt t) := by
  have deeper : ({ s.kernelAt t with depth := (s.kernelAt t).depth + 1 } : Kernel).Quiet :=
    (orderly.quiet.withDepth _).withDepth _
  cases call with
  | tryDown x =>
    show Found (Kernel.inSection fun _ => Semaphore.tryDown x) (s.kernelAt t)
    rw [Found, Kernel.inSection_run, Semaphore.tryDown_run deeper]
    split <;> exact nofun
  | tryAcquire l =>
    rw [Found, System.tryAcquire_outcome orderly allowed]
    split <;> exact nofun
  | held l =>
    have reads : Lock.readHolder l.id { s.kernelAt t with depth := (s.kernelAt t).depth + 1 } =
        ⟨.ok (s.table.holder? l.id), { s.kernelAt t with depth := (s.kernelAt t).depth + 1 },
          []⟩ := Kernel.withThreads_looks deeper.threads (looks_read _)
    show Found (Kernel.inSection fun _ => Lock.readHolder l.id >>= _) (s.kernelAt t)
    rw [Found, Kernel.inSection_run, bind_run_ok reads]
    exact nofun

end Found

/-- The moves that name a thread from outside, which is to be there. -/
def Addresses (id : ThreadId) : Move → Prop
  | .remove t | .setBase t _ | .setEffective t _ => t = id
  | _ => False

/-- In a run in which no thread leaves a call that may wait, a move fails with a stale handle only if
it names a thread from outside, and that thread is gone. -/
theorem Reachable.stale (reachable : Reachable exitsClear s) (allowed : s.Allowed move)
    (fails : (perform move s).outcome = .error (.staleHandle id)) :
    Addresses id move ∧ ¬ s.Live id := by
  have orderly := reachable.orderly
  have quiet := orderly.quiet
  have acyclic : s.kernel.mode.donates = true → Acyclic s.table := reachable.acyclic
  have outside : ∀ {t}, id = t ∧ ¬ s.table.contains t = true → t = id ∧ ¬ s.Live id := by
    rintro t ⟨rfl, gone⟩
    exact ⟨rfl, gone⟩
  cases move with
  | newSemaphore | newLock | newCondvar | interrupt | call => cases fails
  | spawn name priority =>
    refine absurd fails (found_bind ?_ (fun made _ _ _ => ?_) id)
    · rw [Found, onTable_run quiet]
      exact ThreadTable.found_spawn
    · cases made <;> exact found_of_ok rfl
  | remove t =>
    refine outside (ThreadTable.stale_of_remove ?_)
    have removes : perform (.remove t) s = (onTable (ThreadTable.remove t) >>= fun _ =>
      Stretch.update (·.become t {})) s := rfl
    have accesses := onTable_run quiet (ThreadTable.remove t)
    rcases run : ThreadTable.remove t s.table with ⟨fault | r, table, events⟩ <;>
      rw [run] at accesses
    · rw [removes, bind_run_error accesses] at fails
      cases fails
      rfl
    · rw [removes, bind_run_ok accesses] at fails
      cases fails
  | setBase t base =>
    rw [setBase_run quiet] at fails
    rcases run : changeBasePriority t base s.kernel.mode s.table with ⟨fault | r, table, events⟩ <;>
      rw [run] at fails
    · cases fails
      exact outside (stale_of_changeBase orderly.sound acyclic (congrArg Run.outcome run))
    · cases fails
  | setEffective t priority =>
    have sets : perform (.setEffective t priority) s =
      onTable (amend t ({ · with priority })) s := rfl
    rw [sets, onTable_run quiet] at fails
    exact outside (ThreadTable.stale_of_amend fails)
  | short t call =>
    have found := found_short orderly allowed id
    rw [short_run] at fails
    rcases run : call.run t (s.kernelAt t) with ⟨fault | r, table, events⟩ <;> rw [run] at fails found
    · cases fails
      exact absurd rfl found
    · cases fails
  | go t =>
    cases busy : (s.activity t).frames with
    | nil => exact absurd busy allowed.2.2.1
    | cons head rest =>
      exact absurd ((go_eq_error_iff busy).mp fails)
        (found_advance orderly acyclic reachable.living allowed busy id)

end System

end KernelSync
