import KernelSync.Proofs.Parts

/-!
What is out of the question for most of the primitives, whatever the state. A donation stopped by
its bound is reported by the walk alone, and a lock handed over while another thread holds it is
the fault of `setHolder` alone; all other computations are `Calm`. So are all stretches of calls but
those that try a lock.
-/

namespace KernelSync

open Stretch Donation

/-- A lock was handed over while a thread held it. -/
def Handed (fault : Fault) : Prop := ∃ lock holder other, fault = .handedWhileHeld lock holder other

/-- No donation is stopped by its bound, and no lock handed over while it is held. -/
abbrev Calm {σ α : Type} (x : Stretch σ α) : Prop := Avoids Revisits Handed x

/-- No donation is stopped by its bound. -/
abbrev Unstopped {σ α : Type} (x : Stretch σ α) : Prop := Avoids Revisits (fun _ => False) x

/-- No lock is handed over while it is held. -/
abbrev Unhanded {σ α : Type} (x : Stretch σ α) : Prop := Avoids (fun _ => False) Handed x

section Calm

variable {σ α : Type} {x : Stretch σ α}

theorem calm_fail {fault : Fault} (other : ¬ Handed fault) : Calm (fail fault : Stretch σ α) :=
  avoids_fail other

theorem calm_log {entry : LogEntry} (other : ¬ Revisits (.log entry)) :
    Calm (log entry : Stretch σ Unit) :=
  avoids_report other

end Calm

variable {id me t : ThreadId} {lock : LockId} {α : Type} {bad : Event → Prop}
  {wrong : Fault → Prop}

theorem not_handed_staleHandle (id : ThreadId) : ¬ Handed (.staleHandle id) := by simp [Handed]

/-! ### Thread tables -/

namespace ThreadTable

theorem avoids_amend (stale : ∀ id, ¬ wrong (.staleHandle id)) {f : ThreadRecord → ThreadRecord} :
    Avoids bad wrong (amend id f) :=
  avoids_bind (inspects_record.avoids stale) fun _ => avoids_update _

/-- What the steps on a thread table avoid is avoided by all that the primitives do to it. -/
theorem tabular_avoids (stale : ∀ id, ¬ wrong (.staleHandle id))
    (entries : ∀ entry, ¬ Revisits (.log entry) → ¬ bad (.log entry)) (donates : Bool) :
    Tabular (Avoids bad wrong) (fun fault => ¬ wrong fault) donates where
  inspects inspects := inspects.avoids stale
  bind := avoids_bind
  fail := avoids_fail
  log other := avoids_report (entries _ other)
  setDonors _ _ := avoids_amend stale
  setWaitingOn _ _ := avoids_amend stale
  setPriority _ _ _ := avoids_amend stale
  holdings _ := avoids_update _

theorem tabular_calm : ∀ donates, Tabular Calm (fun fault => ¬ Handed fault) donates :=
  tabular_avoids not_handed_staleHandle fun _ other => other

theorem tabular_unhanded : ∀ donates, Tabular Unhanded (fun fault => ¬ Handed fault) donates :=
  tabular_avoids not_handed_staleHandle fun _ _ => id

theorem tabular_unstopped : ∀ donates, Tabular Unstopped (fun _ => ¬ False) donates :=
  tabular_avoids (fun _ => id) fun _ other => other

theorem place_eq_error {table : ThreadTable} {r : ThreadRecord} {fault : Fault}
    (fails : place r table = .error fault) : ∃ index, fault = .freeSlotOccupied index := by
  unfold place at fails
  split at fails
  · split at fails
    · exact nomatch fails
    · exact ⟨_, (Except.error.inj fails).symm⟩
  · exact nomatch fails

theorem calm_spawn {name : String} {priority : Priority} : Calm (spawn name priority) := by
  constructor
  · intro table e mem
    unfold spawn at mem
    split at mem
    · exact absurd mem List.not_mem_nil
    · split at mem
      · rw [List.mem_singleton.mp mem]
        simp [Revisits]
      · exact absurd mem List.not_mem_nil
  · intro table fault ends
    unfold spawn at ends
    split at ends
    · cases ends
    · rcases placed : place (.fresh name priority) table with other | ⟨id, after⟩
      · rw [placed] at ends
        cases ends
        obtain ⟨index, rfl⟩ := place_eq_error placed
        simp [Handed]
      · rw [placed] at ends
        cases ends

theorem calm_remove : Calm (remove id) := by
  unfold remove
  refine avoids_bind (avoids_read _) fun held =>
    avoids_bind (inspects_record.avoids not_handed_staleHandle) fun r => ?_
  split
  · exact calm_fail (by simp [Handed])
  · exact calm_fail (by simp [Handed])
  · exact avoids_bind (avoids_update _) fun _ =>
      avoids_bind (calm_log (by simp [Revisits])) fun _ => avoids_pure r

end ThreadTable

open ThreadTable

theorem Donation.unhanded_changeBase {base : Priority} {mode : SchedulingMode} :
    Unhanded (changeBasePriority t base mode) :=
  (tabular_unhanded mode.donates).changeBase rfl (avoids_amend not_handed_staleHandle)
    (fun _ => avoids_amend not_handed_staleHandle) (fun _ => by simp [Handed])
    fun _ _ => avoids_report id

theorem Lock.unhanded_register {donates : Bool} : Unhanded (register lock me donates) :=
  (tabular_unhanded donates).register (fun _ => by simp [Handed])
    (fun _ _ => avoids_report not_false) (by simp [Handed])

/-! ### Kernels -/

namespace Kernel

theorem calm_enter : Calm enter :=
  avoids_bind (avoids_read _) fun _ => avoids_bind (avoids_update _) fun _ =>
    avoids_bind (avoids_report (by simp [Revisits])) fun _ => avoids_pure _

theorem calm_leave {saved : Nat} : Calm (leave saved) :=
  avoids_bind (avoids_read _) fun _ => avoids_bind (avoids_update _) fun _ =>
    avoids_report (by simp [Revisits])

theorem avoids_inSection {body : Nat → Stretch Kernel α} (enters : ∀ depth, ¬ bad (.entered depth))
    (leaves : ∀ depth saved, ¬ bad (.left depth saved))
    (avoids : ∀ saved, Avoids bad wrong (body saved)) : Avoids bad wrong (inSection body) := by
  refine avoids_bind (avoids_bind (avoids_read _) fun depth => ?_) fun saved =>
    avoids_ensuring (avoids saved) (avoids_bind (avoids_read _) fun depth => ?_)
  · exact avoids_bind (avoids_update _) fun _ =>
      avoids_bind (avoids_report (enters depth)) fun _ => avoids_pure _
  · exact avoids_bind (avoids_update _) fun _ => avoids_report (leaves depth saved)

theorem avoids_accessing {cell : CellId} {body : Stretch Kernel α} (apart : ¬ wrong (.overlap cell))
    (avoids : Avoids bad wrong body) : Avoids bad wrong (accessing cell body) :=
  avoids_bind (avoids_read _) fun _ => avoids_bind (avoids_require apart) fun _ =>
    avoids_bind (avoids_update _) fun _ => avoids_ensuring avoids (avoids_update _)

theorem avoids_withThreads {body : Stretch ThreadTable α} (apart : ¬ wrong (.overlap .threads))
    (avoids : Avoids bad wrong body) : Avoids bad wrong (withThreads body) :=
  avoids_accessing apart (avoids_within avoids)

theorem calm_inSection {body : Nat → Stretch Kernel α} (calm : ∀ saved, Calm (body saved)) :
    Calm (inSection body) :=
  avoids_inSection (by simp [Revisits]) (by simp [Revisits]) calm

theorem calm_withThreads {body : Stretch ThreadTable α} (calm : Calm body) :
    Calm (withThreads body) :=
  avoids_withThreads (by simp [Handed]) calm

/-- What stretches of calls are made of avoids all but faults of their own. -/
theorem conveys_avoids (stale : ∀ id, ¬ wrong (.staleHandle id))
    (apart : ∀ cell, ¬ wrong (.overlap cell))
    (entries : ∀ entry, ¬ Revisits (.log entry) → ¬ bad (.log entry)) :
    Conveys (Avoids bad wrong) (Avoids bad wrong) (fun fault => ¬ wrong fault) fun _ => True := by
  have composes : Composes (Avoids bad wrong) fun fault => ¬ wrong fault :=
    { value := avoids_pure
      bind := avoids_bind
      read := fun _ => avoids_read _
      require := avoids_require
      log := fun other => avoids_report (entries _ other)
      update := fun _ => avoids_update _
      accessing := avoids_accessing (apart _)
      inspects := fun inspects => avoids_withThreads (apart _) (inspects.avoids stale) }
  exact composes.conveys (fun _ => avoids_pure _) avoids_bind

theorem conveys_calm : Conveys Calm Calm (fun fault => ¬ Handed fault) fun _ => True :=
  conveys_avoids not_handed_staleHandle (by simp [Handed]) fun _ other => other

theorem conveys_unstopped : Conveys Unstopped Unstopped (fun _ => ¬ False) fun _ => True :=
  conveys_avoids (fun _ => id) (fun _ => id) fun _ other => other

end Kernel

/-! ### Calls -/

namespace Frame

open Kernel

theorem unstopped_takeOrQueue {lock : Lock} {donates : Bool} :
    Unstopped (takeOrQueue me lock donates) :=
  conveys_unstopped.takeOrQueue
    (avoids_withThreads id ((tabular_unstopped donates).claim fun _ => id))

/-- To try a lock is to register for it, and then to take it or to queue for it. -/
theorem acquire_run {k : Kernel} (quiet : k.Quiet) {lock : Lock} :
    (Frame.acquire lock).advance me k =
      match Lock.register lock.id me k.mode.donates k.table with
      | ⟨.ok (), table, events⟩ =>
          let run := takeOrQueue me lock k.mode.donates (k.setTable table)
          ⟨run.outcome, run.state, events ++ run.events⟩
      | ⟨.error fault, table, events⟩ => ⟨.error fault, k.setTable table, events⟩ := by
  have tries : (Frame.acquire lock).advance me k = (do
      withThreads (Lock.register lock.id me k.mode.donates)
      takeOrQueue me lock k.mode.donates : Stretch Kernel Progress) k := rfl
  rw [tries, bind_run, withThreads_run quiet.threads]
  rcases Lock.register lock.id me k.mode.donates k.table with ⟨fault | ⟨⟩, table, events⟩
  · rfl
  · rfl

/-- Without a permit the caller queues, if its handle and those of the waiters are not stale. -/
theorem takeOrQueue_of_empty {k : Kernel} (quiet : k.Quiet) {lock : Lock} {donates : Bool}
    {fault : Fault} (empty : (k.semaphore lock.semaphore).count = 0)
    (fails : (takeOrQueue me lock donates k).outcome = .error fault) :
    ∃ id, fault = .staleHandle id := by
  unfold takeOrQueue at fails
  rw [bind_run, Semaphore.downOrQueue_run quiet, if_neg (by rw [empty]; exact Nat.lt_irrefl 0)]
    at fails
  rcases inserts : (Donation.insertByPriority me (k.semaphore lock.semaphore).waiters
    k.table).outcome with other | waiters
  · rw [inserts] at fails
    cases fails
    exact inspects_insertByPriority.stale _ _ inserts
  · rw [inserts] at fails
    exact nomatch fails

/-- With a permit the caller takes the lock, if it may claim it. -/
theorem takeOrQueue_of_permit {k : Kernel} (quiet : k.Quiet) {lock : Lock} {donates : Bool}
    (permit : 0 < (k.semaphore lock.semaphore).count)
    (claims : (Lock.claim lock.id me donates k.table).outcome = .ok ()) :
    (takeOrQueue me lock donates k).outcome = .ok ⟨[], .proceed⟩ := by
  have calm : (k.permitTaken lock.semaphore).threads.busy = false := quiet.threads
  have takes := withThreads_run calm (Lock.claim lock.id me donates)
  have same : (k.permitTaken lock.semaphore).table = k.table := rfl
  rw [same, claims] at takes
  simp only [Kernel.permitTaken] at takes
  unfold takeOrQueue
  rw [bind_run, Semaphore.downOrQueue_run quiet, if_pos permit]
  simp [bind_run, takes, log_run]

/-- Every place is calm but the one where a lock is tried. -/
theorem calm_advance {frame : Frame} (notTry : ∀ lock, frame ≠ .acquire lock) :
    Calm (frame.advance me) := by
  cases frame with
  | call made =>
    exact conveys_calm.begin (by simp [Handed])
      (fun _ => avoids_bind calm_enter fun _ => avoids_pure _)
      fun _ _ => calm_inSection fun _ => conveys_calm.register _ _ _ (by simp [Handed])
  | acquire lock => exact absurd rfl (notTry lock)
  | leave saved => exact avoids_bind calm_leave fun _ => avoids_pure _
  | giveUp lock =>
    exact conveys_calm.advance fun donates _ =>
      calm_withThreads ((tabular_calm donates).giveUp (by simp [Handed]))
  | up | claim => exact conveys_calm.advance (by simp [Admits, Handed])
  | down | downQueued | acquireQueued | check | signal | broadcast | signaled =>
    exact conveys_calm.advance trivial

theorem calm_unwind {frames : List Frame} : Calm (unwind frames) :=
  conveys_calm.unwind fun _ => calm_leave

end Frame

namespace ShortCall

open Kernel

theorem calm_run {call : ShortCall} (notTry : ∀ lock, call ≠ .tryAcquire lock) :
    Calm (call.run me) :=
  conveys_calm.run (fun calm => calm_inSection fun _ => calm)
    fun lock is => absurd is (notTry lock)

/-- To try a lock does not pass any priority on. -/
theorem unstopped_run {call : ShortCall} : Unstopped (call.run me) :=
  conveys_unstopped.run
    (fun unstopped => avoids_inSection (by simp [Revisits]) (by simp [Revisits]) fun _ => unstopped)
    fun _ _ => ⟨id, fun donates _ =>
      avoids_withThreads id ((tabular_unstopped donates).takeOwnership fun _ => id)⟩

end ShortCall

end KernelSync
