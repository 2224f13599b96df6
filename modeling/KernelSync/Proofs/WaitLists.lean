import KernelSync.Proofs.Conduct
import KernelSync.Proofs.Queues
import KernelSync.Proofs.Refusals

/-!
Wait lists, all of them together (`Kernel.waiting`). A stretch of a call puts its own thread into them,
takes one thread out, or leaves them (`Stirs.waiting`). A stretch that is cut short leaves them as they
were, and so does what is no stretch of a call (`Still`); and nobody comes or goes meanwhile.
-/

namespace KernelSync

open Stretch Kernel

variable {α β : Type} {me t u : ThreadId} {k k' k'' : Kernel} {x : SemaphoreId} {fault : Fault}

namespace Kernel

/-- All wait lists, one behind the other. -/
def waiting (k : Kernel) : List ThreadId :=
  (List.range k.semaphores.length).flatMap fun i => k.queue ⟨i⟩

theorem mem_waiting : t ∈ k.waiting ↔ ∃ x, t ∈ k.queue x := by
  unfold waiting
  rw [List.mem_flatMap]
  constructor
  · rintro ⟨i, -, mem⟩
    exact ⟨⟨i⟩, mem⟩
  · rintro ⟨x, mem⟩
    exact ⟨x.index, List.mem_range.mpr (present_of_mem mem), mem⟩

/-- It does no harm to ask for semaphores that are not there. -/
theorem waiting_eq {n : Nat} (all : k.semaphores.length ≤ n) :
    k.waiting = (List.range n).flatMap fun i => k.queue ⟨i⟩ := by
  induction n, all using Nat.le_induction with
  | base => rfl
  | succ n all ih =>
    rw [List.range_succ, List.flatMap_append, ← ih, List.flatMap_singleton, queue_of_absent all,
      List.append_nil]

theorem waiting_congr (same : ∀ x, k'.queue x = k.queue x) : k'.waiting = k.waiting := by
  rw [waiting_eq (Nat.le_max_left _ k.semaphores.length),
    waiting_eq (Nat.le_max_right k'.semaphores.length _)]
  exact List.flatMap_congr fun i _ => same ⟨i⟩

/-- One list among others gets longer by one. -/
theorem flatMap_perm_cons {γ : Type} {f g : Nat → List γ} {list : List Nat} {i : Nat} {a : γ}
    (once : list.Nodup) (mem : i ∈ list) (longer : (g i).Perm (a :: f i))
    (others : ∀ j, j ≠ i → g j = f j) : (list.flatMap g).Perm (a :: list.flatMap f) := by
  induction list with
  | nil => cases mem
  | cons j rest ih =>
    obtain ⟨apart, once⟩ := List.nodup_cons.mp once
    rw [List.flatMap_cons, List.flatMap_cons]
    by_cases here : j = i
    · subst here
      have same : rest.flatMap g = rest.flatMap f :=
        List.flatMap_congr fun l mem => others l fun is => apart (is ▸ mem)
      rw [same]
      exact longer.append_right _
    · have mem : i ∈ rest := (List.mem_cons.mp mem).resolve_left (Ne.symm here)
      rw [others j here]
      exact ((ih once mem).append_left _).trans List.perm_middle

/-- Somebody has come to wait. -/
theorem waiting_perm_cons (joins : (k'.queue x).Perm (t :: k.queue x))
    (others : ∀ y, y ≠ x → k'.queue y = k.queue y) : k'.waiting.Perm (t :: k.waiting) := by
  have present : x.index < k'.semaphores.length :=
    present_of_mem (joins.mem_iff.mpr List.mem_cons_self)
  rw [waiting_eq (Nat.le_max_left _ k.semaphores.length),
    waiting_eq (Nat.le_max_right k'.semaphores.length _)]
  refine flatMap_perm_cons List.nodup_range
    (List.mem_range.mpr (Nat.lt_of_lt_of_le present (Nat.le_max_left ..))) joins fun j apart => ?_
  exact others ⟨j⟩ fun is => apart (congrArg SemaphoreId.index is)

end Kernel

/-- What a stretch does to the wait lists shows in what it asks of the scheduler. -/
theorem Stirs.waiting {progress : Progress} (stirs : Stirs me k k' progress) :
    match progress.request with
    | .block => k'.waiting.Perm (me :: k.waiting)
    | .unblock woken => k.waiting.Perm (woken :: k'.waiting)
    | .proceed | .check => k'.waiting = k.waiting := by
  cases stirs with
  | still same noBlock noWake =>
    generalize progress.request = request at noBlock noWake ⊢
    cases request with
    | proceed | check => exact waiting_congr same
    | block => exact absurd rfl noBlock
    | unblock woken => exact absurd rfl (noWake woken)
  | joins place at_ blocks perm others =>
    rw [blocks]
    exact waiting_perm_cons perm others
  | wakes unblocks perm others =>
    rw [unblocks]
    exact waiting_perm_cons perm.symm fun y apart => (others y apart).symm

/-! ### Wait lists that stay as they are -/

/-- The wait lists are as they were. -/
structure SameLists (k k' : Kernel) : Prop where
  queue : ∀ x, k'.queue x = k.queue x
  length : k'.semaphores.length = k.semaphores.length

theorem sameLists_of_semaphores (same : k'.semaphores = k.semaphores) : SameLists k k' := by
  constructor
  · intro x
    unfold Kernel.queue semaphore semaphoreCell
    rw [same]
  · rw [same]

/-- To write a count leaves the wait lists. -/
theorem sameLists_setSemaphore {count : Nat} :
    SameLists k (k.setSemaphore x ⟨count, (k.semaphore x).waiters⟩) :=
  ⟨fun _ => queue_setSemaphore rfl, length_setSemaphore⟩

/-- Besides, nobody has come or gone, and no access is in progress. -/
structure Untouched (k k' : Kernel) : Prop extends SameLists k k' where
  quiet : k'.Quiet
  live : ∀ t, k'.table.contains t = k.table.contains t

theorem Untouched.refl (quiet : k.Quiet) : Untouched k k :=
  ⟨sameLists_of_semaphores rfl, quiet, fun _ => rfl⟩

theorem Untouched.trans (first : Untouched k k') (second : Untouched k' k'') : Untouched k k'' where
  queue x := (second.queue x).trans (first.queue x)
  length := second.length.trans first.length
  quiet := second.quiet
  live t := (second.live t).trans (first.live t)

theorem Conducts.untouched {run : Run Kernel α} (conducts : Conducts presence k run)
    (lists : SameLists k run.state) : Untouched k run.state where
  toSameLists := lists
  quiet := conducts.quiet
  live := conducts.table.agree.contains

/-- However the computation ends, it leaves the wait lists and nobody comes or goes. -/
def Still (x : Stretch Kernel α) : Prop := ∀ k : Kernel, k.Quiet → Untouched k (x k).state

theorem still_of_conducted {x : Stretch Kernel α}
    (conducted : ∀ donates, WellConducted presence donates x)
    (lists : ∀ k : Kernel, k.Quiet → SameLists k (x k).state) : Still x :=
  fun k quiet => (conducted _ k quiet rfl).untouched (lists k quiet)

theorem still_pure (a : α) : Still (Pure.pure a : Stretch Kernel α) := fun _ => .refl

theorem still_bind {x : Stretch Kernel α} {f : α → Stretch Kernel β} (first : Still x)
    (next : ∀ a, Still (f a)) : Still (x >>= f) := by
  intro k quiet
  have before := first k quiet
  rcases run : x k with ⟨fault | a, mid, events⟩
  · rw [run] at before
    rw [bind_run_error run]
    exact before
  · rw [run] at before
    rw [bind_run_ok run]
    exact before.trans (next a mid before.quiet)

theorem still_require {condition : Prop} [Decidable condition] {fault : Fault} :
    Still (require condition fault) := by
  intro k quiet
  unfold require
  split
  · exact .refl quiet
  · exact .refl quiet

theorem still_enter : Still enter := fun _ quiet =>
  ⟨sameLists_of_semaphores rfl, quiet.withDepth _, fun _ => rfl⟩

theorem still_leave {saved : Nat} : Still (leave saved) := fun _ quiet =>
  ⟨sameLists_of_semaphores rfl, quiet.withDepth _, fun _ => rfl⟩

theorem still_inSection {x : Nat → Stretch Kernel α} (still : ∀ saved, Still (x saved)) :
    Still (inSection x) := by
  intro k quiet
  have inner := still k.depth { k with depth := k.depth + 1 } (quiet.withDepth _)
  rw [inSection_run]
  exact ⟨⟨inner.queue, inner.length⟩, inner.quiet.withDepth _, inner.live⟩

/-- Nobody comes or goes where the primitives work on the table. -/
theorem still_withThreads {x : Stretch ThreadTable α} (hides : Hides presence x) :
    Still (withThreads x) := by
  intro k quiet
  rw [withThreads_run quiet.threads]
  exact ⟨sameLists_of_semaphores rfl, quiet.setTable _, (hides k.table).agree.contains⟩

theorem still_look {cell : CellId} {f : Kernel → α}
    (idle : ∀ k : Kernel, k.Quiet → k.busy cell = false ∧
      (k.setBusy true cell).setBusy false cell = k) : Still (accessing cell (read f)) := by
  intro k quiet
  obtain ⟨free, back⟩ := idle k quiet
  rw [accessing_run free, read_run, back]
  exact .refl quiet

theorem still_tryDown {s : SemaphoreId} : Still (Semaphore.tryDown s) := by
  refine still_of_conducted (fun _ => Semaphore.conducted_tryDown) fun k quiet => ?_
  rw [Semaphore.tryDown_run quiet]
  split
  · exact sameLists_setSemaphore
  · exact sameLists_of_semaphores rfl

theorem tries_still : Tries Still (fun _ => True) fun _ => True where
  value := still_pure
  bind := still_bind
  read _ := fun _ => .refl
  require _ := still_require
  log _ := fun _ => .refl
  byMode next := still_bind (fun _ => .refl) fun donates => next donates trivial
  looks _ := still_withThreads (hides_read _)
  tryDown _ := still_tryDown

/-- A call without a wait puts nobody into a wait list. -/
theorem ShortCall.still_run {call : ShortCall} : Still (call.run me) :=
  tries_still.run (fun still => still_inSection fun _ => still) fun _ _ => ⟨trivial, fun _ _ =>
    still_withThreads ((tabular_hides overlooks_presence).takeOwnership fun _ => trivial)⟩

namespace Frame

variable {frame : Frame} {frames : List Frame}

theorem still_unwind : Still (unwind frames) := tries_still.unwind fun _ => still_leave

/-- A thread that cannot queue is in no queue. -/
theorem downOrQueue_of_fails (quiet : k.Quiet)
    (fails : (Semaphore.downOrQueue me x k).outcome = .error fault) :
    Semaphore.downOrQueue me x k = ⟨.error fault, k, []⟩ := by
  rw [Semaphore.downOrQueue_run quiet] at fails ⊢
  split at fails
  · cases fails
  · rename_i empty
    rw [if_neg empty]
    rcases inserts : (Donation.insertByPriority me (k.semaphore x).waiters k.table).outcome with
      other | waiters
    · rw [inserts] at fails
      cases fails
      rfl
    · rw [inserts] at fails
      cases fails

theorem sameLists_takeOrQueue (quiet : k.Quiet) {lock : Lock} {donates : Bool}
    (fails : (takeOrQueue me lock donates k).outcome = .error fault) :
    SameLists k (takeOrQueue me lock donates k).state := by
  unfold takeOrQueue at fails ⊢
  rcases run : Semaphore.downOrQueue me lock.semaphore k with ⟨other | taken, mid, events⟩
  · have same := downOrQueue_of_fails quiet (congrArg Run.outcome run)
    rw [run] at same
    cases same
    rw [bind_run_error run]
    exact sameLists_of_semaphores rfl
  · rw [bind_run_ok run] at fails ⊢
    rcases downOrQueue_eq_ok quiet run with ⟨rfl, permit, rfl⟩ | ⟨rfl, empty, rfl⟩
    · have calm : (k.permitTaken lock.semaphore).Quiet := quiet.setSemaphore _ _
      have claims := withThreads_run calm.threads (Lock.claim lock.id me donates)
      rcases ends : (Lock.claim lock.id me donates (k.permitTaken lock.semaphore).table).outcome with
        other | ⟨⟩
      · rw [ends] at claims
        have stops := bind_run_error claims fun _ => (do
          Stretch.log (.acquired me lock.id)
          return ⟨[], .proceed⟩ : Stretch Kernel Progress)
        dsimp only
        rw [if_pos rfl, stops]
        exact ⟨sameLists_setSemaphore.queue, sameLists_setSemaphore.length⟩
      · rw [ends] at claims
        have goesOn := bind_run_ok claims fun _ => (do
          Stretch.log (.acquired me lock.id)
          return ⟨[], .proceed⟩ : Stretch Kernel Progress)
        dsimp only at fails
        rw [if_pos rfl, goesOn] at fails
        cases fails
    · cases fails

/-- A stretch that is cut short has put nobody into a wait list, and has taken nobody out. -/
theorem sameLists_of_fails (quiet : k.Quiet)
    (fails : (frame.advance me k).outcome = .error fault) :
    SameLists k (frame.advance me k).state := by
  by_cases refused : ∃ other, frame.refusal? me k = some other
  · obtain ⟨other, refused⟩ := refused
    obtain ⟨events, run⟩ := advance_refused quiet refused
    rw [run]
    exact sameLists_of_semaphores rfl
  have allowed : frame.refusal? me k = none :=
    Option.eq_none_iff_forall_ne_some.mpr fun other is => refused ⟨other, is⟩
  have cut : ∀ {k' : Kernel}, (frame.advance me k).state = k' → SameLists k k' →
      SameLists k (frame.advance me k).state := fun same lists => same ▸ lists
  cases frame with
  | call made =>
    cases made with
    | down | acquire =>
      have mayWait := fun call =>
        (requireCanWait_run (k := k) call).trans (if_pos (barsWait_eq_none.mp allowed))
      exact nomatch (congrArg Run.outcome (bind_run_ok (mayWait _) _)).symm.trans fails
    | wait => exact absurd (refusal_of_wait quiet fails) refused
    | up | release | signal | broadcast => cases fails
  | down s =>
    obtain ⟨queues, same⟩ := bind_of_fails (fun taken mid => by cases taken <;> exact ⟨_, rfl⟩) fails
    refine cut same ?_
    rw [downOrQueue_of_fails quiet queues]
    exact sameLists_of_semaphores rfl
  | acquire lock =>
    rw [acquire_run quiet] at fails ⊢
    generalize Lock.register lock.id me k.mode.donates k.table = run at fails ⊢
    rcases run with ⟨other | ⟨⟩, table, events⟩
    · exact sameLists_of_semaphores rfl
    · have inner : SameLists (k.setTable table)
          (takeOrQueue me lock k.mode.donates (k.setTable table)).state :=
        sameLists_takeOrQueue (quiet.setTable table) fails
      exact ⟨inner.queue, inner.length⟩
  | up s =>
    obtain ⟨releases, same⟩ :=
      bind_of_fails (fun woken mid => by cases woken <;> exact ⟨_, rfl⟩) fails
    refine cut same ?_
    rw [Semaphore.release_run quiet] at releases ⊢
    split
    · rename_i room
      rw [if_pos room] at releases
      rcases sorts : (Donation.sortByPriority (k.semaphore s).waiters k.table).outcome with
        other | ⟨⟩ | ⟨woken, rest⟩
      · exact sameLists_setSemaphore
      · rw [sorts] at releases
        cases releases
      · rw [sorts] at releases
        cases releases
    · exact sameLists_of_semaphores rfl
  | giveUp lock =>
    obtain ⟨-, same⟩ := bind_of_fails (x := withThreads (Lock.giveUp lock.id me k.mode.donates))
      (f := fun _ => (do
        Stretch.log (.released me lock.id)
        return ⟨[.up lock.semaphore], .proceed⟩ : Stretch Kernel Progress))
      (fun _ _ => ⟨_, rfl⟩) fails
    refine cut same ?_
    rw [withThreads_run quiet.threads]
    exact sameLists_of_semaphores rfl
  | claim purpose lock =>
    obtain ⟨-, same⟩ := bind_of_fails (fun _ mid => ⟨_, rfl⟩) fails
    refine cut same ?_
    rw [Condvar.requireHolds_run quiet.threads]
    split
    · exact sameLists_of_semaphores rfl
    · exact sameLists_of_semaphores rfl
  | signal c | broadcast c =>
    obtain ⟨takes, same⟩ :=
      bind_of_fails (fun taken mid => by cases taken <;> exact ⟨_, rfl⟩) fails
    refine cut same ?_
    rw [Condvar.takeMostUrgent_run quiet] at takes ⊢
    rcases sorts : (Condvar.sortByPriority (k.waiters c) k.table).outcome with
      other | ⟨⟩ | ⟨first, rest⟩
    · exact sameLists_of_semaphores rfl
    · rw [sorts] at takes
      cases takes
    · rw [sorts] at takes
      cases takes
  | downQueued | acquireQueued | check | signaled | leave => cases fails

/-- A call that is cut short leaves the wait lists, and nobody comes or goes. -/
theorem untouched_of_fails (quiet : k.Quiet) (fails : (step me frames k).outcome = .error fault) :
    Untouched k (step me frames k).state := by
  cases frames with
  | nil => cases fails
  | cons frame rest =>
    obtain ⟨-, same⟩ := bind_of_fails (fun _ _ => ⟨_, rfl⟩) fails
    have conducts : Conducts presence k (frame.advance me k) :=
      conducted_advance overlooks_presence k quiet rfl
    rcases run : frame.advance me k with ⟨other | progress, mid, events⟩
    · have before := conducts.untouched (sameLists_of_fails quiet (congrArg Run.outcome run))
      rw [run] at before
      have gives : onFault (frame.advance me) (unwind rest) k =
          ⟨.error other, (unwind rest mid).state, events ++ (unwind rest mid).events⟩ :=
        onFault_run_error run
      have state : (step me (frame :: rest) k).state = (unwind rest mid).state :=
        same.trans (congrArg Run.state gives)
      rw [state]
      exact before.trans (still_unwind mid before.quiet)
    · have gives : onFault (frame.advance me) (unwind rest) k = ⟨.ok progress, mid, events⟩ :=
        onFault_run_ok run
      have goesOn := bind_run_ok gives fun progress =>
        (return { progress with frames := progress.frames ++ rest } : Stretch Kernel Progress)
      exact nomatch (congrArg Run.outcome goesOn).symm.trans fails

end Frame

end KernelSync
