import KernelSync.Condvar
import KernelSync.Proofs.DonorLists

/-!
Accesses to cells. Between two stretches no access is in progress (`Kernel.Quiet`). From there an
access is never refused, and leaves no trace but what its body does to the cell; so each operation
on a semaphore or a condition variable comes to the plain change of a value that its `_run` equation
gives.
-/

namespace KernelSync

open Stretch

namespace Kernel

variable {k : Kernel} {s t : SemaphoreId} {c d : CondvarId} {table : ThreadTable} {α : Type}

/-! ### Reading back what was written -/

@[simp] theorem table_setTable : (k.setTable table).table = table := rfl

@[simp] theorem semaphore_setTable : (k.setTable table).semaphore s = k.semaphore s := rfl

@[simp] theorem waiters_setTable : (k.setTable table).waiters c = k.waiters c := rfl

@[simp] theorem table_setSemaphore {value : Semaphore} : (k.setSemaphore s value).table = k.table :=
  rfl

@[simp] theorem mode_setSemaphore {value : Semaphore} : (k.setSemaphore s value).mode = k.mode :=
  rfl

@[simp] theorem waiters_setSemaphore {value : Semaphore} :
    (k.setSemaphore s value).waiters c = k.waiters c := rfl

@[simp] theorem table_setWaiters {list : List Waiter} : (k.setWaiters c list).table = k.table := rfl

@[simp] theorem semaphore_setWaiters {list : List Waiter} :
    (k.setWaiters c list).semaphore s = k.semaphore s := rfl

@[simp] theorem table_addSemaphore {count : Nat} : (k.addSemaphore count).table = k.table := rfl

@[simp] theorem waiters_addSemaphore {count : Nat} :
    (k.addSemaphore count).waiters c = k.waiters c := rfl

@[simp] theorem length_setSemaphore {value : Semaphore} :
    (k.setSemaphore s value).semaphores.length = k.semaphores.length := by
  simp [setSemaphore]

@[simp] theorem length_addSemaphore {count : Nat} :
    (k.addSemaphore count).semaphores.length = k.semaphores.length + 1 := by
  simp [addSemaphore]

theorem semaphore_setSemaphore_self {value : Semaphore} (present : s.index < k.semaphores.length) :
    (k.setSemaphore s value).semaphore s = value := by
  simp [semaphore, semaphoreCell, setSemaphore, List.getD, present]

theorem semaphore_setSemaphore_of_ne {value : Semaphore} (apart : t ≠ s) :
    (k.setSemaphore s value).semaphore t = k.semaphore t := by
  have differ : s.index ≠ t.index := by
    intro same
    exact apart (by cases s; cases t; simp_all)
  simp [semaphore, semaphoreCell, setSemaphore, List.getD, differ]

/-- What a write to a semaphore leaves as it was, of that one, it leaves of all. -/
theorem view_setSemaphore {β : Type} (view : Semaphore → β) {value : Semaphore}
    (same : view value = view (k.semaphore s)) :
    view ((k.setSemaphore s value).semaphore t) = view (k.semaphore t) := by
  by_cases here : t = s
  · subst here
    by_cases present : t.index < k.semaphores.length
    · rw [semaphore_setSemaphore_self present, same]
    · have outside : k.semaphores.length ≤ t.index := Nat.le_of_not_lt present
      simp [semaphore, semaphoreCell, setSemaphore, List.getD, outside]
  · rw [semaphore_setSemaphore_of_ne here]

theorem semaphore_addSemaphore_next {count : Nat} :
    (k.addSemaphore count).semaphore k.nextSemaphore = ⟨count, []⟩ := by
  simp [semaphore, semaphoreCell, addSemaphore, nextSemaphore, List.getD]

theorem semaphore_addSemaphore_of_lt {count : Nat} (present : s.index < k.semaphores.length) :
    (k.addSemaphore count).semaphore s = k.semaphore s := by
  simp [semaphore, semaphoreCell, addSemaphore, List.getD, List.getElem?_append, present]

theorem waiters_setWaiters_self {list : List Waiter} (present : c.index < k.condvars.length) :
    (k.setWaiters c list).waiters c = list := by
  simp [waiters, condvarCell, setWaiters, List.getD, present]

theorem waiters_setWaiters_of_ne {list : List Waiter} (apart : d ≠ c) :
    (k.setWaiters c list).waiters d = k.waiters d := by
  have differ : c.index ≠ d.index := by
    intro same
    exact apart (by cases c; cases d; simp_all)
  simp [waiters, condvarCell, setWaiters, List.getD, differ]

theorem mem_setWaiters {list : List Waiter} {w : Waiter}
    (mem : w ∈ (k.setWaiters c list).waiters d) : w ∈ k.waiters d ∨ w ∈ list := by
  by_cases here : d = c
  · subst here
    by_cases present : d.index < k.condvars.length
    · rw [waiters_setWaiters_self present] at mem
      exact Or.inr mem
    · have outside : k.condvars.length ≤ d.index := Nat.le_of_not_lt present
      simp [waiters, condvarCell, setWaiters, List.getD, outside] at mem
  · rw [waiters_setWaiters_of_ne here] at mem
    exact Or.inl mem

/-! ### Quiet kernels -/

/-- No access is in progress. -/
structure Quiet (k : Kernel) : Prop where
  threads : k.threads.busy = false
  semaphores : ∀ cell ∈ k.semaphores, cell.busy = false
  condvars : ∀ cell ∈ k.condvars, cell.busy = false

theorem mem_modify {β : Type} {list : List β} {index : Nat} {f : β → β} {b : β}
    (mem : b ∈ list.modify index f) : b ∈ list ∨ ∃ a ∈ list, b = f a := by
  obtain ⟨i, small, rfl⟩ := List.getElem_of_mem mem
  have small' : i < list.length := by simpa using small
  rw [List.getElem_modify]
  split
  · exact Or.inr ⟨_, List.getElem_mem small', rfl⟩
  · exact Or.inl (List.getElem_mem small')

theorem Quiet.setTable (quiet : Quiet k) (table : ThreadTable) : Quiet (k.setTable table) :=
  ⟨quiet.threads, quiet.semaphores, quiet.condvars⟩

theorem Quiet.setSemaphore (quiet : Quiet k) (s : SemaphoreId) (value : Semaphore) :
    Quiet (k.setSemaphore s value) := by
  refine ⟨quiet.threads, fun cell mem => ?_, quiet.condvars⟩
  rcases mem_modify mem with old | ⟨before, old, rfl⟩
  · exact quiet.semaphores cell old
  · exact quiet.semaphores before old

theorem Quiet.setWaiters (quiet : Quiet k) (c : CondvarId) (list : List Waiter) :
    Quiet (k.setWaiters c list) := by
  refine ⟨quiet.threads, quiet.semaphores, fun cell mem => ?_⟩
  rcases mem_modify mem with old | ⟨before, old, rfl⟩
  · exact quiet.condvars cell old
  · exact quiet.condvars before old

theorem Quiet.addSemaphore (quiet : Quiet k) (count : Nat) : Quiet (k.addSemaphore count) := by
  refine ⟨quiet.threads, fun cell mem => ?_, quiet.condvars⟩
  rcases List.mem_append.mp mem with old | new
  · exact quiet.semaphores cell old
  · rw [List.mem_singleton.mp new]

theorem Quiet.withDepth (quiet : Quiet k) (depth : Nat) : Quiet { k with depth } :=
  ⟨quiet.threads, quiet.semaphores, quiet.condvars⟩

theorem Quiet.semaphore (quiet : Quiet k) (s : SemaphoreId) : (k.semaphoreCell s).busy = false := by
  unfold semaphoreCell
  rw [List.getD_eq_getElem?_getD]
  cases found : k.semaphores[s.index]? with
  | none => rfl
  | some cell => exact quiet.semaphores cell (List.mem_of_getElem? found)

theorem Quiet.condvar (quiet : Quiet k) (c : CondvarId) : (k.condvarCell c).busy = false := by
  unfold condvarCell
  rw [List.getD_eq_getElem?_getD]
  cases found : k.condvars[c.index]? with
  | none => rfl
  | some cell => exact quiet.condvars cell (List.mem_of_getElem? found)

/-! ### Accesses -/

/-- An access that is not refused runs its body with the flag up. -/
theorem accessing_run {cell : CellId} (calm : k.busy cell = false) (body : Stretch Kernel α) :
    accessing cell body k =
      ⟨(body (k.setBusy true cell)).outcome, (body (k.setBusy true cell)).state.setBusy false cell,
        (body (k.setBusy true cell)).events⟩ := by
  unfold accessing
  rw [bind_run_ok (read_run _ _), bind_run_ok (require_run (by simp [calm]) _ _),
    bind_run_ok (update_run _ _)]
  simp [ensuring]

/-- A computation on the thread table has the table to itself. -/
theorem withThreads_run (calm : k.threads.busy = false) (body : Stretch ThreadTable α) :
    withThreads body k =
      ⟨(body k.table).outcome, k.setTable (body k.table).state, (body k.table).events⟩ := by
  unfold withThreads
  have same : k.busy .threads = false := calm
  rw [accessing_run same]
  unfold within setBusy setTable
  rcases k with ⟨⟨value, busy⟩, semaphores, condvars, data, mode, depth, inInterrupt⟩
  have eq : busy = false := calm
  subst eq
  rfl

/-- A computation that only looks at the thread table leaves the kernel as it is. -/
theorem withThreads_looks (calm : k.threads.busy = false) {body : Stretch ThreadTable α}
    (looks : Looks body) : withThreads body k = ⟨(body k.table).outcome, k, []⟩ := by
  rw [withThreads_run calm, (looks k.table).1, (looks k.table).2]
  rfl

/-! ### Cells that are written during an access -/

theorem modify_congr_mem {β : Type} {list : List β} {index : Nat} {f g : β → β}
    (same : ∀ b ∈ list, f b = g b) : list.modify index f = list.modify index g := by
  apply List.ext_getElem?
  intro i
  rw [List.getElem?_modify, List.getElem?_modify]
  cases found : list[i]? with
  | none => rfl
  | some b => simp [same b (List.mem_of_getElem? found)]

theorem Quiet.semaphore_idle (quiet : Quiet k) (s : SemaphoreId) :
    (k.setBusy true (.semaphore s)).setBusy false (.semaphore s) = k := by
  have same : (k.semaphores.modify s.index ({ · with busy := true })).modify s.index
      ({ · with busy := false }) = k.semaphores.modify s.index fun cell => cell := by
    rw [List.modify_modify_eq]
    refine modify_congr_mem fun cell mem => ?_
    rw [← quiet.semaphores cell mem]
    rfl
  unfold setBusy
  dsimp only
  rw [same]
  rw [show k.semaphores.modify s.index (fun cell => cell) = k.semaphores from List.modify_id ..]

theorem Quiet.semaphore_stored (quiet : Quiet k) (s : SemaphoreId) (value : Semaphore) :
    ((k.setBusy true (.semaphore s)).setSemaphore s value).setBusy false (.semaphore s) =
      k.setSemaphore s value := by
  have same : ((k.semaphores.modify s.index ({ · with busy := true })).modify s.index
      ({ · with value })).modify s.index ({ · with busy := false }) =
        k.semaphores.modify s.index ({ · with value }) := by
    rw [List.modify_modify_eq, List.modify_modify_eq]
    refine modify_congr_mem fun cell mem => ?_
    rw [← quiet.semaphores cell mem]
    rfl
  unfold setBusy Kernel.setSemaphore
  dsimp only
  rw [same]

theorem Quiet.condvar_idle (quiet : Quiet k) (c : CondvarId) :
    (k.setBusy true (.condvar c)).setBusy false (.condvar c) = k := by
  have same : (k.condvars.modify c.index ({ · with busy := true })).modify c.index
      ({ · with busy := false }) = k.condvars.modify c.index fun cell => cell := by
    rw [List.modify_modify_eq]
    refine modify_congr_mem fun cell mem => ?_
    rw [← quiet.condvars cell mem]
    rfl
  unfold setBusy
  dsimp only
  rw [same]
  rw [show k.condvars.modify c.index (fun cell => cell) = k.condvars from List.modify_id ..]

theorem Quiet.condvar_stored (quiet : Quiet k) (c : CondvarId) (list : List Waiter) :
    ((k.setBusy true (.condvar c)).setWaiters c list).setBusy false (.condvar c) =
      k.setWaiters c list := by
  have same : ((k.condvars.modify c.index ({ · with busy := true })).modify c.index
      ({ · with value := list })).modify c.index ({ · with busy := false }) =
        k.condvars.modify c.index ({ · with value := list }) := by
    rw [List.modify_modify_eq, List.modify_modify_eq]
    refine modify_congr_mem fun cell mem => ?_
    rw [← quiet.condvars cell mem]
    rfl
  unfold setBusy Kernel.setWaiters
  dsimp only
  rw [same]

theorem setSemaphore_setSemaphore {first second : Semaphore} :
    (k.setSemaphore s first).setSemaphore s second = k.setSemaphore s second := by
  unfold setSemaphore
  dsimp only
  rw [List.modify_modify_eq]
  rfl

theorem semaphore_setBusy (busy : Bool) :
    (k.setBusy busy (.semaphore s)).semaphore s = k.semaphore s := by
  unfold semaphore semaphoreCell setBusy
  simp only [List.getD_eq_getElem?_getD, List.getElem?_modify]
  cases k.semaphores[s.index]? with
  | none => rfl
  | some cell => simp

theorem waiters_setBusy (busy : Bool) :
    (k.setBusy busy (.condvar c)).waiters c = k.waiters c := by
  unfold waiters condvarCell setBusy
  simp only [List.getD_eq_getElem?_getD, List.getElem?_modify]
  cases k.condvars[c.index]? with
  | none => rfl
  | some cell => simp

end Kernel

namespace Semaphore

open Kernel

variable {k : Kernel} {s : SemaphoreId} {me : ThreadId}

theorem tryDown_run (quiet : Quiet k) : tryDown s k =
    if 0 < (k.semaphore s).count then
      ⟨.ok true, k.setSemaphore s ⟨(k.semaphore s).count - 1, (k.semaphore s).waiters⟩, []⟩
    else ⟨.ok false, k, []⟩ := by
  have calm : k.busy (.semaphore s) = false := quiet.semaphore s
  unfold tryDown
  rw [accessing_run calm, bind_run_ok (read_run _ _), semaphore_setBusy]
  by_cases permit : 0 < (k.semaphore s).count
  · rw [if_pos permit, if_pos permit, bind_run_ok (update_run _ _), pure_run]
    simp [quiet.semaphore_stored]
  · rw [if_neg permit, if_neg permit, pure_run]
    simp [quiet.semaphore_idle]

theorem downOrQueue_run (quiet : Quiet k) : downOrQueue me s k =
    if 0 < (k.semaphore s).count then
      ⟨.ok true, k.setSemaphore s ⟨(k.semaphore s).count - 1, (k.semaphore s).waiters⟩, []⟩
    else match (Donation.insertByPriority me (k.semaphore s).waiters k.table).outcome with
      | .ok waiters => ⟨.ok false, k.setSemaphore s ⟨(k.semaphore s).count, waiters⟩, []⟩
      | .error fault => ⟨.error fault, k, []⟩ := by
  have calm : k.busy (.semaphore s) = false := quiet.semaphore s
  unfold downOrQueue
  rw [accessing_run calm, bind_run_ok (read_run _ _), semaphore_setBusy]
  by_cases permit : 0 < (k.semaphore s).count
  · rw [if_pos permit, if_pos permit, bind_run_ok (update_run _ _), pure_run]
    simp [quiet.semaphore_stored]
  · have calmThreads : (k.setBusy true (.semaphore s)).threads.busy = false := quiet.threads
    rw [if_neg permit, if_neg permit, bind_run,
      withThreads_looks calmThreads Donation.inspects_insertByPriority.looks]
    have same : (k.setBusy true (.semaphore s)).table = k.table := rfl
    rw [same]
    cases (Donation.insertByPriority me (k.semaphore s).waiters k.table).outcome with
    | ok waiters => simp [bind_run, quiet.semaphore_stored]
    | error fault => simp [quiet.semaphore_idle]

theorem release_run (quiet : Quiet k) : release s k =
    if (k.semaphore s).count < maxCount then
      match (Donation.sortByPriority (k.semaphore s).waiters k.table).outcome with
      | .ok [] => ⟨.ok none, k.setSemaphore s ⟨(k.semaphore s).count + 1, []⟩, []⟩
      | .ok (woken :: rest) =>
          ⟨.ok (some woken), k.setSemaphore s ⟨(k.semaphore s).count + 1, rest⟩, []⟩
      | .error fault =>
          ⟨.error fault,
            k.setSemaphore s ⟨(k.semaphore s).count + 1, (k.semaphore s).waiters⟩, []⟩
    else ⟨.error .countOverflow, k, []⟩ := by
  have calm : k.busy (.semaphore s) = false := quiet.semaphore s
  unfold release
  rw [accessing_run calm, bind_run_ok (read_run _ _), semaphore_setBusy]
  by_cases room : (k.semaphore s).count < maxCount
  · rw [if_pos room, bind_run_ok (require_run room _ _), bind_run_ok (update_run _ _)]
    cases waiting : (k.semaphore s).waiters with
    | nil =>
      simp [Donation.sortByPriority, quiet.semaphore_stored]
    | cons first others =>
      have calmThreads : ((k.setBusy true (.semaphore s)).setSemaphore s
          ⟨(k.semaphore s).count + 1, first :: others⟩).threads.busy = false := quiet.threads
      have same : ((k.setBusy true (.semaphore s)).setSemaphore s
          ⟨(k.semaphore s).count + 1, first :: others⟩).table = k.table := rfl
      dsimp only
      rw [if_neg (by simp), bind_run,
        withThreads_looks calmThreads Donation.inspects_sortByPriority.looks, same]
      rcases hsort : (Donation.sortByPriority (first :: others) k.table).outcome with fault | sorted
      · simp [quiet.semaphore_stored]
      · cases sorted with
        | nil =>
          have run : Donation.sortByPriority (first :: others) k.table = ⟨.ok [], k.table, []⟩ := by
            rw [Donation.inspects_sortByPriority.looks.eq k.table, hsort]
          have perm := Donation.sortedByRank_perm k.table (first :: others)
          rw [← Donation.sortByPriority_eq_ok run] at perm
          exact absurd perm.length_eq (by simp)
        | cons woken rest =>
          simp [bind_run, quiet.semaphore_stored, setSemaphore_setSemaphore]
  · rw [if_neg room, bind_run_error (require_run_of_not room _ _)]
    simp [quiet.semaphore_idle]

end Semaphore

namespace Condvar

open Kernel

variable {k : Kernel} {c : CondvarId} {me : ThreadId} {lock : LockId}

theorem requireHolds_run (calm : k.threads.busy = false) (call : CondvarCall) :
    requireHolds call me lock k =
      if k.table.holder? lock = some me then ⟨.ok (), k, []⟩
      else ⟨.error (.lockNotHeld call me lock (k.table.holder? lock)), k, []⟩ := by
  unfold requireHolds
  have reads : withThreads (Stretch.read (·.holder? lock)) k =
      ⟨.ok (k.table.holder? lock), k, []⟩ :=
    withThreads_looks calm (looks_read _)
  rw [bind_run_ok reads]
  split
  · rename_i mine
    rw [require_run mine]
    rfl
  · rename_i notMine
    rw [require_run_of_not notMine]
    rfl

theorem inspects_sortByPriority (list : List Waiter) : Inspects (sortByPriority list) := by
  refine ⟨fun table => ?_, fun table fault fails => ?_⟩
  · unfold sortByPriority
    split
    · exact ⟨rfl, rfl⟩
    · split
      · exact ⟨rfl, rfl⟩
      · exact ⟨rfl, rfl⟩
  · unfold sortByPriority at fails
    split at fails
    · exact nomatch fails
    · split at fails
      · exact ⟨_, (Except.error.inj fails).symm⟩
      · exact nomatch fails

theorem sortedByRank_perm (table : ThreadTable) (list : List Waiter) :
    (sortedByRank table list).Perm list :=
  List.mergeSort_perm ..

/-- A sort that succeeds gives the registrations by the rank of their threads. -/
theorem sortByPriority_eq_ok {table table' : ThreadTable} {list result : List Waiter}
    {events : List Event} (run : sortByPriority list table = ⟨.ok result, table', events⟩) :
    result = sortedByRank table list := by
  unfold sortByPriority at run
  split at run
  · rename_i short
    simp only [Run.mk.injEq, Except.ok.injEq] at run
    rw [← run.1]
    match list, short with
    | [], _ => exact List.mergeSort_nil.symm
    | [w], _ => exact (List.mergeSort_singleton w).symm
  · split at run
    · simp at run
    · simp only [Run.mk.injEq, Except.ok.injEq] at run
      exact run.1.symm

theorem takeMostUrgent_run (quiet : Quiet k) : takeMostUrgent c k =
    match (sortByPriority (k.waiters c) k.table).outcome with
    | .ok [] => ⟨.ok none, k, []⟩
    | .ok (first :: rest) => ⟨.ok (some first), k.setWaiters c rest, []⟩
    | .error fault => ⟨.error fault, k, []⟩ := by
  have calm : k.busy (.condvar c) = false := quiet.condvar c
  have calmThreads : (k.setBusy true (.condvar c)).threads.busy = false := quiet.threads
  have same : (k.setBusy true (.condvar c)).table = k.table := rfl
  unfold takeMostUrgent
  rw [accessing_run calm, bind_run_ok (read_run _ _), waiters_setBusy, bind_run,
    withThreads_looks calmThreads (inspects_sortByPriority _).looks, same]
  rcases (sortByPriority (k.waiters c) k.table).outcome with fault | sorted
  · simp [quiet.condvar_idle]
  · cases sorted with
    | nil => simp [quiet.condvar_idle]
    | cons first rest => simp [bind_run, quiet.condvar_stored]

/-- A registration brings a new semaphore, on which nobody waits, and goes to the end of the
list. -/
theorem register_run (quiet : Quiet k) : register me c lock k =
    if k.table.holder? lock = some me then
      ⟨.ok k.nextSemaphore,
        (k.addSemaphore 0).setWaiters c (k.waiters c ++ [⟨me, k.nextSemaphore⟩]), []⟩
    else ⟨.error (.lockNotHeld .wait me lock (k.table.holder? lock)), k, []⟩ := by
  have grown := quiet.addSemaphore 0
  have calm : (k.addSemaphore 0).busy (.condvar c) = false := grown.condvar c
  unfold register
  rw [bind_run, requireHolds_run quiet.threads]
  by_cases mine : k.table.holder? lock = some me
  · simp only [if_pos mine]
    rw [bind_run_ok (read_run _ _), bind_run_ok (update_run _ _), bind_run, accessing_run calm]
    simp only [update_run, waiters_setBusy, grown.condvar_stored]
    rfl
  · simp only [if_neg mine]

end Condvar

end KernelSync
