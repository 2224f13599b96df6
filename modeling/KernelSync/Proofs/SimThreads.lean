import KernelSync.Proofs.Turns

/-!
The threads of a simulation as they are looked up. A turn changes the thread that runs and no other
(`Becomes`), and what only asks the kernel for something changes nothing.
-/

namespace KernelSync.Simulation

open Stretch hiding pure bind
open Kernel

variable {α : Type} {s s' s₁ s₂ : Simulation} {id u : ThreadId} {t t' : SimThread}
  {f : SimThread → SimThread} {events : List Event}

/-! ### Looking up -/

/-- The simulation has a thread of that handle. -/
def Has (s : Simulation) (id : ThreadId) : Prop := ∃ t ∈ s.threads, t.id = id

instance (s : Simulation) (id : ThreadId) : Decidable (s.Has id) :=
  inferInstanceAs (Decidable (∃ t ∈ s.threads, t.id = id))

/-- The handles of the threads, in the order in which they were spawned. -/
def ids (s : Simulation) : List ThreadId := s.threads.map (·.id)

theorem mem_ids : id ∈ s.ids ↔ s.Has id := List.mem_map

theorem find?_of_has (has : s.Has id) :
    ∃ t, (s.threads.find? fun t => t.id = id) = some t ∧ t.id = id := by
  obtain ⟨t, mem, is⟩ := has
  cases found : s.threads.find? fun t => t.id = id with
  | none => exact absurd (decide_eq_true is) (List.find?_eq_none.mp found t mem)
  | some t' =>
    have here := List.find?_some found
    exact ⟨t', rfl, of_decide_eq_true here⟩

theorem thread_id (has : s.Has id) : (s.thread id).id = id := by
  obtain ⟨t, found, is⟩ := find?_of_has has
  unfold thread
  rw [found]
  exact is

/-- To change a thread that is not there changes nothing. -/
theorem modifyThread_of_absent (none : ¬ s.Has id) : s.modifyThread id f = s := by
  have same : (s.modifyThread id f).threads = s.threads := by
    refine (List.map_congr_left fun t mem => ?_).trans (List.map_id _)
    exact if_neg fun is => none ⟨t, mem, is⟩
  show { s with threads := (s.modifyThread id f).threads } = s
  rw [same]

section Modify

variable (keeps : ∀ t, (f t).id = t.id)
include keeps

theorem has_modifyThread : (s.modifyThread id f).Has u ↔ s.Has u := by
  have same : ∀ t : SimThread, (if t.id = id then f t else t).id = t.id := by
    intro t
    split
    · exact keeps t
    · rfl
  unfold Has modifyThread
  constructor
  · rintro ⟨t', mapped, is⟩
    obtain ⟨t, mem, rfl⟩ := List.mem_map.mp mapped
    exact ⟨t, mem, (same t).symm.trans is⟩
  · rintro ⟨t, mem, is⟩
    exact ⟨_, List.mem_map_of_mem mem, (same t).trans is⟩

theorem ids_modifyThread : (s.modifyThread id f).ids = s.ids := by
  unfold ids modifyThread
  rw [List.map_map]
  refine List.map_congr_left fun t _ => ?_
  show (if t.id = id then f t else t).id = t.id
  split
  · exact keeps t
  · rfl

theorem thread_modifyThread (has : s.Has id) :
    (s.modifyThread id f).thread u = if u = id then f (s.thread id) else s.thread u := by
  have same : ∀ t : SimThread, (if t.id = id then f t else t).id = t.id := by
    intro t
    split
    · exact keeps t
    · rfl
  have found : ((s.modifyThread id f).threads.find? fun t => t.id = u) =
      (s.threads.find? fun t => t.id = u).map fun t => if t.id = id then f t else t := by
    unfold modifyThread
    rw [List.find?_map]
    congr 2
    funext t
    simp only [Function.comp_apply, same]
  by_cases here : u = id
  · subst here
    obtain ⟨t, at_, is⟩ := find?_of_has has
    unfold thread
    rw [found, at_, if_pos rfl]
    exact if_pos is
  · rw [if_neg here]
    unfold thread
    rw [found]
    by_cases hasU : s.Has u
    · obtain ⟨t, at_, is⟩ := find?_of_has hasU
      rw [at_]
      exact if_neg (is ▸ here)
    · have none : (s.threads.find? fun t => t.id = u) = none :=
        List.find?_eq_none.mpr fun t mem is => hasU ⟨t, mem, of_decide_eq_true is⟩
      rw [none]
      rfl

theorem modifyThread_modifyThread {g : SimThread → SimThread} :
    (s.modifyThread id f).modifyThread id g = s.modifyThread id fun t => g (f t) := by
  unfold modifyThread
  rw [List.map_map]
  congr 2
  funext t
  simp only [Function.comp_apply]
  split
  · rename_i here
    exact if_pos ((keeps t).trans here)
  · rfl

end Modify

/-! ### The thread that runs -/

/-- The thread that runs has become `t'`; the other threads are as they were. -/
structure Becomes (s s₁ : Simulation) (t' : SimThread) : Prop where
  current : s₁.current = s.current
  main : s₁.main = s.main
  thread : ∀ id, s₁.thread id = if id = s.current then t' else s.thread id
  has : ∀ id, s₁.Has id ↔ s.Has id
  ids : s₁.ids = s.ids

theorem becomes_self (s : Simulation) : Becomes s s s.currentThread where
  current := rfl
  main := rfl
  thread := by
    intro id
    split
    · rename_i here
      exact congrArg s.thread here
    · rfl
  has := fun _ => Iff.rfl
  ids := rfl

/-- What is changed beside the threads leaves them. -/
theorem Becomes.aside (becomes : Becomes s s₁ t) (threads : s₂.threads = s₁.threads)
    (current : s₂.current = s₁.current) (main : s₂.main = s₁.main) : Becomes s s₂ t where
  current := current.trans becomes.current
  main := main.trans becomes.main
  thread := by
    intro id
    unfold Simulation.thread
    rw [threads]
    exact becomes.thread id
  has := by
    intro id
    unfold Has
    rw [threads]
    exact becomes.has id
  ids := by
    unfold Simulation.ids
    rw [threads]
    exact becomes.ids

theorem Becomes.modify (becomes : Becomes s s₁ t) (has : s.Has s.current)
    (keeps : ∀ t, (f t).id = t.id) : Becomes s (s₁.modifyCurrent f) (f t) where
  current := becomes.current
  main := becomes.main
  thread := by
    intro id
    have present : s₁.Has s₁.current := by
      rw [becomes.current]
      exact (becomes.has _).mpr has
    unfold modifyCurrent
    rw [thread_modifyThread keeps present, becomes.current, becomes.thread, becomes.thread,
      if_pos rfl]
    split
    · rfl
    · rfl
  has := fun id => (has_modifyThread keeps).trans (becomes.has id)
  ids := (ids_modifyThread keeps).trans becomes.ids

theorem Becomes.currentThread (becomes : Becomes s s₁ t) : s₁.currentThread = t := by
  unfold Simulation.currentThread
  rw [becomes.current, becomes.thread, if_pos rfl]

/-! ### Threads that are added -/

/-- The simulation with one more thread. -/
def withThread (s : Simulation) (t : SimThread) : Simulation := { s with threads := s.threads ++ [t] }

theorem has_withThread : (s.withThread t).Has u ↔ s.Has u ∨ u = t.id := by
  unfold Has withThread
  simp only [List.mem_append, List.mem_singleton, or_and_right, exists_or, exists_eq_left]
  exact or_congr Iff.rfl eq_comm

theorem ids_withThread : (s.withThread t).ids = s.ids ++ [t.id] := List.map_append

/-- Who was there is found first. -/
theorem thread_withThread : (s.withThread t).thread u =
    if s.Has u then s.thread u else if u = t.id then t else .absent := by
  have searched : (s.withThread t).thread u =
      (((s.threads.find? fun t => t.id = u).or ([t].find? fun t => t.id = u)).getD .absent) := by
    unfold thread withThread
    rw [List.find?_append]
  rw [searched]
  by_cases has : s.Has u
  · obtain ⟨t', found, -⟩ := find?_of_has has
    rw [if_pos has]
    unfold thread
    rw [found]
    rfl
  · have none : (s.threads.find? fun t => t.id = u) = none :=
      List.find?_eq_none.mpr fun t mem is => has ⟨t, mem, of_decide_eq_true is⟩
    rw [if_neg has, none]
    by_cases here : t.id = u
    · rw [if_pos here.symm]
      simp [here]
    · rw [if_neg (Ne.symm here)]
      simp [here]

/-! ### Asking the kernel -/

theorem inKernel_eq_ok {x : Stretch Kernel α} {a : α} :
    inKernel x s = ⟨.ok a, s', events⟩ ↔
      ∃ kernel, x s.kernel = ⟨.ok a, kernel, events⟩ ∧ s' = { s with kernel } :=
  within_eq_ok

theorem inKernel_run {x : Stretch Kernel α} {kernel : Kernel} {outcome : Except Fault α}
    (run : x s.kernel = ⟨outcome, kernel, events⟩) :
    inKernel x s = ⟨outcome, { s with kernel }, events⟩ := by
  unfold inKernel within
  rw [run]
  rfl

/-- What only looks at the kernel, in a section, leaves the simulation. -/
theorem inSection_looks {x : Stretch Kernel α} {a : α}
    (looks : ∀ k : Kernel, k.Quiet → (x k).state = k)
    (quiet : s.kernel.Quiet) (run : inKernel (inSection fun _ => x) s = ⟨.ok a, s', events⟩) :
    s' = s := by
  obtain ⟨kernel, sections, rfl⟩ := inKernel_eq_ok.mp run
  obtain ⟨mid, reported, body, rfl⟩ := inSection_eq_ok sections
  have same := looks _ (quiet.withDepth (s.kernel.depth + 1))
  rw [body] at same
  obtain rfl : mid = { s.kernel with depth := s.kernel.depth + 1 } := same
  rfl

theorem askTable_eq_ok {x : Stretch ThreadTable α} {a : α} (looks : Looks x)
    (quiet : s.kernel.Quiet) (run : askTable x s = ⟨.ok a, s', events⟩) : s' = s := by
  refine inSection_looks (fun k quiet => ?_) quiet run
  rw [withThreads_looks quiet.threads looks]

/-- Whoever is in the table can report that an action is over. -/
theorem conclude_run {action : String} {reply : Reply} (quiet : s.kernel.Quiet)
    (has : s.Has s.current) (live : s.kernel.table.contains s.current = true) :
    conclude action reply s = ⟨.ok (), s,
      [.entered s.kernel.depth, .left (s.kernel.depth + 1) s.kernel.depth,
        .acted s.currentThread.name action reply (Donation.rank s.kernel.table s.current)]⟩ := by
  have is : s.currentThread.id = s.current := thread_id has
  let deeper : Kernel := { s.kernel with depth := s.kernel.depth + 1 }
  have calm : deeper.Quiet := quiet.withDepth _
  have live' : deeper.table.contains s.current = true := live
  have ranks : withThreads (ThreadTable.priority s.current) deeper =
      ⟨.ok (Donation.rank s.kernel.table s.current), deeper, []⟩ := by
    rw [withThreads_run calm.threads, Donation.priority_run_rank live']
    rfl
  have asks : inKernel (inSection fun _ => withThreads (ThreadTable.priority s.current)) s =
      ⟨.ok (Donation.rank s.kernel.table s.current), s,
        [.entered s.kernel.depth, .left (s.kernel.depth + 1) s.kernel.depth]⟩ :=
    inKernel_run ((inSection_run _).trans (by rw [show withThreads _ _ = _ from ranks]; rfl))
  unfold conclude
  rw [bind_run_ok (read_run _ _), is, bind_run_ok asks]
  rfl

/-- To report that an action is over changes nothing. -/
theorem conclude_eq_ok {action : String} {reply : Reply} {result : Unit} (quiet : s.kernel.Quiet)
    (run : conclude action reply s = ⟨.ok result, s', events⟩) : s' = s := by
  obtain ⟨t, mid, _, _, reads, rest, -⟩ := bind_eq_ok.mp run
  cases reads
  obtain ⟨priority, mid, _, _, asks, reports, -⟩ := bind_eq_ok.mp rest
  obtain rfl := askTable_eq_ok ThreadTable.inspects_priority.looks quiet asks
  cases reports
  rfl

/-- To read what a cell holds leaves the kernel. -/
theorem accessing_looks {cell : CellId} {x : Stretch Kernel α} {k : Kernel}
    (calm : k.busy cell = false) (idle : (k.setBusy true cell).setBusy false cell = k)
    (looks : Looks x) : (accessing cell x k).state = k := by
  rw [accessing_run calm, (looks _).1]
  exact idle

theorem readCount_looks (x : SemaphoreId) (k : Kernel) (quiet : k.Quiet) :
    (Semaphore.readCount x k).state = k :=
  accessing_looks (quiet.semaphore x) (quiet.semaphore_idle x) (looks_read _)

theorem readWaiterCount_looks (x : SemaphoreId) (k : Kernel) (quiet : k.Quiet) :
    (Semaphore.readWaiterCount x k).state = k :=
  accessing_looks (quiet.semaphore x) (quiet.semaphore_idle x) (looks_read _)

theorem readHolder_looks (lock : LockId) (k : Kernel) (quiet : k.Quiet) :
    (Lock.readHolder lock k).state = k := by
  unfold Lock.readHolder
  rw [withThreads_looks quiet.threads (looks_read _)]

theorem readWaiterCount_looks_condvar (c : CondvarId) (k : Kernel) (quiet : k.Quiet) :
    (Condvar.readWaiterCount c k).state = k :=
  accessing_looks (quiet.condvar c) (quiet.condvar_idle c) (looks_read _)

end KernelSync.Simulation
