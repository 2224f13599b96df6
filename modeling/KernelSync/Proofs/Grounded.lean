import KernelSync.Proofs.Endings
import KernelSync.Proofs.FailedTurns

/-!
Semaphores that are there. Whatever a thread may come to wait for, in its call, in its script or by
joining, is a semaphore of the kernel (`Grounded`). So it is at the start of a script that fits, and
turns, switches and failures keep it so.
-/

namespace KernelSync

open Stretch Kernel

/-- The semaphores that there are. -/
def Kernel.present (k : Kernel) : List SemaphoreId :=
  (List.range k.semaphores.length).map SemaphoreId.mk

/-- The semaphore for which a call may wait. -/
def Call.seeks? : Call → Option SemaphoreId
  | .down x => some x
  | .acquire lock | .wait _ lock => some lock.semaphore
  | .up _ | .release _ | .signal .. | .broadcast .. => none

/-- The semaphore for which a thread may come to wait from a place. -/
def Frame.seeks? : Frame → Option SemaphoreId
  | .call made => made.seeks?
  | .down x | .downQueued x => some x
  | .acquire lock | .acquireQueued lock | .signaled lock => some lock.semaphore
  | .up _ | .check | .giveUp _ | .claim .. | .signal _ | .broadcast _ | .leave _ => none

/-- What a thread may come to wait for from a place is there. -/
def Frame.Grounded (k : Kernel) (frame : Frame) : Prop :=
  ∀ x, frame.seeks? = some x → x.index < k.semaphores.length

section Stretches

variable {me : ThreadId} {k k' : Kernel} {frame : Frame} {progress : Progress} {x : SemaphoreId}

theorem Kernel.mem_present : x ∈ k.present ↔ x.index < k.semaphores.length := by
  unfold present
  rw [List.mem_map]
  constructor
  · rintro ⟨i, mem, rfl⟩
    exact List.mem_range.mp mem
  · exact fun small => ⟨x.index, List.mem_range.mpr small, rfl⟩

/-- What is there stays. -/
theorem Kernel.Grows.present (grows : Kernel.Grows k k') (mem : x ∈ k.present) : x ∈ k'.present :=
  mem_present.mpr (Nat.lt_of_lt_of_le (mem_present.mp mem) grows.length_le)

theorem Frame.Grounded.grows (grounded : frame.Grounded k) (grows : Kernel.Grows k k') :
    frame.Grounded k' :=
  fun x seeks => Nat.lt_of_lt_of_le (grounded x seeks) grows.length_le

theorem Frame.grounded_of_none (none : frame.seeks? = none) : frame.Grounded k :=
  fun _ seeks => nomatch none.symm.trans seeks

/-- A stretch leads to places from which the thread may wait for the same semaphore, or for a new
one. -/
theorem Advances.grounded (advances : Advances me k frame k' progress)
    (grounded : frame.Grounded k) : ∀ f ∈ progress.frames, f.Grounded k' := by
  have after : frame.Grounded k' := grounded.grows advances.grows
  cases advances with
  | @opens call frames opening allowed =>
    intro f mem
    rcases List.mem_append.mp mem with mem | mem
    · cases call with
      | wait => cases opening
      | down | acquire =>
        cases opening
        rw [List.mem_singleton.mp mem]
        exact after
      | up | release =>
        cases opening
        rw [List.mem_singleton.mp mem]
        exact Frame.grounded_of_none rfl
      | signal | broadcast =>
        cases opening
        rcases mem with _ | ⟨_, _ | ⟨_, ⟨⟩⟩⟩ <;> exact Frame.grounded_of_none rfl
    · rw [List.mem_singleton.mp mem]
      exact Frame.grounded_of_none rfl
  | @waits c lock held allowed =>
    intro f mem
    rcases mem with _ | ⟨_, _ | ⟨_, _ | ⟨_, ⟨⟩⟩⟩⟩
    · exact Frame.grounded_of_none rfl
    · rintro x ⟨⟩
      exact Nat.lt_of_lt_of_eq (Nat.lt_succ_self _) length_addSemaphore.symm
    · exact after
  | queues | retries | registers | reacquires | returns =>
    intro f mem
    rw [List.mem_singleton.mp mem]
    exact after
  | raises | wakes | givesUp | signals =>
    intro f mem
    rw [List.mem_singleton.mp mem]
    exact Frame.grounded_of_none rfl
  | broadcasts =>
    intro f mem
    rcases mem with _ | ⟨_, _ | ⟨_, ⟨⟩⟩⟩ <;> exact Frame.grounded_of_none rfl
  | takes | acquires | checks | holds | signalsNobody | broadcastsNobody | leaves =>
    exact List.forall_mem_nil _

/-- At a semaphore that is there a stretch stirs the wait lists. -/
theorem Advances.stirs_of_grounded (advances : Advances me k frame k' progress)
    (grounded : frame.Grounded k) : Stirs me k k' progress := by
  refine advances.stirs ?_
  rintro x (rfl | ⟨lock, rfl, rfl⟩)
  · exact grounded x rfl
  · exact grounded _ rfl

end Stretches

namespace Simulation

open Kernel

variable {settings : Settings} {script : List Action} {s s' s₁ : Simulation} {how : Option Switch}
  {pending : Pending} {new : List Pending} {frames : List Frame} {next u : ThreadId}

/-- What every thread may come to wait for is there: what its call is about, what its script names,
and what the threads that may be joined offer to their joiners. -/
structure Grounded (settings : Settings) (s : Simulation) : Prop where
  stocked : settings.counts.length + settings.locks ≤ s.kernel.semaphores.length
  calls : ∀ u, ∀ frame ∈ (s.thread u).call, frame.Grounded s.kernel
  scripts : ∀ u, ∀ p ∈ (s.thread u).script, p.Admitted settings s.kernel.present
  joinable : ∀ handle ∈ s.joinable, handle.exited ∈ s.kernel.present

/-- A call on what is on offer waits for what is there. -/
theorem Settings.Offers.grounded {made : Call} (offered : settings.Offers made)
    (stocked : settings.counts.length + settings.locks ≤ s.kernel.semaphores.length) :
    (Frame.call made).Grounded s.kernel := by
  intro x seeks
  refine Nat.lt_of_lt_of_le ?_ stocked
  cases made with
  | down y =>
    obtain rfl := Option.some.inj seeks
    exact Nat.lt_of_lt_of_le offered (Nat.le_add_right _ _)
  | acquire lock =>
    obtain rfl := Option.some.inj seeks
    exact Settings.OffersLock.index_lt offered
  | wait c lock =>
    obtain rfl := Option.some.inj seeks
    exact offered.2.index_lt
  | up | release | signal | broadcast => cases seeks

section Grounded

variable (grounded : Grounded settings s)
include grounded

/-- A script makes calls on what is there. -/
theorem Grounded.unrolls (unrolls : Unrolls s pending new frames)
    (admitted : pending.Admitted settings s.kernel.present) :
    ∀ frame ∈ frames, frame.Grounded s.kernel := by
  cases unrolls with
  | calls =>
    intro frame mem
    rw [List.mem_singleton.mp mem]
    exact Settings.Offers.grounded admitted.1 grounded.stocked
  | @waits c lock =>
    have offered : settings.Offers (.wait c lock) := admitted
    intro frame mem
    rw [List.mem_singleton.mp mem]
    exact offered.grounded grounded.stocked
  | @joins name handle actions present =>
    intro frame mem
    rw [List.mem_singleton.mp mem]
    rintro x ⟨⟩
    exact mem_present.mp (grounded.joinable handle present)
  | start | ended | waitsWhile | repeats | chooses | branches | attempts | acts | timesOver
  | timesAgain | waited | reports | known | attempt | disguise | returned =>
    exact List.forall_mem_nil _

/-- It is enough to look at the running thread. -/
theorem Grounded.retains (retains : Retains s s₁) (grows : Grows s.kernel s₁.kernel)
    (calls : ∀ frame ∈ (s₁.thread s.current).call, frame.Grounded s₁.kernel)
    (scripts : ∀ p ∈ (s₁.thread s.current).script, p.Admitted settings s₁.kernel.present)
    (spawned : ∀ u, s₁.thread u ≠ s.thread u → u ≠ s.current →
      ∀ p ∈ (s₁.thread u).script, p.Admitted settings s₁.kernel.present) :
    Grounded settings s₁ where
  stocked := grounded.stocked.trans grows.length_le
  calls := by
    intro u frame mem
    by_cases here : u = s.current
    · subst here
      exact calls frame mem
    rcases retains.others u here with same | ⟨-, name, script, disguise, fresh⟩
    · rw [same] at mem
      exact (grounded.calls u frame mem).grows grows
    · rw [fresh] at mem
      cases mem
  scripts := by
    intro u p mem
    by_cases here : u = s.current
    · subst here
      exact scripts p mem
    by_cases same : s₁.thread u = s.thread u
    · rw [same] at mem
      exact (grounded.scripts u p mem).mono fun _ => grows.present
    · exact spawned u same here p mem
  joinable := by
    intro handle mem
    rcases retains.joinable handle mem with old | known
    · exact grows.present (grounded.joinable handle old)
    · exact grows.present (grounded.scripts s.current _ known)

theorem Grounded.shifts {t : SimThread} {kernel : Kernel} {queue : RunQueue}
    (shifts : Shifts s s₁ t kernel queue) (grows : Grows s.kernel kernel)
    (calls : ∀ frame ∈ t.call, frame.Grounded kernel)
    (scripts : ∀ p ∈ t.script, p.Admitted settings kernel.present) : Grounded settings s₁ := by
  have same := shifts.kernel_eq
  subst same
  refine grounded.retains shifts.retains grows ?_ ?_ fun u changed apart => ?_
  · rw [shifts.thread_current]
    exact calls
  · rw [shifts.thread_current]
    exact scripts
  · exact absurd ((shifts.thread u).trans (if_neg apart)) changed

theorem Grounded.due {rest : List Pending} (due : s.currentThread.script = pending :: rest) :
    pending.Admitted settings s.kernel.present ∧
      ∀ p ∈ rest, p.Admitted settings s.kernel.present := by
  have scripts := grounded.scripts s.current
  rw [show (s.thread s.current).script = pending :: rest from due] at scripts
  exact List.forall_mem_cons.mp scripts

/-- A turn leads to what is there. -/
theorem Grounded.turn (turn : Turn s s₁ how) (quiet : s.kernel.Quiet) : Grounded settings s₁ := by
  have grows := turn.grows quiet
  have retains := turn.retains
  have same : ∀ {k : Kernel}, k.semaphores = s.kernel.semaphores → k.condvars = s.kernel.condvars →
      Grows s.kernel k := by
    intro k semaphores condvars
    refine grows_of_same (congrArg List.length semaphores) fun c => ?_
    unfold Kernel.waiters condvarCell
    rw [condvars]
  have none : s.currentThread.call = [] → ∀ frame ∈ s.currentThread.call, frame.Grounded s.kernel := by
    intro idle
    rw [idle]
    exact List.forall_mem_nil _
  have closes : ∀ {k : Kernel} {saved : Nat}, ∀ frame ∈ [Frame.leave saved], frame.Grounded k := by
    rintro k saved frame (_ | ⟨_, ⟨⟩⟩)
    exact Frame.grounded_of_none rfl
  have checks : ∀ {k : Kernel} {saved : Nat}, ∀ frame ∈ [Frame.check, .leave saved],
      frame.Grounded k := by
    rintro k saved frame (_ | ⟨_, _ | ⟨_, ⟨⟩⟩⟩) <;> exact Frame.grounded_of_none rfl
  cases turn with
  | rests => exact grounded
  | thinks idle due unrolls shifts =>
    obtain ⟨admitted, rest⟩ := grounded.due due
    exact grounded.shifts shifts (same rfl rfl) (grounded.unrolls unrolls admitted)
      (List.forall_mem_append.mpr ⟨unrolls.admitted admitted, rest⟩)
  | answers idle due asks shifts =>
    obtain ⟨admitted, rest⟩ := grounded.due due
    rw [shifts.kernel_eq] at grows
    refine grounded.shifts shifts grows ?_ (List.forall_mem_cons.mpr ⟨?_, fun p mem => ?_⟩)
    · rw [idle]
      exact List.forall_mem_nil _
    · exact admitted.2
    · exact (rest p mem).mono fun _ => grows.present
  | rebases idle due changes shifts =>
    obtain ⟨admitted, rest⟩ := grounded.due due
    refine grounded.shifts shifts (same rfl rfl) checks ?_
    exact List.forall_mem_cons.mpr ⟨trivial, List.forall_mem_cons.mpr ⟨admitted.2, rest⟩⟩
  | interrupts idle due outside shifts =>
    obtain ⟨admitted, rest⟩ := grounded.due due
    refine grounded.shifts shifts (same rfl rfl) (none idle) ?_
    exact List.forall_mem_cons.mpr ⟨admitted.1, List.forall_mem_cons.mpr ⟨trivial,
      List.forall_mem_cons.mpr ⟨trivial, List.forall_mem_cons.mpr ⟨trivial,
        List.forall_mem_cons.mpr ⟨admitted.2, rest⟩⟩⟩⟩⟩
  | handled idle due shifts | returns idle due unasked shifts =>
    exact grounded.shifts shifts (same rfl rfl) (none idle) (grounded.due due).2
  | yieldsOnReturn idle due asked shifts =>
    exact grounded.shifts shifts (same rfl rfl) closes (grounded.due due).2
  | yields idle due shifts =>
    obtain ⟨admitted, rest⟩ := grounded.due due
    refine grounded.shifts shifts (same rfl rfl) closes ?_
    exact List.forall_mem_cons.mpr ⟨trivial, List.forall_mem_cons.mpr ⟨admitted.2, rest⟩⟩
  | finishes idle due shifts =>
    refine grounded.shifts shifts (same rfl rfl) ?_
      (List.forall_mem_cons.mpr ⟨trivial, (grounded.due due).2⟩)
    rintro frame (_ | ⟨_, ⟨⟩⟩)
    exact Frame.grounded_of_none rfl
  | exits idle due removes shifts =>
    exact grounded.shifts shifts (same rfl rfl) (none idle) (List.forall_mem_nil _)
  | goes busy steps heeds shifts =>
    obtain ⟨head, below, call⟩ := List.exists_cons_of_ne_nil busy
    obtain ⟨progress, advances, after, script, -⟩ :=
      (Turn.goes busy steps heeds shifts).stretch quiet call
    have calls := grounded.calls s.current
    rw [show (s.thread s.current).call = head :: below from call] at calls
    obtain ⟨first, others⟩ := List.forall_mem_cons.mp calls
    refine grounded.retains retains grows ?_ ?_ fun u changed apart => ?_
    · rw [after]
      exact List.forall_mem_append.mpr ⟨advances.grounded first, fun frame mem =>
        (others frame mem).grows grows⟩
    · rw [script]
      exact fun p mem => (grounded.scripts s.current p mem).mono fun _ => grows.present
    · exact absurd ((shifts.thread u).trans (if_neg apart)) changed
  | @spawns name level script actions disguise rest _ id _ _ _ idle due adds notReady kernel queue
      current main thread has joinable =>
    obtain ⟨admitted, rest⟩ := grounded.due due
    have next : s.kernel.nextSemaphore ∈ s₁.kernel.present := by
      rw [kernel]
      exact mem_present.mpr (Nat.lt_of_lt_of_eq (Nat.lt_succ_self _) length_addSemaphore.symm)
    refine grounded.retains retains grows ?_ ?_ fun u changed apart => ?_
    · rw [thread, if_pos rfl]
      exact checks
    · rw [thread, if_pos rfl]
      refine List.forall_mem_cons.mpr ⟨next, List.forall_mem_cons.mpr ⟨trivial,
        List.forall_mem_cons.mpr ⟨admitted.2, fun p mem => ?_⟩⟩⟩
      exact (rest p mem).mono fun _ => grows.present
    · rw [thread, if_neg apart] at changed ⊢
      split at changed
      · exact absurd rfl changed
      rename_i absent
      rw [if_neg absent]
      split
      · refine List.forall_mem_cons.mpr ⟨trivial, List.forall_mem_cons.mpr ⟨admitted.1, ?_⟩⟩
        refine List.forall_mem_append.mpr ⟨?_, List.forall_mem_singleton.mpr next⟩
        cases disguise with
        | none => exact List.forall_mem_nil _
        | some d => exact List.forall_mem_singleton.mpr trivial
      · exact List.forall_mem_nil _

theorem Grounded.switched {how : Switch} (has : s.Has s.current) :
    Grounded settings (s.switched how next) where
  stocked := grounded.stocked
  calls := by
    intro u frame mem
    rw [call_switched has] at mem
    exact grounded.calls u frame mem
  scripts := by
    intro u p mem
    rw [script_switched has] at mem
    exact grounded.scripts u p mem
  joinable := grounded.joinable

/-- A turn that fails only takes away what a thread might come to wait for. -/
theorem Grounded.lingers (lingers : Lingers s s') : Grounded settings s' := by
  have length := lingers.lists.length
  have present : ∀ x ∈ s.kernel.present, x ∈ s'.kernel.present := fun x mem => by
    rw [mem_present, length]
    exact mem_present.mp mem
  have current : s'.thread s.current = s'.currentThread := by
    rw [← lingers.current]
    rfl
  refine ⟨length ▸ grounded.stocked, fun u frame mem x seeks => ?_, fun u p mem => ?_,
    fun handle mem => present _ (grounded.joinable handle (lingers.joinable ▸ mem))⟩
  · rw [length]
    by_cases here : u = s.current
    · subst here
      rw [current] at mem
      exact grounded.calls s.current frame (lingers.call frame mem) x seeks
    · rw [lingers.others u here] at mem
      exact grounded.calls u frame mem x seeks
  · refine Pending.Admitted.mono present ?_
    by_cases here : u = s.current
    · subst here
      rw [current] at mem
      rcases lingers.script p mem with old | ⟨action, actions, rfl, old⟩
      · exact grounded.scripts s.current p old
      · have admitted : settings.Admits (action :: actions) := grounded.scripts s.current _ old
        exact admitted.2
    · rw [lingers.others u here] at mem
      exact grounded.scripts u p mem

omit grounded in
/-- A script that fits is about what the simulation starts with. -/
theorem grounded_start {main : ThreadId} {table : ThreadTable} (fits : settings.Fits script) :
    Grounded settings (settings.start script table main) where
  stocked := by
    refine Nat.le_of_eq ?_
    simp [Settings.start]
  calls := by
    intro u frame mem
    rw [thread_start] at mem
    split at mem <;> cases mem
  scripts := by
    intro u p mem
    rw [thread_start] at mem
    split at mem
    · rcases mem with _ | ⟨_, _ | ⟨_, ⟨⟩⟩⟩
      · exact fits.script
      · trivial
    · cases mem
  joinable := List.forall_mem_nil _

end Grounded

end Simulation

end KernelSync
