import KernelSync.Proofs.Depth
import KernelSync.Proofs.Exits
import KernelSync.Proofs.MoveOutcomes
import KernelSync.Proofs.SimRuns

/-!
A simulation as a system. What a simulation does without a fault is a run of the system of
threads, in which the contract is kept by the run queue: the threads that contend for the processor
are those that are live and not blocked (`Mirrors`). Turns and switches are moves of the system, and
in none of them a priority is changed from outside or a thread removed in the middle of a call
(`scheduled`).
-/

namespace KernelSync.Simulation

open Stretch hiding pure bind
open KernelSync.System (Reachable Rule steady exitsIdle)

variable {settings : Settings} {script : List Action} {s s₁ s' : Simulation} {σ σ' : System}
  {how : Option Switch} {t u : ThreadId} {call frames : List Frame} {events : List Event}

/-- What a simulation may do of what the contract leaves open. -/
def scheduled : Rule := fun s move => steady s move ∧ exitsIdle s move

theorem steady_of_scheduled (reachable : Reachable scheduled σ) : Reachable steady σ :=
  reachable.mono fun _ _ obeys => obeys.1

theorem exitsIdle_of_scheduled (reachable : Reachable scheduled σ) : Reachable exitsIdle σ :=
  reachable.mono fun _ _ obeys => obeys.2

/-! ### The relation -/

/-- A call is where the system has it. The system has no section around the making of a thread, the
change of a base priority or a yield, and no check in it. -/
inductive Follows : List Frame → List Frame → Prop where
  | alike {call frames : List Frame} (alike : Alike call frames) : Follows call frames
  | checks {saved : Nat} : Follows [.check, .leave saved] []
  | closes {saved : Nat} : Follows [.leave saved] []

theorem Follows.nil : Follows [] [] := .alike (.refl [])

theorem Follows.eq_nil (follows : Follows [] frames) : frames = [] := by
  cases follows with
  | alike alike =>
    cases frames with
    | nil => rfl
    | cons frame rest => cases alike

/-- What the settings offer is there. -/
structure Stocked (settings : Settings) (σ : System) : Prop where
  spares : ∀ i < settings.counts.length, (⟨i⟩ : SemaphoreId) ∈ σ.standalone
  locks : ∀ i < settings.locks, settings.lock i ∈ σ.locks
  condvars : settings.condvars ≤ σ.kernel.condvars.length

/-- The system is the simulation at the switch that it is about to make, if any: the same kernel,
each thread at the same place of its call, and those awake that contend for the processor. -/
structure Mirrors (settings : Settings) (how : Option Switch) (s : Simulation) (σ : System) :
    Prop where
  kernel : σ.kernel = { s.kernel with depth := σ.kernel.depth }
  stocked : Stocked settings σ
  running : s.queue.running = some s.current
  present : s.Has s.current
  nodup : (s.contenders how).Nodup
  contends : ∀ t, t ∈ s.contenders how ↔ σ.Live t ∧ (σ.activity t).blocked = false
  has : ∀ t, σ.Live t → s.Has t
  follows : ∀ t, Follows (s.thread t).call (σ.activity t).frames
  scripts : ∀ t, ∀ p ∈ (s.thread t).script, p.Admitted settings σ.standalone
  joinable : ∀ handle ∈ s.joinable, handle.exited ∈ σ.standalone
  phase : σ.phase = .free ∨ how = none ∧ (σ.activity s.current).frames ≠ [] ∧
    (σ.phase = .within s.current ∨ σ.phase = .calling s.current)

theorem Stocked.more (stocked : Stocked settings σ)
    (spares : ∀ x ∈ σ.standalone, x ∈ σ'.standalone) (locks : ∀ l ∈ σ.locks, l ∈ σ'.locks)
    (condvars : σ.kernel.condvars.length ≤ σ'.kernel.condvars.length) : Stocked settings σ' where
  spares := fun i small => spares _ (stocked.spares i small)
  locks := fun i small => locks _ (stocked.locks i small)
  condvars := stocked.condvars.trans condvars

section Stocked

variable (stocked : Stocked settings σ)
include stocked

theorem Stocked.lock {lock : Lock} (offered : settings.OffersLock lock) : lock ∈ σ.locks := by
  obtain ⟨i, small, rfl⟩ := offered
  exact stocked.locks i small

theorem Stocked.names {made : Call} (offered : settings.Offers made) : σ.Names made := by
  cases made with
  | down x | up x => exact stocked.spares x.index offered
  | acquire lock | release lock => exact stocked.lock offered
  | wait c lock | signal c lock | broadcast c lock =>
    exact ⟨Nat.lt_of_lt_of_le offered.1 stocked.condvars, stocked.lock offered.2⟩

theorem Stocked.namesShort {made : ShortCall} (offered : settings.OffersShort made) :
    σ.NamesShort made := by
  cases made with
  | tryDown x => exact stocked.spares x.index offered
  | tryAcquire lock | held lock => exact stocked.lock offered

end Stocked

section Mirrors

variable (mirrors : Mirrors settings how s σ)
include mirrors

theorem Mirrors.table : σ.table = s.kernel.table := by
  unfold System.table
  rw [mirrors.kernel]
  rfl

theorem Mirrors.mode : σ.kernel.mode = s.kernel.mode := by
  rw [mirrors.kernel]

theorem Mirrors.kernelAt : σ.kernelAt t = { s.kernel with depth := (σ.activity t).depth } := by
  unfold System.kernelAt
  rw [mirrors.kernel]

theorem Mirrors.quiet (reachable : Reachable scheduled σ) : s.kernel.Quiet := by
  have quiet := reachable.orderly.quiet
  rw [mirrors.kernel] at quiet
  exact quiet.withDepth s.kernel.depth

end Mirrors

section Running

variable (mirrors : Mirrors settings none s σ)
include mirrors

/-- The thread that runs is live and awake. -/
theorem Mirrors.awake : σ.Live s.current ∧ (σ.activity s.current).blocked = false :=
  (mirrors.contends s.current).mp (List.mem_append_right _ (List.mem_singleton.mpr rfl))

theorem Mirrors.frames_of_idle (idle : s.currentThread.call = []) :
    (σ.activity s.current).frames = [] := by
  have follows := mirrors.follows s.current
  unfold currentThread at idle
  rw [idle] at follows
  exact follows.eq_nil

/-- Between calls everybody may move. -/
theorem Mirrors.free (frames : (σ.activity s.current).frames = []) : σ.phase = .free := by
  rcases mirrors.phase with free | ⟨-, busy, -⟩
  · exact free
  · exact absurd frames busy

theorem Mirrors.mayGo :
    σ.phase = .free ∨ σ.phase = .within s.current ∨ σ.phase = .calling s.current :=
  mirrors.phase.imp id fun inside => inside.2.2

theorem Mirrors.idle (idle : s.currentThread.call = []) : σ.Idle s.current :=
  ⟨mirrors.awake.1, mirrors.frames_of_idle idle⟩

end Running

/-! ### Between calls -/

/-- Where the run queue stays as it is and nobody blocks, so do the contenders. -/
theorem contenders_of_shifts {t' : SimThread} {kernel : Kernel}
    (shifts : Shifts s s₁ t' kernel s.queue) (stays : how = none ∨ how = some .yield) :
    s₁.contenders how = s.contenders none := by
  rcases stays with rfl | rfl
  · exact congrArg₂ (fun (q : RunQueue) c => q.ready ++ [c]) shifts.queue_eq shifts.current
  · exact congrArg₂ (fun (q : RunQueue) c => q.ready ++ [c]) shifts.queue_eq shifts.current

/-- A turn that changes nothing in the run queue, and no thread but the one that runs. -/
theorem Mirrors.between {t' : SimThread} {kernel : Kernel} (mirrors : Mirrors settings none s σ)
    (shifts : Shifts s s₁ t' kernel s.queue) (stays : how = none ∨ how = some .yield)
    (same : σ'.kernel = { kernel with depth := σ'.kernel.depth })
    (stocked : Stocked settings σ') (spares : σ'.standalone = σ.standalone)
    (live : ∀ u, σ'.Live u ↔ σ.Live u)
    (blocked : ∀ u, (σ'.activity u).blocked = (σ.activity u).blocked)
    (others : ∀ u, u ≠ s.current → (σ'.activity u).frames = (σ.activity u).frames)
    (follows : Follows t'.call (σ'.activity s.current).frames)
    (scripts : ∀ p ∈ t'.script, p.Admitted settings σ.standalone) (free : σ'.phase = .free) :
    Mirrors settings how s₁ σ' := by
  have contenders : s₁.contenders how = s.contenders none := contenders_of_shifts shifts stays
  refine
    { kernel := by rw [shifts.kernel_eq, ← same]
      stocked
      running := by rw [shifts.queue_eq, shifts.current, mirrors.running]
      present := by
        rw [shifts.current]
        exact (shifts.has _).mpr mirrors.present
      nodup := contenders ▸ mirrors.nodup
      contends := fun u => by rw [contenders, mirrors.contends, live, blocked]
      has := fun u alive => (shifts.has u).mpr (mirrors.has u ((live u).mp alive))
      follows := fun u => ?_
      scripts := fun u => ?_
      joinable := fun handle mem => ?_
      phase := .inl free }
  · rw [shifts.thread]
    by_cases here : u = s.current
    · rw [if_pos here, here]
      exact follows
    · rw [if_neg here, others u here]
      exact mirrors.follows u
  · rw [shifts.thread, spares]
    by_cases here : u = s.current
    · rw [if_pos here]
      exact scripts
    · rw [if_neg here]
      exact mirrors.scripts u
  · rw [spares]
    rcases shifts.joinable handle mem with old | known
    · exact mirrors.joinable handle old
    · exact mirrors.scripts s.current _ known

end KernelSync.Simulation
