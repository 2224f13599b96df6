import KernelSync.Proofs.Switches

/-!
What a turn can do. `Turn` lists it by what the running thread was about to do: the thread that it
becomes, the kernel and the run queue that it leaves, and the switch that it asks for.
-/

namespace KernelSync.Simulation

open Stretch hiding pure bind
open Kernel

variable {s s' s₁ s₂ : Simulation} {t : SimThread} {kernel : Kernel} {queue : RunQueue}
  {script rest : List Pending} {events : List Event}

/-- What is pending gives way to other things and maybe to a call, and the kernel is left alone. -/
inductive Unrolls (s : Simulation) : Pending → List Pending → List Frame → Prop where
  | start : Unrolls s .start [] []
  | ended : Unrolls s (.actions []) [] []
  | calls {made : Call} {actions : List Action} :
      Unrolls s (.actions (.call made :: actions))
        [.over (callName made) .done, .actions actions] [.call made]
  | waitsWhile {c : CondvarId} {lock : Lock} {condition : Condition} {actions : List Action} :
      Unrolls s (.actions (.waitWhile c lock condition :: actions))
        [.waiting c lock condition 0, .actions actions] []
  | joins {name : String} {handle : JoinHandle} {actions : List Action}
      (mem : handle ∈ s.joinable) :
      Unrolls s (.actions (.join name :: actions)) [.over "join" .done, .actions actions]
        [.call (.down handle.exited)]
  | repeats {count : Nat} {script actions : List Action} :
      Unrolls s (.actions (.times count script :: actions))
        [.times count script, .actions actions] []
  | chooses {yes no actions : List Action} (last : Bool) :
      Unrolls s (.actions (.ifLast yes no :: actions))
        [.actions (if last then yes else no), .actions actions] []
  | branches {condition : Condition} {yes no actions : List Action} (holds : Bool) :
      Unrolls s (.actions (.branch condition yes no :: actions))
        [.actions (if holds then yes else no), .actions actions] []
  | attempts {script actions : List Action} :
      Unrolls s (.actions (.attempt script :: actions))
        [.actions script, .attempt, .actions actions] []
  /-- The action is over at once. -/
  | acts {action : Action} {actions : List Action} :
      Unrolls s (.actions (action :: actions)) [.actions actions] []
  | timesOver {script : List Action} : Unrolls s (.times 0 script) [] []
  | timesAgain {count : Nat} {script : List Action} :
      Unrolls s (.times (count + 1) script) [.actions script, .times count script] []
  | waits {c : CondvarId} {lock : Lock} {condition : Condition} {waits : Nat} :
      Unrolls s (.waiting c lock condition waits) [.waiting c lock condition (waits + 1)]
        [.call (.wait c lock)]
  | waited {c : CondvarId} {lock : Lock} {condition : Condition} {waits : Nat} :
      Unrolls s (.waiting c lock condition waits) [] []
  | reports {action : String} {reply : Reply} : Unrolls s (.over action reply) [] []
  | known {name : String} {thread : ThreadId} {exited : SemaphoreId} :
      Unrolls s (.known name thread exited) [] []
  | attempt : Unrolls s .attempt [] []
  | disguise {disguise : Disguise} : Unrolls s (.disguise disguise) [] []
  | returned : Unrolls s .returned [] []

/-- What the scheduler makes of a request: the run queue after it, whether the thread that runs is
to yield when its handler returns, and the switch that is asked for. -/
inductive Heeds (s : Simulation) (kernel : Kernel) :
    Request → RunQueue → Bool → Option Switch → Prop where
  | proceeds : Heeds s kernel .proceed s.queue s.currentThread.yieldOnReturn none
  | blocks : Heeds s kernel .block s.queue s.currentThread.yieldOnReturn (some .block)
  | wakes {id : ThreadId} (notReady : id ∉ s.queue.ready) :
      Heeds s kernel (.unblock id) { s.queue with ready := s.queue.ready ++ [id] }
        s.currentThread.yieldOnReturn none
  | calm (top : ∀ u ∈ s.queue.ready,
      Donation.rank kernel.table u ≤ Donation.rank kernel.table s.current) :
      Heeds s kernel .check s.queue s.currentThread.yieldOnReturn none
  | defers (inside : kernel.inInterrupt = true) (outranked : ∃ u ∈ s.queue.ready,
      Donation.rank kernel.table s.current < Donation.rank kernel.table u) :
      Heeds s kernel .check s.queue true none
  | preempts (outside : kernel.inInterrupt = false) (outranked : ∃ u ∈ s.queue.ready,
      Donation.rank kernel.table s.current < Donation.rank kernel.table u) :
      Heeds s kernel .check s.queue s.currentThread.yieldOnReturn (some .yield)

/-- The thread that runs has become `t'` and has left that kernel and that run queue. There is
nobody else to join than before but a thread that the running one has just named. -/
structure Shifts (s s₁ : Simulation) (t' : SimThread) (kernel : Kernel) (queue : RunQueue) : Prop
    extends Becomes s s₁ t' where
  kernel_eq : s₁.kernel = kernel
  queue_eq : s₁.queue = queue
  joinable : ∀ handle ∈ s₁.joinable, handle ∈ s.joinable ∨
    .known handle.name handle.thread handle.exited ∈ s.currentThread.script

/-- What the running thread can do up to the switch that it asks for. -/
inductive Turn (s : Simulation) : Simulation → Option Switch → Prop where
  | rests (idle : s.currentThread.call = []) (empty : s.currentThread.script = []) : Turn s s none
  | thinks {pending : Pending} {rest new : List Pending} {frames : List Frame} {s₁ : Simulation}
      (idle : s.currentThread.call = []) (due : s.currentThread.script = pending :: rest)
      (unrolls : Unrolls s pending new frames)
      (shifts : Shifts s s₁ { s.currentThread with call := frames, script := new ++ rest }
        s.kernel s.queue) : Turn s s₁ none
  | answers {made : ShortCall} {actions : List Action} {rest : List Pending} {answer : Bool}
      {kernel : Kernel} {reported : List Event} {s₁ : Simulation}
      (idle : s.currentThread.call = [])
      (due : s.currentThread.script = .actions (.short made :: actions) :: rest)
      (asks : made.run s.current s.kernel = ⟨.ok answer, kernel, reported⟩)
      (shifts : Shifts s s₁
        { s.currentThread with script := .actions actions :: rest, last := answer }
        kernel s.queue) : Turn s s₁ none
  | spawns {name : String} {level : Nat} {script actions : List Action}
      {disguise : Option Disguise} {rest : List Pending} {priority : Priority} {id : ThreadId}
      {table : ThreadTable} {reported : List Event} {s₁ : Simulation}
      (idle : s.currentThread.call = [])
      (due : s.currentThread.script =
        .actions (.spawn name level script disguise :: actions) :: rest)
      (adds : ThreadTable.spawn name priority s.kernel.table = ⟨.ok (.ok id), table, reported⟩)
      (notReady : id ∉ s.queue.ready)
      (kernel : s₁.kernel = { (s.kernel.setTable table).addSemaphore 0 with
        depth := s.kernel.depth + 1 })
      (queue : s₁.queue = { s.queue with ready := s.queue.ready ++ [id] })
      (current : s₁.current = s.current) (main : s₁.main = s.main)
      (thread : ∀ u, s₁.thread u =
        if u = s.current then
          { s.currentThread with
            call := [.check, .leave s.kernel.depth]
            script := .known name id s.kernel.nextSemaphore :: .over "spawn" (.created id name) ::
              .actions actions :: rest }
        else if s.Has u then s.thread u
        else if u = id then .fresh id name script disguise s.kernel.nextSemaphore
        else .absent)
      (has : ∀ u, s₁.Has u ↔ s.Has u ∨ u = id) (joinable : s₁.joinable = s.joinable)
      (ids : s₁.ids = s.ids ++ [id]) (ranked : Priority.ofLevel level = .ok priority)
      (named : '\x00' ∉ name.toList) : Turn s s₁ none
  | rebases {level : Nat} {priority effective : Priority} {actions : List Action}
      {rest : List Pending} {table : ThreadTable} {reported : List Event} {s₁ : Simulation}
      (idle : s.currentThread.call = [])
      (due : s.currentThread.script = .actions (.setPriority level :: actions) :: rest)
      (changes : Donation.changeBasePriority s.current priority s.kernel.mode s.kernel.table =
        ⟨.ok effective, table, reported⟩)
      (shifts : Shifts s s₁
        { s.currentThread with
          call := [.check, .leave s.kernel.depth]
          script := .over "set_priority" .done :: .actions actions :: rest }
        { s.kernel.setTable table with depth := s.kernel.depth + 1 } s.queue) : Turn s s₁ none
  | interrupts {script actions : List Action} {rest : List Pending} {s₁ : Simulation}
      (idle : s.currentThread.call = [])
      (due : s.currentThread.script = .actions (.interrupt script :: actions) :: rest)
      (outside : s.kernel.inInterrupt = false)
      (shifts : Shifts s s₁
        { s.currentThread with
          script := .actions script :: .handler s.kernel.depth :: .handlerReturned ::
            .over "interrupt" .done :: .actions actions :: rest }
        { s.kernel with depth := s.kernel.depth + 1, inInterrupt := true } s.queue) :
      Turn s s₁ none
  | handled {saved : Nat} {rest : List Pending} {s₁ : Simulation}
      (idle : s.currentThread.call = []) (due : s.currentThread.script = .handler saved :: rest)
      (shifts : Shifts s s₁ { s.currentThread with script := rest }
        { s.kernel with depth := saved, inInterrupt := false } s.queue) : Turn s s₁ none
  | returns {rest : List Pending} {s₁ : Simulation}
      (idle : s.currentThread.call = []) (due : s.currentThread.script = .handlerReturned :: rest)
      (unasked : s.currentThread.yieldOnReturn = false)
      (shifts : Shifts s s₁ { s.currentThread with script := rest } s.kernel s.queue) :
      Turn s s₁ none
  | yieldsOnReturn {rest : List Pending} {s₁ : Simulation}
      (idle : s.currentThread.call = []) (due : s.currentThread.script = .handlerReturned :: rest)
      (asked : s.currentThread.yieldOnReturn = true)
      (shifts : Shifts s s₁
        { s.currentThread with
          call := [.leave s.kernel.depth], script := rest, yieldOnReturn := false }
        { s.kernel with depth := s.kernel.depth + 1 } s.queue) : Turn s s₁ (some .yield)
  | yields {actions : List Action} {rest : List Pending} {s₁ : Simulation}
      (idle : s.currentThread.call = [])
      (due : s.currentThread.script = .actions (.yield :: actions) :: rest)
      (shifts : Shifts s s₁
        { s.currentThread with
          call := [.leave s.kernel.depth]
          script := .over "yield" .done :: .actions actions :: rest }
        { s.kernel with depth := s.kernel.depth + 1 } s.queue) : Turn s s₁ (some .yield)
  | finishes {exited : SemaphoreId} {rest : List Pending} {s₁ : Simulation}
      (idle : s.currentThread.call = []) (due : s.currentThread.script = .finish exited :: rest)
      (shifts : Shifts s s₁
        { s.currentThread with
          call := [.call (.up exited)], script := .remove s.kernel.depth :: rest }
        { s.kernel with depth := s.kernel.depth + 1 } s.queue) : Turn s s₁ none
  | exits {saved : Nat} {rest : List Pending} {r : ThreadRecord} {table : ThreadTable}
      {reported : List Event} {s₁ : Simulation}
      (idle : s.currentThread.call = []) (due : s.currentThread.script = .remove saved :: rest)
      (removes : ThreadTable.remove s.current s.kernel.table = ⟨.ok r, table, reported⟩)
      (shifts : Shifts s s₁ { s.currentThread with script := [] } (s.kernel.setTable table)
        s.queue) : Turn s s₁ (some .exit)
  | goes {progress : Progress} {kernel : Kernel} {reported : List Event} {queue : RunQueue}
      {flag : Bool} {how : Option Switch} {s₁ : Simulation} (busy : s.currentThread.call ≠ [])
      (steps : Frame.step s.current s.currentThread.call s.kernel =
        ⟨.ok progress, kernel, reported⟩)
      (heeds : Heeds s kernel progress.request queue flag how)
      (shifts : Shifts s s₁
        { s.currentThread with call := progress.frames, yieldOnReturn := flag } kernel queue) :
      Turn s s₁ how

/-! ### Shifts -/

theorem shifts_self (s : Simulation) : Shifts s s s.currentThread s.kernel s.queue :=
  { becomes_self s with
    kernel_eq := rfl
    queue_eq := rfl
    joinable := fun _ mem => Or.inl mem }

section Shifts

variable (shifts : Shifts s s₁ t kernel queue)
include shifts

theorem Shifts.modify {f : SimThread → SimThread} (has : s.Has s.current)
    (keeps : ∀ t, (f t).id = t.id) : Shifts s (s₁.modifyCurrent f) (f t) kernel queue :=
  { shifts.toBecomes.modify has keeps with
    kernel_eq := shifts.kernel_eq
    queue_eq := shifts.queue_eq
    joinable := shifts.joinable }

theorem Shifts.withKernel (kernel' : Kernel) :
    Shifts s { s₁ with kernel := kernel' } t kernel' queue :=
  { shifts.toBecomes.aside rfl rfl rfl with
    kernel_eq := rfl
    queue_eq := shifts.queue_eq
    joinable := shifts.joinable }

theorem Shifts.withQueue (queue' : RunQueue) :
    Shifts s { s₁ with queue := queue' } t kernel queue' :=
  { shifts.toBecomes.aside rfl rfl rfl with
    kernel_eq := shifts.kernel_eq
    queue_eq := rfl
    joinable := shifts.joinable }

/-- What threads do not share with the kernel, the run queue or each other may change. -/
theorem Shifts.aside (threads : s₂.threads = s₁.threads) (current : s₂.current = s₁.current)
    (main : s₂.main = s₁.main) (kernels : s₂.kernel = s₁.kernel) (queues : s₂.queue = s₁.queue)
    (joinable : ∀ handle ∈ s₂.joinable, handle ∈ s₁.joinable ∨
      .known handle.name handle.thread handle.exited ∈ s.currentThread.script) :
    Shifts s s₂ t kernel queue :=
  { shifts.toBecomes.aside threads current main with
    kernel_eq := kernels.trans shifts.kernel_eq
    queue_eq := queues.trans shifts.queue_eq
    joinable := fun handle mem => (joinable handle mem).elim (shifts.joinable handle) Or.inr }

end Shifts

/-- A thread between calls that goes on without one. -/
theorem Shifts.idle (idle : s.currentThread.call = [])
    (shifts : Shifts s s₁ { s.currentThread with script } kernel queue) :
    Shifts s s₁ { s.currentThread with call := [], script } kernel queue := by
  have same : { s.currentThread with call := [], script } = { s.currentThread with script } := by
    rw [← idle]
  rw [same]
  exact shifts

end KernelSync.Simulation
