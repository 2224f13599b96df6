import KernelSync.Proofs.FaultyRuns
import KernelSync.Proofs.MirrorRuns

/-!
What a simulated thread has yet to leave. The sections and the handler that it is in are to be left
when something pending is done, or is given up after a fault; so its call and its script tell which
they are, and its registers have to agree (`Intact`). Inside a step they agree with what the step has
come to (`Runs`). Each part of a step is described by what it starts in, and by what it ends in or is
cut short in (`Triple`).
-/

namespace KernelSync

namespace Stretch

variable {σ α β : Type} {P P' : σ → Prop} {Q Q' : α → σ → Prop} {R : β → σ → Prop}
  {E E' : Fault → σ → Prop}

/-! ### What a stretch ends in -/

/-- Started in `P`, the stretch ends in `Q` of its value, or is cut short in `E` of its fault. -/
def Triple (P : σ → Prop) (x : Stretch σ α) (Q : α → σ → Prop) (E : Fault → σ → Prop) : Prop :=
  ∀ s, P s → match (x s).outcome with
    | .ok a => Q a (x s).state
    | .error fault => E fault (x s).state

theorem triple_of_run {x : Stretch σ α} (ends : ∀ s, P s → ∃ a s' events,
    x s = ⟨.ok a, s', events⟩ ∧ Q a s') : Triple P x Q E := by
  intro s before
  obtain ⟨a, s', events, run, after⟩ := ends s before
  rw [run]
  exact after

theorem triple_weaken {x : Stretch σ α} (triple : Triple P' x Q' E') (pre : ∀ s, P s → P' s)
    (post : ∀ a s, Q' a s → Q a s) (cut : ∀ fault s, E' fault s → E fault s) :
    Triple P x Q E := by
  intro s before
  have after := triple s (pre s before)
  rcases run : x s with ⟨fault | a, s', events⟩
  · rw [run] at after
    exact cut fault s' after
  · rw [run] at after
    exact post a s' after

theorem triple_pure {a : α} (holds : ∀ s, P s → Q a s) : Triple P (Pure.pure a) Q E := holds

theorem triple_fail {fault : Fault} (cut : ∀ s, P s → E fault s) : Triple P (fail fault) Q E := cut

theorem triple_update {f : σ → σ} {Q : Unit → σ → Prop} (holds : ∀ s, P s → Q () (f s)) :
    Triple P (update f) Q E := holds

theorem triple_report {event : Event} : Triple P (report event) (fun _ => P) E := fun _ before =>
  before

theorem triple_require {condition : Prop} [Decidable condition] {fault : Fault}
    (cut : ∀ s, P s → E fault s) : Triple P (require condition fault) (fun _ => P) E := by
  unfold require
  split
  · exact triple_pure fun _ before => before
  · exact triple_fail cut

theorem triple_ofExcept {value : Except Fault α} (cut : ∀ fault s, value = .error fault → P s →
    E fault s) : Triple P (ofExcept value) (fun _ => P) E := by
  cases value with
  | ok a => exact triple_pure fun _ before => before
  | error fault => exact triple_fail fun s before => cut fault s rfl before

theorem triple_bind {x : Stretch σ β} {f : β → Stretch σ α} (first : Triple P x R E)
    (next : ∀ b, Triple (R b) (f b) Q E) : Triple P (x >>= f) Q E := by
  intro s before
  have middle := first s before
  rcases run : x s with ⟨fault | b, s', events⟩
  · rw [run] at middle
    rw [bind_run_error run]
    exact middle
  · rw [run] at middle
    rw [bind_run_ok run]
    exact next b s' middle

/-- A value that was read is that of the state. -/
theorem triple_read {f : σ → β} {g : β → Stretch σ α}
    (next : ∀ b, Triple (fun s => P s ∧ f s = b) (g b) Q E) : Triple P (read f >>= g) Q E :=
  triple_bind (R := fun b s => P s ∧ f s = b) (fun _ before => ⟨before, rfl⟩) next

/-- What is read and forgotten. -/
theorem triple_look {f : σ → β} {g : β → Stretch σ α} (next : ∀ b, Triple P (g b) Q E) :
    Triple P (read f >>= g) Q E :=
  triple_bind (R := fun _ => P) (fun _ before => before) next

theorem triple_onFault {x : Stretch σ α} {last : Stretch σ Unit} {F : Fault → σ → Prop}
    (first : Triple P x Q F) (cut : ∀ fault s, F fault s → E fault (last s).state) :
    Triple P (onFault x last) Q E := by
  intro s before
  have middle := first s before
  rcases run : x s with ⟨fault | a, s', events⟩
  · rw [run] at middle
    rw [onFault_run_error run]
    exact cut fault s' middle
  · rw [run] at middle
    rw [onFault_run_ok run]
    exact middle

theorem triple_catching {x : Stretch σ α} (triple : Triple P x Q E') :
    Triple P (catching x) (fun result s => match result with
      | .ok a => Q a s
      | .error fault => E' fault s) E := triple

end Stretch

namespace Simulation

open Stretch hiding pure bind
open Kernel ThreadTable

variable {α : Type} {s s' : Simulation} {t : SimThread} {u : ThreadId} {depths : List Nat}
  {handlers saved : Nat} {pending : Pending} {script : List Pending} {fault : Fault}

/-! ### What is still to be left -/

/-- What the section has saved that is left when this is done, or given up. -/
def Pending.saved? : Pending → Option Nat
  | .handler saved | .remove saved => some saved
  | _ => none

def Pending.isHandler : Pending → Bool
  | .handler _ => true
  | _ => false

/-- What the sections have saved that a script has yet to leave, the innermost first. -/
def sectionsOf (script : List Pending) : List Nat := script.filterMap Pending.saved?

/-- How many handlers a script has yet to leave. -/
def handlersOf (script : List Pending) : Nat := script.countP Pending.isHandler

/-- The sections in which a thread is by its call and its script. -/
def SimThread.sections (t : SimThread) : List Nat := Frame.saved t.call ++ sectionsOf t.script

/-- The registers are those of a thread in these sections and handlers. There is one handler at
most. -/
structure Registers.Shows (r : Registers) (depths : List Nat) (handlers : Nat) : Prop where
  depth : Frame.Stacked 0 depths r.depth
  handlers : handlers = if r.inInterrupt then 1 else 0

/-- The thread has nothing to do. -/
def SimThread.Idle (t : SimThread) : Prop := t.call = [] ∧ t.script = []

/-- The registers of the running thread are in the kernel. -/
def registers (s : Simulation) : Registers := ⟨s.kernel.depth, s.kernel.inInterrupt⟩

/-- No access is in progress, the slots of the table are in order, and of the threads that do not run
each has nothing to do, or is live and in what it has yet to leave. -/
structure Poised (s : Simulation) : Prop where
  quiet : s.kernel.Quiet
  arena : Arena s.kernel.table
  others : ∀ u, u ≠ s.current → (s.thread u).Idle ∨
    s.kernel.table.contains u = true ∧
      (s.thread u).registers.Shows (s.thread u).sections (handlersOf (s.thread u).script)

/-- Besides, the thread that runs is live and looks like `t`, and it is in these sections and handlers,
whether or not its call and its script say so. -/
structure Runs (t : SimThread) (depths : List Nat) (handlers : Nat) (s : Simulation) : Prop where
  poised : Poised s
  has : s.Has s.current
  thread : s.currentThread = t
  live : s.kernel.table.contains s.current = true
  shows : s.registers.Shows depths handlers

/-- They do say so. -/
abbrev Standing (t : SimThread) : Simulation → Prop := Runs t t.sections (handlersOf t.script)

/-- Nothing is left behind: whoever runs has nothing to do, or is in what it has yet to leave. -/
def Intact (s : Simulation) : Prop :=
  Poised s ∧ (s.currentThread.Idle ∨ Standing s.currentThread s)

/-- No cell was accessed during an access to it. -/
def Fair (fault : Fault) : Prop := ∀ cell, fault ≠ .overlap cell

/-- A fault that was not that of an overlap has left things intact. -/
def Broken (fault : Fault) (s : Simulation) : Prop := Fair fault ∧ Intact s

theorem Runs.intact (standing : Standing t s) : Intact s := by
  refine ⟨standing.poised, Or.inr ?_⟩
  rw [standing.thread]
  exact standing

theorem fair_of_not_undue {donates : Bool} (due : ¬ Undue donates fault) : Fair fault := by
  rintro cell rfl
  exact due (.overlap cell)

theorem idle_absent : SimThread.absent.Idle := ⟨rfl, rfl⟩

theorem thread_absent (none : ¬ s.Has u) : s.thread u = .absent := by
  unfold Simulation.thread
  rw [List.find?_eq_none.mpr fun t mem is => none ⟨t, mem, of_decide_eq_true is⟩]
  rfl

/-! ### Changes beside the scripts -/

/-- What the scheduler and the scripts keep beside the threads may change. -/
theorem Poised.aside (poised : Poised s) (kernel : s'.kernel = s.kernel)
    (threads : s'.threads = s.threads) (current : s'.current = s.current) : Poised s' := by
  have same : ∀ u, s'.thread u = s.thread u := by
    intro u
    unfold Simulation.thread
    rw [threads]
  refine ⟨?_, ?_, fun u other => ?_⟩
  · rw [kernel]
    exact poised.quiet
  · rw [kernel]
    exact poised.arena
  · rw [same, kernel]
    exact poised.others u (current ▸ other)

section Runs

variable (runs : Runs t depths handlers s)
include runs

theorem Runs.id : t.id = s.current := by
  rw [← runs.thread]
  exact thread_id runs.has

/-- The kernel may change if nobody goes. -/
theorem Runs.withKernel {k : Kernel} {depths' : List Nat} {handlers' : Nat} (quiet : k.Quiet)
    (arena : Arena k.table)
    (live : ∀ u, s.kernel.table.contains u = true → k.table.contains u = true)
    (shows : Registers.Shows ⟨k.depth, k.inInterrupt⟩ depths' handlers') :
    Runs t depths' handlers' { s with kernel := k } where
  poised := by
    refine ⟨quiet, arena, fun u other => ?_⟩
    exact (runs.poised.others u other).imp_right fun ⟨alive, shows⟩ => ⟨live u alive, shows⟩
  has := runs.has
  thread := runs.thread
  live := live _ runs.live
  shows := shows

theorem Runs.aside (kernel : s'.kernel = s.kernel) (threads : s'.threads = s.threads)
    (current : s'.current = s.current) : Runs t depths handlers s' := by
  refine ⟨runs.poised.aside kernel threads current, ?_, ?_, ?_, ?_⟩
  · unfold Has
    rw [threads, current]
    exact runs.has
  · unfold currentThread Simulation.thread
    rw [threads, current]
    exact runs.thread
  · rw [kernel, current]
    exact runs.live
  · unfold registers
    rw [kernel]
    exact runs.shows

theorem Runs.modify {f : SimThread → SimThread} (keeps : ∀ t, (f t).id = t.id) :
    Runs (f t) depths handlers (s.modifyCurrent f) := by
  have threads : ∀ u, (s.modifyCurrent f).thread u =
      if u = s.current then f (s.thread s.current) else s.thread u :=
    fun u => thread_modifyThread keeps runs.has
  refine ⟨⟨runs.poised.quiet, runs.poised.arena, fun u other => ?_⟩, ?_, ?_, runs.live, runs.shows⟩
  · have apart : u ≠ s.current := other
    rw [threads, if_neg apart]
    exact runs.poised.others u apart
  · exact (has_modifyThread keeps).mpr runs.has
  · refine (threads _).trans ?_
    rw [show (s.modifyCurrent f).current = s.current from rfl, if_pos rfl, ← runs.thread]
    rfl

end Runs

/-- What is neither a handler nor the exit of a thread leaves nothing. -/
theorem sections_push (plain : pending.saved? = none) :
    SimThread.sections { t with script := pending :: t.script } = t.sections := by
  unfold SimThread.sections sectionsOf
  rw [List.filterMap_cons_none plain]

theorem handlersOf_push (plain : pending.isHandler = false) :
    handlersOf (pending :: script) = handlersOf script :=
  List.countP_cons_of_neg (by simp [plain])

theorem handlersOf_handler : handlersOf (.handler saved :: script) = handlersOf script + 1 :=
  List.countP_cons_of_pos rfl

/-! ### Steps of the running thread -/

section Triples

variable {Q : α → Simulation → Prop} {E : Fault → Simulation → Prop}

theorem triple_push : Triple (Runs t depths handlers) (push pending)
    (fun _ => Runs { t with script := pending :: t.script } depths handlers) E :=
  triple_update fun _ runs =>
    runs.modify (f := fun t => { t with script := pending :: t.script }) fun _ => rfl

theorem triple_standing_push (saves : pending.saved? = none) (plain : pending.isHandler = false) :
    Triple (Standing t) (push pending)
      (fun _ => Standing { t with script := pending :: t.script }) E := by
  have same : handlersOf (pending :: t.script) = handlersOf t.script := handlersOf_push plain
  unfold Standing
  rw [sections_push saves, same]
  exact triple_push

theorem triple_setCall {frames : List Frame} : Triple (Runs t depths handlers) (setCall frames)
    (fun _ => Runs { t with call := frames } depths handlers) E :=
  triple_update fun _ runs => runs.modify (f := ({ · with call := frames })) fun _ => rfl

theorem triple_enter : Triple (Runs t depths handlers) (inKernel enter)
    (fun saved => Runs t (saved :: depths) handlers) E := by
  intro s runs
  exact runs.withKernel (runs.poised.quiet.withDepth _) runs.poised.arena (fun _ live => live)
    ⟨⟨rfl, runs.shows.depth⟩, runs.shows.handlers⟩

theorem Runs.leave (runs : Runs t (saved :: depths) handlers s) :
    Runs t depths handlers (inKernel (leave saved) s).state :=
  runs.withKernel (runs.poised.quiet.withDepth _) runs.poised.arena (fun _ live => live)
    ⟨runs.shows.depth.2, runs.shows.handlers⟩

theorem triple_leave : Triple (Runs t (saved :: depths) handlers) (inKernel (leave saved))
    (fun _ => Runs t depths handlers) E := fun _ runs => runs.leave

/-- What keeps to its sections and its accesses leaves things as they are. -/
theorem triple_inKernel {P : Simulation → Prop} {x : Stretch Kernel α}
    (runs : ∀ s, P s → Runs t depths handlers s) (nested : WellNested x)
    (conducted : ∀ s, P s → WellConducted presence s.kernel.mode.donates x) :
    Triple P (inKernel x) (fun _ => Runs t depths handlers)
      (fun fault s => Fair fault ∧ Runs t depths handlers s) := by
  intro s before
  have now := runs s before
  have conducts := conducted s before s.kernel now.poised.quiet rfl
  have depth : (x s.kernel).state.depth = s.kernel.depth := (nested s.kernel).depth
  have after : Runs t depths handlers { s with kernel := (x s.kernel).state } := by
    apply now.withKernel conducts.quiet (conducts.table.shape.arena now.poised.arena)
    · exact fun u live => (conducts.table.agree.contains u).trans live
    · rw [depth, conducts.inInterrupt]
      exact now.shows
  unfold inKernel within
  rcases run : x s.kernel with ⟨fault | a, kernel, events⟩
  · rw [run] at after conducts
    exact ⟨fair_of_not_undue (conducts.due fault rfl), after⟩
  · rw [run] at after
    exact after

theorem broken_of_standing (fair : Fair fault) (standing : Standing t s) : Broken fault s :=
  ⟨fair, standing.intact⟩

theorem triple_ask {x : Stretch Kernel α} (nested : WellNested x)
    (conducted : ∀ donates, WellConducted presence donates x) :
    Triple (Standing t) (inKernel x) (fun _ => Standing t) Broken :=
  triple_weaken (triple_inKernel (fun _ standing => standing) nested fun _ _ => conducted _)
    (fun _ standing => standing) (fun _ _ standing => standing)
    fun _ _ ⟨fair, standing⟩ => broken_of_standing fair standing

theorem triple_conclude {action : String} {reply : Reply} :
    Triple (Runs t depths handlers) (conclude action reply) (fun _ => Runs t depths handlers) E := by
  apply triple_of_run
  intro s runs
  exact ⟨(), s, _, conclude_run runs.poised.quiet runs.has runs.live, runs⟩

/-- With the report of what it has done an action is over. -/
theorem triple_ends {action : String} {reply : Reply} :
    Triple (Standing t) (conclude action reply) (fun _ => Intact) E :=
  triple_weaken triple_conclude (fun _ standing => standing) (fun _ _ standing => standing.intact)
    fun _ _ cut => cut

theorem triple_askTable {x : Stretch ThreadTable α} (looks : Looks x)
    (duly : ∀ donates, Duly donates x) :
    Triple (Standing t) (askTable x) (fun _ => Standing t) Broken := by
  have logs : Logs x := by
    refine ⟨fun table e mem => ?_, fun _ _ _ => id⟩
    rw [(looks table).2] at mem
    exact absurd mem List.not_mem_nil
  exact triple_ask (wellNested_inSection fun _ => wellNested_withThreads logs) fun donates =>
    conducted_inSection fun _ => conducted_withThreads looks.hides (duly donates)

end Triples

end Simulation

end KernelSync
