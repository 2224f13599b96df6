import KernelSync.Proofs.Conduct
import KernelSync.Proofs.MoveOutcomes
import KernelSync.Proofs.Refusals

/-!
Runs that go on after faults. A move may end in a fault: what it has done until then stands, and a
thread whose call was cut short is between calls again. A scheduler that is called by a thread may
end the call with a fault of its own. Whatever is tried, no access is in progress between two moves
(`Endures.unharmed`), and the slots of the thread table stay in order.
-/

namespace KernelSync

open Stretch hiding pure bind

/-! ### Threads that come and go -/

namespace ThreadTable

variable {table : ThreadTable} {id : ThreadId} {name : String} {priority : Priority}
  {donates : Bool} {fault : Fault} {α : Type}

/-- However it ends, the slots are in order if they were before. -/
def Tidy (x : Stretch ThreadTable α) : Prop := ∀ table, Arena table → Arena (x table).state

theorem tidy_of_hides {x : Stretch ThreadTable α} (hides : Hides presence x) : Tidy x :=
  fun table arena => (hides table).shape.arena arena

theorem spawn_of_fails (fails : (spawn name priority table).outcome = .error fault) :
    (spawn name priority table).state = table ∧ ∃ index, fault = .freeSlotOccupied index := by
  unfold spawn at fails ⊢
  split
  · rename_i full
    rw [if_pos full] at fails
    cases fails
  · rename_i room
    rw [if_neg room] at fails
    rcases placed : place (.fresh name priority) table with other | ⟨id, after⟩
    · rw [placed] at fails
      cases fails
      exact ⟨rfl, place_eq_error placed⟩
    · rw [placed] at fails
      cases fails

theorem tidy_spawn : Tidy (spawn name priority) := by
  intro table arena
  rcases run : spawn name priority table with ⟨fault | result, after, events⟩
  · have same := (spawn_of_fails (congrArg Run.outcome run)).1
    rw [run] at same
    cases same
    exact arena
  · rcases spawn_eq_ok arena run with ⟨-, -, rfl⟩ | ⟨id, -, gains⟩
    · exact arena
    · exact gains.arena

theorem tidy_remove : Tidy (remove id) := by
  intro table arena
  rcases run : remove id table with ⟨fault | r, after, events⟩
  · have same := remove_of_fails (congrArg Run.outcome run)
    cases run.symm.trans same
    exact arena
  · exact (remove_eq_ok arena run).2.2.2.arena

theorem duly_spawn {table : ThreadTable}
    (fails : (spawn name priority table).outcome = .error fault) : ¬ Undue donates fault := by
  obtain ⟨-, index, rfl⟩ := spawn_of_fails fails
  exact nofun

theorem duly_remove (fails : (remove id table).outcome = .error fault) : ¬ Undue donates fault := by
  rw [remove_run] at fails
  cases found : table.get? id with
  | none =>
    rw [found] at fails
    cases fails
    exact nofun
  | some r =>
    rw [found] at fails
    cases held : table.holdings.heldBy id with
    | nil =>
      cases awaited : r.waitingOn with
      | none => simp [held, awaited] at fails
      | some lock =>
        simp only [held, awaited, Except.error.injEq] at fails
        rw [← fails]
        exact nofun
    | cons lock others =>
      simp only [held, Except.error.injEq] at fails
      rw [← fails]
      exact nofun

end ThreadTable

namespace System

open ThreadTable

/-! ### Moves that may fail -/

/-- A move that was tried: how it ended, and the states before and after it. -/
structure Attempt where
  before : System
  move : Move
  outcome : Except Fault Unit
  after : System

/-- A thread is in no call any more, and in as many sections as before its call. -/
def released (s : System) (t : ThreadId) (depth : Nat) : System :=
  { s.become t { depth } with phase := .free }

/-- What is left when a move has ended. A fault in a call has ended the whole call. -/
def aftermath (s : System) : Move → Except Fault Unit → System
  | .go t, .error _ => s.released t s.kernel.depth
  | _, _ => s

/-- The system when a call of `t` is cut short by a fault of the scheduler. -/
def cutShort (s : System) (t : ThreadId) : System :=
  s.released t (Frame.unwind (s.activity t).frames (s.kernelAt t)).state.depth

/-- A run that goes on after faults: the moves that were tried, and the state that they have led
to. -/
inductive Endures (capacity : Nat) (mode : SchedulingMode) : List Attempt → System → Prop where
  | start (small : capacity ≤ maxCapacity) : Endures capacity mode [] (start capacity mode)
  | tries {path : List Attempt} {s s' : System} {move : Move} {outcome : Except Fault Unit}
      {events : List Event} (before : Endures capacity mode path s) (allowed : s.Allowed move)
      (ends : perform move s = ⟨outcome, s', events⟩) :
      Endures capacity mode (path ++ [⟨s, move, outcome, s'.aftermath move outcome⟩])
        (s'.aftermath move outcome)
  | cuts {path : List Attempt} {s : System} {t : ThreadId} (before : Endures capacity mode path s)
      (mayGo : s.phase = .free ∨ s.phase = .within t ∨ s.phase = .calling t)
      (busy : (s.activity t).frames ≠ []) : Endures capacity mode path (s.cutShort t)

variable {α : Type} {s s' : System} {t : ThreadId} {capacity : Nat} {mode : SchedulingMode}
  {path : List Attempt} {move : Move} {outcome : Except Fault Unit} {events : List Event}

@[simp] theorem kernel_released {depth : Nat} : (s.released t depth).kernel = s.kernel := rfl

@[simp] theorem kernel_cutShort : (s.cutShort t).kernel = s.kernel := rfl

@[simp] theorem kernel_aftermath : (s.aftermath move outcome).kernel = s.kernel := by
  cases move with
  | go t => cases outcome <;> rfl
  | _ => rfl

@[simp] theorem issued_aftermath : (s.aftermath move outcome).issued = s.issued := by
  cases move with
  | go t => cases outcome <;> rfl
  | _ => rfl

/-- What a stretch makes of the kernel, whether it ends or is cut short. -/
theorem go_kernel : (perform (.go t) s).state.kernel =
      (Frame.step t (s.activity t).frames (s.kernelAt t)).state ∧
    ∀ fault, (perform (.go t) s).outcome = .error fault ↔
      (Frame.step t (s.activity t).frames (s.kernelAt t)).outcome = .error fault := by
  have goes : perform (.go t) s = (do
      let progress ← onKernel do
        Stretch.update ({ · with depth := (s.activity t).depth })
        Frame.step t (s.activity t).frames
      Stretch.update (settle t progress) : Stretch System Unit) s := rfl
  have enters : ∀ frames run, Frame.step t frames (s.kernelAt t) = run →
      onKernel (do
        Stretch.update ({ · with depth := (s.activity t).depth })
        Frame.step t frames) s = ⟨run.outcome, { s with kernel := run.state }, run.events⟩ := by
    rintro frames run rfl
    rfl
  rw [goes]
  rcases steps : Frame.step t (s.activity t).frames (s.kernelAt t) with
    ⟨fault | progress, kernel, events⟩
  · rw [bind_run_error (enters _ _ steps)]
    exact ⟨rfl, fun other => by simp⟩
  · rw [bind_run_ok (enters _ _ steps)]
    exact ⟨rfl, fun other => by simp⟩

/-- No access is in progress, and the slots of the table are in order. -/
structure Unharmed (s : System) (mode : SchedulingMode) : Prop where
  quiet : s.kernel.Quiet
  arena : Arena s.table
  mode : s.kernel.mode = mode

theorem unharmed_of_kernel (unharmed : Unharmed s mode) (same : s'.kernel = s.kernel) :
    Unharmed s' mode := by
  obtain ⟨quiet, arena, modes⟩ := unharmed
  unfold System.table at arena
  rw [← same] at quiet arena modes
  exact ⟨quiet, arena, modes⟩

/-- What comes of something that was tried in an unharmed state. -/
structure Survives (mode : SchedulingMode) (run : Run System α) : Prop where
  unharmed : Unharmed run.state mode
  due : ∀ fault, run.outcome = .error fault → ¬ Undue mode.donates fault

/-- What follows does not touch the kernel, and does not fail. -/
theorem survives_bind {x : Stretch System α} {next : α → Stretch System Unit}
    (survives : Survives mode (x s))
    (aside : ∀ a s, (next a s).outcome = .ok () ∧ (next a s).state.kernel = s.kernel) :
    Survives mode ((x >>= next) s) := by
  rcases run : x s with ⟨fault | a, mid, events⟩
  · rw [run] at survives
    rw [bind_run_error run]
    refine ⟨survives.unharmed, fun other same => ?_⟩
    cases same
    exact survives.due fault rfl
  · rw [run] at survives
    rw [bind_run_ok run]
    obtain ⟨ok, same⟩ := aside a mid
    exact ⟨unharmed_of_kernel survives.unharmed same,
      fun other fails => nomatch ok.symm.trans fails⟩

theorem survives_onTable {x : Stretch ThreadTable α} (unharmed : Unharmed s mode) (tidy : Tidy x)
    (due : ∀ fault, (x s.table).outcome = .error fault → ¬ Undue mode.donates fault) :
    Survives mode (onTable x s) := by
  rw [onTable_run unharmed.quiet x]
  exact ⟨⟨unharmed.quiet.setTable _, tidy _ unharmed.arena, unharmed.mode⟩, due⟩

/-- A move on the thread table that fails has failed in the table. -/
theorem onTable_bind_error {x : Stretch ThreadTable α} {next : α → Stretch System Unit}
    {fault : Fault} (quiet : s.kernel.Quiet)
    (works : ∀ a s, (next a s).outcome = .ok ())
    (run : (onTable x >>= next) s = ⟨.error fault, s', events⟩) :
    (x s.table).outcome = .error fault ∧ s'.table = (x s.table).state := by
  have accesses := onTable_run quiet x
  rcases ends : (x s.table).outcome with other | a
  · rw [ends] at accesses
    rw [bind_run_error accesses] at run
    cases run
    exact ⟨rfl, rfl⟩
  · rw [ends] at accesses
    rw [bind_run_ok accesses] at run
    exact nomatch (congrArg Run.outcome run).symm.trans (works a _)

/-- What a well conducted computation on the kernel makes of an unharmed state. -/
theorem unharmed_of_conducts {k : Kernel} {run : Run Kernel α} (unharmed : Unharmed s mode)
    (table : k.table = s.table) (modes : k.mode = s.kernel.mode) (conducts : Conducts presence k run)
    (same : s'.kernel = run.state) : Unharmed s' mode where
  quiet := by
    rw [same]
    exact conducts.quiet
  arena := by
    unfold System.table
    rw [same]
    exact conducts.table.shape.arena (table ▸ unharmed.arena)
  mode := by
    rw [same, conducts.mode, modes, unharmed.mode]

/-- Whatever is tried in an unharmed state leaves an unharmed state. -/
theorem survives_perform (unharmed : Unharmed s mode) (move : Move) :
    Survives mode (perform move s) := by
  cases move with
  | newSemaphore count =>
    exact ⟨⟨unharmed.quiet.addSemaphore _, unharmed.arena, unharmed.mode⟩, nofun⟩
  | newLock => exact ⟨⟨unharmed.quiet.addSemaphore _, unharmed.arena, unharmed.mode⟩, nofun⟩
  | newCondvar =>
    refine ⟨⟨⟨unharmed.quiet.threads, unharmed.quiet.semaphores, ?_⟩, unharmed.arena,
      unharmed.mode⟩, nofun⟩
    intro cell mem
    rcases List.mem_append.mp mem with old | new
    · exact unharmed.quiet.condvars cell old
    · rw [List.mem_singleton.mp new]
  | spawn name priority =>
    apply survives_bind (survives_onTable unharmed tidy_spawn fun _ => duly_spawn)
    intro result s
    cases result with
    | ok id => exact ⟨rfl, rfl⟩
    | error full => exact ⟨rfl, rfl⟩
  | remove t =>
    exact survives_bind (survives_onTable unharmed tidy_remove fun _ => duly_remove)
      fun _ _ => ⟨rfl, rfl⟩
  | setBase t base =>
    have duly : Duly mode.donates (Donation.changeBasePriority t base mode) :=
      Donation.duly_changeBase
    have changes : perform (.setBase t base) s =
        (onTable (Donation.changeBasePriority t base mode) >>= fun _ => Pure.pure ()) s := by
      rw [← unharmed.mode]
      rfl
    rw [changes]
    apply survives_bind
    · exact survives_onTable unharmed (tidy_of_hides Donation.hides_changeBase)
        (duly.outcome s.table)
    · exact fun _ _ => ⟨rfl, rfl⟩
  | setEffective t priority =>
    have duly : Duly mode.donates (setPriority t priority) := avoids_amend not_undue_staleHandle
    exact survives_onTable unharmed (tidy_of_hides (hides_amend fun _ => rfl)) (duly.outcome s.table)
  | interrupt on =>
    exact ⟨⟨⟨unharmed.quiet.threads, unharmed.quiet.semaphores, unharmed.quiet.condvars⟩,
      unharmed.arena, unharmed.mode⟩, nofun⟩
  | call t call => exact ⟨⟨unharmed.quiet, unharmed.arena, unharmed.mode⟩, nofun⟩
  | short t call =>
    have conducts : Conducts presence (s.kernelAt t) (call.run t (s.kernelAt t)) :=
      ShortCall.conducted_run overlooks_presence _ (unharmed.quiet.withDepth _) rfl
    rw [short_run]
    refine ⟨unharmed_of_conducts (k := s.kernelAt t) unharmed rfl rfl conducts rfl,
      fun fault fails => ?_⟩
    rw [← unharmed.mode]
    apply conducts.due fault
    rcases ends : (call.run t (s.kernelAt t)).outcome with other | answer
    · rw [ends] at fails
      exact congrArg _ (Except.error.inj fails)
    · rw [ends] at fails
      cases fails
  | go t =>
    have conducts : Conducts presence (s.kernelAt t)
        (Frame.step t (s.activity t).frames (s.kernelAt t)) :=
      Frame.conducted_step overlooks_presence _ (unharmed.quiet.withDepth _) rfl
    obtain ⟨same, ends⟩ := go_kernel (s := s) (t := t)
    refine ⟨unharmed_of_conducts (k := s.kernelAt t) unharmed rfl rfl conducts same,
      fun fault fails => ?_⟩
    rw [← unharmed.mode]
    exact conducts.due fault ((ends fault).mp fails)

/-- Whatever has been tried, no access is in progress, and the slots of the table are in order. -/
theorem Endures.unharmed (endures : Endures capacity mode path s) : Unharmed s mode := by
  induction endures with
  | start small =>
    exact ⟨⟨rfl, List.forall_mem_nil _, List.forall_mem_nil _⟩, arena_empty small, rfl⟩
  | @tries path s s' move outcome events before allowed ends ih =>
    have after := (survives_perform ih move).unharmed
    rw [ends] at after
    exact unharmed_of_kernel after kernel_aftermath
  | cuts before mayGo busy ih => exact unharmed_of_kernel ih kernel_cutShort

/-! ### Playing runs -/

/-- Tries moves in order, as long as they are allowed. -/
def tryAll : List Move → List Attempt → System → Option (List Attempt × System)
  | [], path, s => some (path, s)
  | move :: moves, path, s =>
      if s.Allowed move then
        let run := perform move s
        let after := run.state.aftermath move run.outcome
        tryAll moves (path ++ [⟨s, move, run.outcome, after⟩]) after
      else none

theorem Endures.tryAll {moves : List Move} {path' : List Attempt}
    (endures : Endures capacity mode path s) (tried : tryAll moves path s = some (path', s')) :
    Endures capacity mode path' s' := by
  induction moves generalizing path s with
  | nil =>
    cases tried
    exact endures
  | cons move moves ih =>
    unfold System.tryAll at tried
    split at tried
    · rename_i allowed
      exact ih (endures.tries allowed rfl) tried
    · cases tried

end System

end KernelSync
