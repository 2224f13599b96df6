import KernelSync.Proofs.MirrorTurns
import KernelSync.Proofs.TurnInversion

/-!
Runs as runs of the system. A switch is a move that sets whether threads are in interrupt context,
and the start is a handful of moves that make the objects and the main thread. So every state that a
simulation reaches without a fault mirrors a state that the system reaches (`Reached.mirrored`).
-/

namespace KernelSync.Simulation

open Stretch hiding pure bind
open KernelSync.System (Reachable)

variable {settings : Settings} {script : List Action} {s s₁ s' : Simulation} {σ : System}
  {next u : ThreadId} {events : List Event}

/-! ### Switches -/

section Switched

variable {how : Switch} (present : s.Has s.current)

theorem has_switched : (s.switched how next).Has u ↔ s.Has u :=
  has_modifyThread (s := s) (f := fun t => { t with registers := _ }) fun _ => rfl

include present in
/-- A switch keeps the registers of the thread that gives up the processor, and changes no thread
otherwise. -/
theorem thread_switched : (s.switched how next).thread u =
    if u = s.current then
      { s.currentThread with registers := ⟨s.kernel.depth, s.kernel.inInterrupt⟩ }
    else s.thread u :=
  thread_modifyThread (s := s)
    (f := fun t => { t with registers := ⟨s.kernel.depth, s.kernel.inInterrupt⟩ })
    (fun _ => rfl) present

include present in
theorem call_switched : ((s.switched how next).thread u).call = (s.thread u).call := by
  rw [thread_switched present]
  split
  · rename_i here
    rw [here]
    rfl
  · rfl

include present in
theorem script_switched : ((s.switched how next).thread u).script = (s.thread u).script := by
  rw [thread_switched present]
  split
  · rename_i here
    rw [here]
    rfl
  · rfl

/-- The contenders of a switch are those of the switch before: the one that was picked runs. -/
theorem contenders_switched (mem : next ∈ s.contenders (some how)) :
    ((s.switched how next).contenders none).Perm (s.contenders (some how)) := by
  have listed : (s.switched how next).contenders none =
      (s.contenders (some how)).erase next ++ [next] := rfl
  rw [listed]
  exact (List.perm_append_singleton ..).trans (List.perm_cons_erase mem).symm

/-- At a switch everybody may move. -/
theorem Mirrors.free_at_switch (mirrors : Mirrors settings (some how) s σ) : σ.phase = .free :=
  mirrors.phase.resolve_right fun inside => nomatch inside.1

/-- Where the switch goes, everybody is at the same place as before. -/
theorem Mirrors.switched (mirrors : Mirrors settings (some how) s σ)
    (reachable : Reachable scheduled σ) (mem : next ∈ s.contenders (some how)) :
    ∃ σ', Reachable scheduled σ' ∧ Mirrors settings none (s.switched how next) σ' ∧
      σ'.phase = .free := by
  have free := mirrors.free_at_switch
  have perm := contenders_switched mem
  let on := (s.switched how next).kernel.inInterrupt
  have allowed : σ.Allowed (.interrupt on) := free
  have reachable' := reachable.move allowed ⟨trivial, trivial⟩ rfl
  refine ⟨_, reachable',
    { kernel := ?_
      stocked := mirrors.stocked.moved .interrupt
      running := rfl
      present := has_switched.mpr (mirrors.has next ((mirrors.contends next).mp mem).1)
      nodup := perm.nodup_iff.mpr mirrors.nodup
      contends := fun u => perm.mem_iff.trans (mirrors.contends u)
      has := fun u alive => has_switched.mpr (mirrors.has u alive)
      follows := fun u => call_switched mirrors.present ▸ mirrors.follows u
      scripts := fun u => script_switched mirrors.present ▸ mirrors.scripts u
      joinable := mirrors.joinable
      phase := .inl free }, free⟩
  show ({ σ.kernel with inInterrupt := on } : Kernel) = _
  rw [mirrors.kernel]
  rfl

end Switched

/-! ### The start -/

section Stock

theorem reachable_newSemaphores (counts : List Nat)
    (small : ∀ count ∈ counts, count ≤ Semaphore.maxCount) (reachable : Reachable scheduled σ)
    (free : σ.phase = .free) :
    ∃ spares, (∀ i < counts.length, (⟨σ.kernel.semaphores.length + i⟩ : SemaphoreId) ∈ spares) ∧
      Reachable scheduled { σ with
        kernel := { σ.kernel with
          semaphores := σ.kernel.semaphores ++ counts.map fun count => ⟨⟨count, []⟩, false⟩ }
        standalone := σ.standalone ++ spares } := by
  induction counts generalizing σ with
  | nil => exact ⟨[], nofun, by simpa using reachable⟩
  | cons count rest ih =>
    have allowed : σ.Allowed (.newSemaphore count) := ⟨free, small count List.mem_cons_self⟩
    have one := reachable.move allowed ⟨trivial, trivial⟩ rfl
    obtain ⟨spares, named, all⟩ :=
      ih (fun other mem => small other (List.mem_cons_of_mem _ mem)) one free
    refine ⟨σ.kernel.nextSemaphore :: spares, ?_, ?_⟩
    · rintro (_ | i) below
      · exact List.mem_cons_self
      · have mem := named i (Nat.lt_of_succ_lt_succ below)
        simp only [Kernel.addSemaphore, List.length_append, List.length_cons, List.length_nil] at mem
        rw [show σ.kernel.semaphores.length + (i + 1) = σ.kernel.semaphores.length + (0 + 1) + i by
          omega]
        exact List.mem_cons_of_mem _ mem
    · simpa [Kernel.addSemaphore] using all

theorem reachable_newLocks (count : Nat) (reachable : Reachable scheduled σ)
    (free : σ.phase = .free) :
    Reachable scheduled { σ with
      kernel := { σ.kernel with
        semaphores := σ.kernel.semaphores ++ List.replicate count ⟨⟨1, []⟩, false⟩ }
      locks := σ.locks ++ (List.range count).map fun i =>
        ⟨⟨σ.locks.length + i + 1⟩, ⟨σ.kernel.semaphores.length + i⟩⟩ } := by
  induction count with
  | zero => simpa using reachable
  | succ count ih =>
    have one := ih.move (show System.Allowed _ .newLock from free) ⟨trivial, trivial⟩ rfl
    simpa [Kernel.addSemaphore, Kernel.nextSemaphore, List.range_succ, List.replicate_succ',
      Nat.add_assoc] using one

theorem reachable_newCondvars (count : Nat) (reachable : Reachable scheduled σ)
    (free : σ.phase = .free) :
    Reachable scheduled { σ with
      kernel := { σ.kernel with
        condvars := σ.kernel.condvars ++ List.replicate count ⟨[], false⟩ } } := by
  induction count with
  | zero => simpa using reachable
  | succ count ih =>
    have one := ih.move (show System.Allowed _ .newCondvar from free) ⟨trivial, trivial⟩ rfl
    simpa [List.replicate_succ', List.append_assoc] using one

end Stock

/-- Before the first step there is the main thread in a table of its own. -/
theorem booted {main : ThreadId} {table : ThreadTable}
    (boots : settings.table (.empty 0) = ⟨.ok main, table, events⟩) :
    settings.capacity ≤ ThreadTable.maxCapacity ∧ ∃ priority reported,
      ThreadTable.spawn "main" priority (.empty settings.capacity) =
        ⟨.ok (.ok main), table, reported⟩ := by
  unfold Settings.table at boots
  obtain ⟨priority, mid, _, _, checks, sets, -⟩ := bind_eq_ok.mp boots
  obtain ⟨⟨⟩, mid', _, _, empties, goesOn, -⟩ := bind_eq_ok.mp sets
  cases empties
  obtain ⟨limit, mid'', _, _, limits, spawns, -⟩ := bind_eq_ok.mp goesOn
  obtain ⟨small, rfl⟩ := ofExcept_eq_ok limits
  obtain ⟨result, mid₃, _, _, adds, ends, -⟩ := bind_eq_ok.mp spawns
  refine ⟨?_, priority, ?_⟩
  · unfold ThreadTable.ofCapacity at small
    split at small
    · assumption
    · cases small
  · cases result with
    | error reason => cases ends
    | ok id =>
      cases ends
      exact ⟨_, adds⟩

/-- Nobody else is live then. -/
theorem live_of_boots {main : ThreadId} {table : ThreadTable}
    (boots : settings.table (.empty 0) = ⟨.ok main, table, events⟩) :
    table.contains u = true ↔ u = main := by
  obtain ⟨small, priority, reported, adds⟩ := booted boots
  obtain ⟨-, full, -⟩ | ⟨_, ⟨⟩, gains⟩ := ThreadTable.spawn_eq_ok (ThreadTable.arena_empty small) adds
  · cases full
  refine gains.contains.trans (or_iff_left fun alive => ?_)
  obtain ⟨r, found⟩ := ThreadTable.contains_iff.mp alive
  have absent : (ThreadTable.empty settings.capacity).get? u = none := rfl
  exact absurd (absent.symm.trans found) (Option.some_ne_none r).symm

/-- The system with the objects that the settings ask for, and no thread. -/
def Settings.system (settings : Settings) (spares : List SemaphoreId) : System where
  kernel := {
    threads := ⟨.empty settings.capacity, false⟩
    semaphores := settings.counts.map (fun count => ⟨⟨count, []⟩, false⟩) ++
      List.replicate settings.locks ⟨⟨1, []⟩, false⟩
    condvars := List.replicate settings.condvars ⟨[], false⟩
    data := []
    mode := settings.mode
    depth := 0
    inInterrupt := false }
  activity := fun _ => {}
  standalone := spares
  locks := (List.range settings.locks).map settings.lock
  phase := .free
  issued := []

theorem reachable_system (small : settings.capacity ≤ ThreadTable.maxCapacity)
    (counts : ∀ count ∈ settings.counts, count ≤ Semaphore.maxCount) :
    ∃ spares, (∀ i < settings.counts.length, (⟨i⟩ : SemaphoreId) ∈ spares) ∧
      Reachable scheduled (settings.system spares) := by
  have started : Reachable scheduled (System.start settings.capacity settings.mode) := .start small
  obtain ⟨spares, named, counted⟩ := reachable_newSemaphores settings.counts counts started rfl
  have stocked := reachable_newCondvars settings.condvars
    (reachable_newLocks settings.locks counted rfl) rfl
  refine ⟨spares, ?_, ?_⟩
  · simpa [System.start] using named
  · have locks : settings.lock = fun i => ⟨⟨i + 1⟩, ⟨settings.counts.length + i⟩⟩ := rfl
    simpa [System.start, Settings.system, locks] using stocked

theorem thread_start {main : ThreadId} {table : ThreadTable} :
    (settings.start script table main).thread u =
      if u = main then { id := main, name := "main", script := [.actions script, .returned] }
      else .absent := by
  unfold thread Settings.start
  by_cases here : main = u
  · simp [here]
  · simp [here, Ne.symm here]

/-- The simulation at its start mirrors a system that has been stocked. -/
theorem mirrored_start (fits : settings.Fits script) {main : ThreadId} {table : ThreadTable}
    (boots : settings.table (.empty 0) = ⟨.ok main, table, events⟩) :
    Mirrored settings none (settings.start script table main) := by
  obtain ⟨small, priority, reported, adds⟩ := booted boots
  obtain ⟨spares, named, stocked⟩ := reachable_system small fits.counts
  have live : ∀ u, table.contains u = true ↔ u = main := fun u => live_of_boots boots
  refine ⟨_, reachable_spawn stocked rfl adds,
    { kernel := ?_
      stocked := ⟨named, fun i below => List.mem_map.mpr ⟨i, List.mem_range.mpr below, rfl⟩,
        by simp [Settings.system, System.withTable, Kernel.setTable]⟩
      running := rfl
      present := ⟨_, List.mem_singleton.mpr rfl, rfl⟩
      nodup := List.nodup_singleton main
      contends := fun u => ?_
      has := fun u alive => ⟨_, List.mem_singleton.mpr rfl, ((live u).mp alive).symm⟩
      follows := fun u => ?_
      scripts := fun u => ?_
      joinable := fun _ mem => absurd mem List.not_mem_nil
      phase := .inl rfl }⟩
  · simp [Settings.start, Settings.system, System.withTable, Kernel.setTable]
  · show u ∈ [main] ↔ table.contains u = true ∧ false = false
    rw [List.mem_singleton, live, and_iff_left rfl]
  · rw [thread_start]
    split <;> exact .nil
  · rw [thread_start]
    split
    · rintro p (_ | ⟨_, _ | ⟨_, ⟨⟩⟩⟩)
      · exact fits.script
      · trivial
    · exact List.forall_mem_nil _

/-! ### Runs -/

section Mirrored

variable {how : Option Switch}

theorem Mirrored.quiet (mirrored : Mirrored settings how s) : s.kernel.Quiet := by
  obtain ⟨σ, reachable, mirrors⟩ := mirrored
  exact mirrors.quiet reachable

theorem Mirrored.has (mirrored : Mirrored settings how s) : s.Has s.current := by
  obtain ⟨σ, reachable, mirrors⟩ := mirrored
  exact mirrors.present

/-- What the running thread does up to a switch is a turn. -/
theorem Mirrored.turn_of_run (mirrored : Mirrored settings none s)
    (run : untilSwitch s = ⟨.ok how, s₁, events⟩) : Turn s s₁ how :=
  turn_of_ok mirrored.quiet mirrored.has run

end Mirrored

/-- What a step without a fault does: a turn, after which the running thread goes on or the first
contender of greatest rank is picked. -/
inductive Stepped (s : Simulation) : Simulation → Prop where
  | goesOn {s₁ : Simulation} {events : List Event}
      (run : untilSwitch s = ⟨.ok none, s₁, events⟩) : Stepped s s₁
  | switches {s₁ : Simulation} {how : Switch} {next : ThreadId} {events : List Event}
      (run : untilSwitch s = ⟨.ok (some how), s₁, events⟩)
      (foremost : Foremost s₁.kernel.table (s₁.contenders (some how)) next) :
      Stepped s (s₁.switched how next)

theorem Mirrored.stepped (mirrored : Mirrored settings none s)
    (sound : (advance s).outcome = .ok ()) : Stepped s (step s).state := by
  rw [step_of_sound sound]
  rcases ends : advance s with ⟨outcome, s', events⟩
  rw [ends] at sound
  cases sound
  rw [advance_eq] at ends
  obtain ⟨how, s₁, _, _, run, dispatches, -⟩ := bind_eq_ok.mp ends
  cases how with
  | none =>
    cases dispatches
    exact .goesOn run
  | some how =>
    have quiet := (mirrored.turn (mirrored.turn_of_run run)).quiet
    obtain ⟨-, next, foremost, rfl⟩ := switch_eq_ok quiet dispatches
    exact .switches run foremost

/-- Where a step ends without a fault, the system can come too. -/
theorem Mirrored.step (mirrored : Mirrored settings none s)
    (sound : (advance s).outcome = .ok ()) : Mirrored settings none (step s).state := by
  have stepped := mirrored.stepped sound
  generalize (Simulation.step s).state = s' at stepped ⊢
  cases stepped with
  | goesOn run => exact mirrored.turn (mirrored.turn_of_run run)
  | switches run foremost =>
    obtain ⟨σ, reachable, mirrors⟩ := mirrored.turn (mirrored.turn_of_run run)
    obtain ⟨σ', reachable', mirrors', -⟩ := mirrors.switched reachable foremost.mem
    exact ⟨σ', reachable', mirrors'⟩

/-- A simulation without a fault is at a state that the system can come to. -/
theorem Reached.mirrored (fits : settings.Fits script) (reached : Reached settings script s) :
    Mirrored settings none s := by
  induction reached with
  | start boots => exact mirrored_start fits boots
  | step before sound ih => exact ih.step sound

end KernelSync.Simulation
