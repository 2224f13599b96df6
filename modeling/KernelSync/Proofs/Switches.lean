import KernelSync.Proofs.SimThreads

/-!
Switches. The scheduler picks the first of greatest rank among those that contend for the processor
(`switch_eq_ok`); if there is none, it records a deadlock (`switch_of_stranded`).
-/

namespace KernelSync.Simulation

open Stretch hiding pure bind
open Kernel Donation

variable {s s' : Simulation} {how : Switch} {id best next : ThreadId} {list : List ThreadId}
  {table table' : ThreadTable} {events : List Event}

/-! ### Choosing -/

theorem priority_eq_ok {p : Priority}
    (run : ThreadTable.priority id table = ⟨.ok p, table', events⟩) :
    table' = table ∧ p = rank table id := by
  cases found : table.get? id with
  | none =>
    unfold ThreadTable.priority at run
    rw [bind_run_error (ThreadTable.record_run_of_stale found)] at run
    cases run
  | some r =>
    rw [ThreadTable.priority_run found] at run
    cases run
    exact ⟨rfl, (rank_of_get? found).symm⟩

theorem inspects_mostUrgent {urgency : Priority} : Inspects (mostUrgent best urgency list) := by
  induction list generalizing best urgency with
  | nil => exact inspects_pure best
  | cons id rest ih =>
    refine inspects_bind ThreadTable.inspects_priority fun priority => ?_
    split
    · exact ih
    · exact ih

theorem inspects_pickNext : Inspects (pickNext list) := by
  cases list with
  | nil => exact inspects_pure none
  | cons id rest =>
    exact inspects_bind ThreadTable.inspects_priority fun _ =>
      inspects_bind inspects_mostUrgent fun _ => inspects_pure _

theorem inspects_anyAbove {urgency : Priority} : Inspects (anyAbove urgency list) := by
  induction list with
  | nil => exact inspects_pure false
  | cons id rest ih =>
    refine inspects_bind ThreadTable.inspects_priority fun priority => ?_
    split
    · exact inspects_pure true
    · exact ih

theorem inspects_outranked : Inspects (do anyAbove (← ThreadTable.priority id) list) :=
  inspects_bind ThreadTable.inspects_priority fun _ => inspects_anyAbove

/-- The first among those of greatest rank in the list. -/
def Foremost (table : ThreadTable) (list : List ThreadId) (next : ThreadId) : Prop :=
  ∃ before after, list = before ++ next :: after ∧
    (∀ u ∈ before, rank table u < rank table next) ∧ ∀ u ∈ after, rank table u ≤ rank table next

theorem Foremost.mem (foremost : Foremost table list next) : next ∈ list := by
  obtain ⟨before, after, rfl, -⟩ := foremost
  simp

theorem Foremost.rank_le (foremost : Foremost table list next) (mem : id ∈ list) :
    rank table id ≤ rank table next := by
  obtain ⟨before, after, rfl, lower, le⟩ := foremost
  rcases List.mem_append.mp mem with mem | mem
  · exact Nat.le_of_lt (lower id mem)
  · rcases List.mem_cons.mp mem with rfl | mem
    · exact Nat.le_refl _
    · exact le id mem

/-- A thread in front of a higher one. -/
theorem Foremost.cons (foremost : Foremost table (id :: list) next)
    (above : rank table best < rank table id) : Foremost table (best :: id :: list) next := by
  have least := Nat.lt_of_lt_of_le above (foremost.rank_le List.mem_cons_self)
  obtain ⟨before, after, split, lower, le⟩ := foremost
  refine ⟨best :: before, after, by rw [split]; rfl, fun u mem => ?_, le⟩
  rcases List.mem_cons.mp mem with rfl | mem
  · exact least
  · exact lower u mem

/-- A thread behind one that is as high or higher. -/
theorem Foremost.insert_second (foremost : Foremost table (best :: list) next)
    (below : rank table id ≤ rank table best) : Foremost table (best :: id :: list) next := by
  obtain ⟨before, after, split, lower, le⟩ := foremost
  cases before with
  | nil =>
    obtain ⟨rfl, rfl⟩ := List.cons.inj split
    refine ⟨[], id :: list, rfl, List.forall_mem_nil _, fun u mem => ?_⟩
    rcases List.mem_cons.mp mem with rfl | mem
    · exact below
    · exact le u mem
  | cons first before =>
    obtain ⟨rfl, rfl⟩ := List.cons.inj split
    have lead := lower best List.mem_cons_self
    refine ⟨best :: id :: before, after, rfl, fun u mem => ?_, le⟩
    rcases List.mem_cons.mp mem with rfl | mem
    · exact lead
    rcases List.mem_cons.mp mem with rfl | mem
    · exact Nat.lt_of_le_of_lt below lead
    · exact lower u (List.mem_cons_of_mem _ mem)

theorem mostUrgent_eq_ok (run : mostUrgent best (rank table best) list table =
    ⟨.ok next, table', events⟩) : table' = table ∧ Foremost table (best :: list) next := by
  induction list generalizing best events with
  | nil =>
    cases run
    exact ⟨rfl, [], [], rfl, List.forall_mem_nil _, List.forall_mem_nil _⟩
  | cons id rest ih =>
    obtain ⟨p, mid, _, _, asks, goesOn, -⟩ := bind_eq_ok.mp run
    obtain ⟨rfl, rfl⟩ := priority_eq_ok asks
    by_cases above : rank mid best < rank mid id
    · rw [if_pos above] at goesOn
      obtain ⟨same, foremost⟩ := ih goesOn
      exact ⟨same, foremost.cons above⟩
    · rw [if_neg above] at goesOn
      obtain ⟨same, foremost⟩ := ih goesOn
      exact ⟨same, foremost.insert_second (Nat.le_of_not_lt above)⟩

/-- From a list without threads nobody is picked, and else the first of greatest rank. -/
theorem pickNext_eq_ok {result : Option ThreadId}
    (run : pickNext list table = ⟨.ok result, table', events⟩) :
    table' = table ∧ (result = none ∧ list = [] ∨
      ∃ next, result = some next ∧ Foremost table list next) := by
  cases list with
  | nil =>
    cases run
    exact ⟨rfl, Or.inl ⟨rfl, rfl⟩⟩
  | cons id rest =>
    obtain ⟨p, mid, _, _, asks, goesOn, -⟩ := bind_eq_ok.mp run
    obtain ⟨rfl, rfl⟩ := priority_eq_ok asks
    obtain ⟨next, mid', _, _, chooses, ends, -⟩ := bind_eq_ok.mp goesOn
    cases ends
    obtain ⟨same, foremost⟩ := mostUrgent_eq_ok chooses
    exact ⟨same, Or.inr ⟨next, rfl, foremost⟩⟩

theorem anyAbove_eq_ok {urgency : Priority} {above : Bool}
    (run : anyAbove urgency list table = ⟨.ok above, table', events⟩) :
    table' = table ∧ (above = true ↔ ∃ u ∈ list, urgency < rank table u) := by
  induction list generalizing events with
  | nil =>
    cases run
    exact ⟨rfl, nofun, nofun⟩
  | cons id rest ih =>
    obtain ⟨p, mid, _, _, asks, goesOn, -⟩ := bind_eq_ok.mp run
    obtain ⟨rfl, rfl⟩ := priority_eq_ok asks
    by_cases higher : urgency < rank mid id
    · rw [if_pos higher] at goesOn
      cases goesOn
      exact ⟨rfl, fun _ => ⟨id, List.mem_cons_self, higher⟩, fun _ => rfl⟩
    · rw [if_neg higher] at goesOn
      obtain ⟨same, found⟩ := ih goesOn
      refine ⟨same, found.trans ⟨fun ⟨u, mem, up⟩ => ⟨u, List.mem_cons_of_mem _ mem, up⟩, ?_⟩⟩
      rintro ⟨u, mem, up⟩
      rcases List.mem_cons.mp mem with rfl | mem
      · exact absurd up higher
      · exact ⟨u, mem, up⟩

/-! ### Failing -/

/-- After a failure nobody goes on. -/
theorem collapse_not_ok {result : Unit} : collapse s ≠ ⟨.ok result, s', events⟩ := by
  intro run
  unfold collapse at run
  obtain ⟨⟨⟩, _, _, _, _, rest, -⟩ := bind_eq_ok.mp run
  obtain ⟨⟨⟩, _, _, _, _, rest, -⟩ := bind_eq_ok.mp rest
  obtain ⟨fault, _, _, _, _, fails, -⟩ := bind_eq_ok.mp rest
  cases fails

theorem deadlock_not_ok {result : Unit} : deadlock s ≠ ⟨.ok result, s', events⟩ := by
  intro run
  unfold deadlock at run
  obtain ⟨failure, _, _, _, _, rest, -⟩ := bind_eq_ok.mp run
  obtain ⟨⟨⟩, _, _, _, _, rest, -⟩ := bind_eq_ok.mp rest
  obtain ⟨⟨⟩, _, _, _, _, collapses, -⟩ := bind_eq_ok.mp rest
  exact collapse_not_ok collapses

/-! ### Switching -/

/-- The threads among which a switch picks; without a switch, those that can go on. -/
def contenders (s : Simulation) : Option Switch → List ThreadId
  | none | some .yield => s.queue.ready ++ [s.current]
  | some .block | some .exit => s.queue.ready

/-- The simulation in which the scheduler has picked `next`. -/
def switched (s : Simulation) (how : Switch) (next : ThreadId) : Simulation :=
  { s with queue := { s.queue with
      ready := (s.contenders (some how)).erase next
      running := some next } }.resume next

/-- The simulation in which the contenders of a switch are lined up. -/
def lined (s : Simulation) (how : Switch) : Simulation :=
  { s with queue := { s.queue with ready := s.contenders (some how) } }

/-- Lets the thread that was picked run. -/
def award (me : ThreadId) (how : Switch) (ready : List ThreadId) :
    Option ThreadId → Stretch Simulation Unit
  | none => deadlock
  | some next => do
      if next ≠ me then Stretch.log (.switches me next how)
      modifyQueue ({ · with ready := ready.erase next, running := some next })
      Stretch.update (·.resume next)

/-- The running thread lines up the contenders, and one of them is picked. -/
theorem switch_run (running : s.queue.running = some s.current) : switch how s =
    (inKernel (withThreads (pickNext (s.contenders (some how)))) >>=
      award s.current how (s.contenders (some how))) (s.lined how) := by
  have same : (if how = .yield then s.queue.ready ++ [s.current] else s.queue.ready) =
      s.contenders (some how) := by cases how <;> rfl
  have lines : ∀ ready, modifyQueue ({ · with ready }) s =
      ⟨.ok (), { s with queue := { s.queue with ready } }, []⟩ := fun _ => rfl
  unfold switch
  rw [bind_run_ok (read_run _ _), bind_run_ok (read_run _ _), if_neg (not_not_intro running)]
  simp only [same]
  rw [bind_run_ok (lines _)]
  rfl

/-- Only the running thread gives up the processor, and it goes to the first contender of greatest
rank. -/
theorem switch_eq_ok (quiet : s.kernel.Quiet) {result : Unit}
    (run : switch how s = ⟨.ok result, s', events⟩) :
    s.queue.running = some s.current ∧ ∃ next,
      Foremost s.kernel.table (s.contenders (some how)) next ∧ s' = s.switched how next := by
  by_cases running : s.queue.running = some s.current
  case neg =>
    obtain ⟨me, mid, _, _, reads, rest, -⟩ := bind_eq_ok.mp run
    cases reads
    obtain ⟨queue, mid, _, _, reads, rest, -⟩ := bind_eq_ok.mp rest
    cases reads
    rw [if_pos running] at rest
    obtain ⟨⟨⟩, _, _, _, _, fails, -⟩ := bind_eq_ok.mp rest
    cases fails
  rw [switch_run running] at run
  obtain ⟨picked, mid, _, _, picks, awards, -⟩ := bind_eq_ok.mp run
  obtain ⟨kernel, accesses, rfl⟩ := inKernel_eq_ok.mp picks
  obtain ⟨table, chooses, rfl⟩ := (withThreads_eq_ok quiet).mp accesses
  obtain ⟨rfl, ⟨rfl, -⟩ | ⟨next, rfl, foremost⟩⟩ := pickNext_eq_ok chooses
  · exact absurd awards deadlock_not_ok
  refine ⟨running, next, foremost, ?_⟩
  dsimp only [award] at awards
  split at awards
  · obtain ⟨⟨⟩, _, _, _, logs, takes, -⟩ := bind_eq_ok.mp awards
    cases logs
    cases takes
    rfl
  · cases awards
    rfl

/-- A thread that is made ready was not. -/
theorem unblock_eq_ok {result : Unit} (run : unblock id s = ⟨.ok result, s', events⟩) :
    id ∉ s.queue.ready ∧
      s' = { s with queue := { s.queue with ready := s.queue.ready ++ [id] } } := by
  obtain ⟨ready, mid, _, _, reads, rest, -⟩ := bind_eq_ok.mp run
  cases reads
  by_cases mem : id ∈ s.queue.ready
  · rw [if_pos mem] at rest
    obtain ⟨⟨⟩, _, _, _, _, fails, -⟩ := bind_eq_ok.mp rest
    cases fails
  · rw [if_neg mem] at rest
    obtain ⟨⟨⟩, _, _, _, logs, lines, -⟩ := bind_eq_ok.mp rest
    cases logs
    cases lines
    exact ⟨mem, rfl⟩

end KernelSync.Simulation
