import KernelSync.Proofs.ShortCalls
import KernelSync.Proofs.System

/-!
What a move can do to a system. `Moved` lists it by the kind of move, on top of what a stretch or a
short call can do, and `moved_of_ok` says that the list is complete. Seen from the thread table each
move is at most one of the changes of `Change`.
-/

namespace KernelSync.System

open Stretch ThreadTable

variable {s s' : System} {t u : ThreadId} {events : List Event}

/-- The shared state as a thread finds it that is in `depth` sections. -/
def kernelAt (s : System) (t : ThreadId) : Kernel :=
  { s.kernel with depth := (s.activity t).depth }

/-- The system with another thread table. -/
def withTable (s : System) (table : ThreadTable) : System :=
  { s with kernel := s.kernel.setTable table }

/-- What a move can make of a system. -/
inductive Moved (s : System) : Move → System → Prop where
  | newSemaphore {count : Nat} :
      Moved s (.newSemaphore count)
        { s with
          kernel := s.kernel.addSemaphore count
          standalone := s.standalone ++ [s.kernel.nextSemaphore] }
  | newLock :
      Moved s .newLock
        { s with
          kernel := s.kernel.addSemaphore 1
          locks := s.locks ++ [⟨⟨s.locks.length + 1⟩, s.kernel.nextSemaphore⟩] }
  | newCondvar :
      Moved s .newCondvar
        { s with kernel := { s.kernel with condvars := s.kernel.condvars ++ [⟨[], false⟩] } }
  | spawned {name : String} {priority : Priority} {id : ThreadId} {table : ThreadTable}
      (gains : Gains s.table id (.fresh name priority) table) :
      Moved s (.spawn name priority) { s.withTable table with issued := s.issued ++ [id] }
  | full {name : String} {priority : Priority} (full : s.table.capacity ≤ s.table.live) :
      Moved s (.spawn name priority) s
  | removed {t : ThreadId} {table : ThreadTable} (loses : Loses s.table t table)
      (live : s.Live t) (idle : s.table.waits t = none)
      (unheld : s.table.holdings.heldBy t = []) :
      Moved s (.remove t) ((s.withTable table).become t {})
  | rebased {t : ThreadId} {base : Priority} (live : s.Live t) :
      Moved s (.setBase t base)
        (s.withTable (Donation.changeBasePriority t base s.kernel.mode s.table).state)
  | reranked {t : ThreadId} {priority : Priority} (live : s.Live t) :
      Moved s (.setEffective t priority) (s.withTable (s.table.modify t ({ · with priority })))
  | interrupt {on : Bool} :
      Moved s (.interrupt on) { s with kernel := { s.kernel with inInterrupt := on } }
  | called {t : ThreadId} {call : Call} :
      Moved s (.call t call) (s.become t { s.activity t with frames := [.call call] })
  | answered {t : ThreadId} {call : ShortCall} {kernel : Kernel} {answer : Bool}
      (answers : Answers t (s.kernelAt t) call kernel answer) :
      Moved s (.short t call) { s with kernel }
  | went {t : ThreadId} {head : Frame} {rest : List Frame} {kernel : Kernel} {progress : Progress}
      (frames : (s.activity t).frames = head :: rest)
      (advances : Advances t (s.kernelAt t) head kernel progress) :
      Moved s (.go t)
        (settle t { progress with frames := progress.frames ++ rest } { s with kernel })

theorem onKernel_eq_ok {α : Type} {x : Stretch Kernel α} {a : α} :
    onKernel x s = ⟨.ok a, s', events⟩ ↔
      ∃ kernel, x s.kernel = ⟨.ok a, kernel, events⟩ ∧ s' = { s with kernel } :=
  within_eq_ok

theorem onTable_eq_ok {α : Type} {x : Stretch ThreadTable α} {a : α} (quiet : s.kernel.Quiet)
    (run : onTable x s = ⟨.ok a, s', events⟩) :
    ∃ table reported, x s.table = ⟨.ok a, table, reported⟩ ∧ s' = s.withTable table := by
  obtain ⟨kernel, sections, rfl⟩ := onKernel_eq_ok.mp run
  obtain ⟨mid, reported, accesses, rfl⟩ := inSection_eq_ok sections
  obtain ⟨table, works, rfl⟩ := (withThreads_eq_ok (quiet.withDepth _)).mp accesses
  exact ⟨table, reported, works, rfl⟩

theorem moved_of_spawn (quiet : s.kernel.Quiet) (arena : Arena s.table) {name : String}
    {priority : Priority} (run : perform (.spawn name priority) s = ⟨.ok (), s', events⟩) :
    Moved s (.spawn name priority) s' := by
  unfold perform at run
  obtain ⟨result, mid, _, _, spawns, rest, -⟩ := bind_eq_ok.mp run
  obtain ⟨table, reported, adds, rfl⟩ := onTable_eq_ok quiet spawns
  rcases spawn_eq_ok arena adds with ⟨full, rfl, rfl⟩ | ⟨id, rfl, gains⟩
  · cases rest
    exact .full full
  · cases rest
    exact .spawned gains

/-- The list of what a move can do is complete. -/
theorem moved_of_ok (quiet : s.kernel.Quiet) (arena : Arena s.table) {move : Move}
    (allowed : s.Allowed move) (run : perform move s = ⟨.ok (), s', events⟩) :
    Moved s move s' := by
  cases move with
  | newSemaphore count =>
    cases run
    exact .newSemaphore
  | newLock =>
    cases run
    exact .newLock
  | newCondvar =>
    cases run
    exact .newCondvar
  | spawn name priority => exact moved_of_spawn quiet arena run
  | remove t =>
    unfold perform at run
    obtain ⟨r, mid, _, _, removes, rest, -⟩ := bind_eq_ok.mp run
    obtain ⟨table, reported, takes, rfl⟩ := onTable_eq_ok quiet removes
    obtain ⟨found, idle, unheld, loses⟩ := remove_eq_ok arena takes
    cases rest
    exact .removed loses (contains_of_get? found) ((waits_of_get? found).trans idle) unheld
  | setBase t base =>
    unfold perform at run
    obtain ⟨mode, mid, _, _, reads, rest, -⟩ := bind_eq_ok.mp run
    cases reads
    obtain ⟨effective, mid, _, _, changes, rest, -⟩ := bind_eq_ok.mp rest
    obtain ⟨table, reported, sets, rfl⟩ := onTable_eq_ok quiet changes
    cases rest
    have changed : (Donation.changeBasePriority t base s.kernel.mode s.table).state = table := by
      rw [sets]
    rw [← changed]
    exact .rebased (Donation.contains_of_changeBase sets)
  | setEffective t priority =>
    obtain ⟨table, reported, sets, rfl⟩ := onTable_eq_ok quiet run
    obtain ⟨live, rfl, -⟩ := amend_eq_ok.mp sets
    exact .reranked live
  | interrupt on =>
    cases run
    exact .interrupt
  | call t call =>
    cases run
    exact .called
  | short t call =>
    unfold perform at run
    obtain ⟨activity, mid, _, _, reads, rest, -⟩ := bind_eq_ok.mp run
    cases reads
    obtain ⟨answer, mid, _, _, works, rest, -⟩ := bind_eq_ok.mp rest
    obtain ⟨kernel, calls, rfl⟩ := onKernel_eq_ok.mp works
    obtain ⟨⟨⟩, mid, _, _, enters, answers, -⟩ := bind_eq_ok.mp calls
    cases enters
    cases rest
    exact .answered (answers_of_ok (quiet.withDepth _) answers)
  | go t =>
    obtain ⟨-, -, busy, -⟩ := allowed
    unfold perform goOn at run
    obtain ⟨activity, mid, _, _, reads, rest, -⟩ := bind_eq_ok.mp run
    cases reads
    obtain ⟨progress, mid, _, _, works, rest, -⟩ := bind_eq_ok.mp rest
    obtain ⟨kernel, steps, rfl⟩ := onKernel_eq_ok.mp works
    obtain ⟨⟨⟩, mid, _, _, enters, steps, -⟩ := bind_eq_ok.mp steps
    cases enters
    cases rest
    cases frames : (s.activity t).frames with
    | nil => exact absurd frames busy
    | cons head rest =>
      rw [frames] at steps
      obtain ⟨advance, advances, rfl⟩ := step_eq_ok steps
      exact .went frames (advances_of_ok (quiet.withDepth _) advances)

end KernelSync.System
