import KernelSync.Proofs.Advance

/-!
Systems: any number of threads that use the primitives in any order. A move starts a call, takes a
thread through one stretch of its call, or sets up and changes threads between calls. What the
scheduler's contract leaves open is left open: which thread moves next, and when. It fixes that a
blocked thread does not move before it has been unblocked, and that inside an atomic section other
threads move only where the section blocks or asks for a check. A state is `Reachable` by moves none
of which ends in a fault; so a run is one without a panic.
-/

namespace KernelSync

/-- What a thread is doing: what is left of its call, and whether it waits to be unblocked. -/
structure Activity where
  frames : List Frame := []
  blocked : Bool := false
  /-- How many atomic sections the thread is in. -/
  depth : Nat := 0
  deriving DecidableEq, Repr

/-- Who may move. -/
inductive Phase where
  /-- Any thread that is not blocked. -/
  | free
  /-- The thread alone, which is in an atomic section. -/
  | within (t : ThreadId)
  /-- The same, at the moment when the thread has told the scheduler to unblock another. -/
  | calling (t : ThreadId)
  deriving DecidableEq, Repr

/-- The shared state, with what each thread is doing. -/
structure System where
  kernel : Kernel
  activity : ThreadId → Activity
  /-- The semaphores that stand alone. -/
  standalone : List SemaphoreId
  locks : List Lock
  phase : Phase
  /-- The handles that have been given to new threads, in order. -/
  issued : List ThreadId

/-- What happens next. -/
inductive Move where
  | newSemaphore (count : Nat)
  | newLock
  | newCondvar
  | spawn (name : String) (priority : Priority)
  | remove (t : ThreadId)
  | setBase (t : ThreadId) (base : Priority)
  | setEffective (t : ThreadId) (priority : Priority)
  /-- Sets whether threads are in interrupt context. -/
  | interrupt (on : Bool)
  | call (t : ThreadId) (call : Call)
  | short (t : ThreadId) (call : ShortCall)
  /-- The thread goes on with its call. -/
  | go (t : ThreadId)
  deriving DecidableEq, Repr

namespace System

/-- A system without threads. -/
def start (capacity : Nat) (mode : SchedulingMode) : System where
  kernel := {
    threads := ⟨.empty capacity, false⟩
    semaphores := []
    condvars := []
    data := []
    mode
    depth := 0
    inInterrupt := false }
  activity := fun _ => {}
  standalone := []
  locks := []
  phase := .free
  issued := []

def table (s : System) : ThreadTable := s.kernel.table

def Live (s : System) (t : ThreadId) : Prop := s.table.contains t = true

instance (s : System) (t : ThreadId) : Decidable (s.Live t) :=
  inferInstanceAs (Decidable (_ = _))

/-- Where a thread is in its call. -/
def at? (s : System) (t : ThreadId) : Option Frame := (s.activity t).frames.head?

/-! ### The contract -/

/-- The objects that a call names are there, and it names no semaphore of a lock or a wait. -/
def Names (s : System) : Call → Prop
  | .down x | .up x => x ∈ s.standalone
  | .acquire lock | .release lock => lock ∈ s.locks
  | .wait c lock | .signal c lock | .broadcast c lock =>
      c.index < s.kernel.condvars.length ∧ lock ∈ s.locks

def NamesShort (s : System) : ShortCall → Prop
  | .tryDown x => x ∈ s.standalone
  | .tryAcquire lock | .held lock => lock ∈ s.locks

/-- A live thread between calls. -/
def Idle (s : System) (t : ThreadId) : Prop := s.Live t ∧ (s.activity t).frames = []

/-- The moves that the scheduler's contract leaves open. -/
def Allowed (s : System) : Move → Prop
  | .newSemaphore count => s.phase = .free ∧ count ≤ Semaphore.maxCount
  | .call t call => s.phase = .free ∧ s.Idle t ∧ s.Names call
  | .short t call => s.phase = .free ∧ s.Idle t ∧ s.NamesShort call
  | .go t =>
      (s.phase = .free ∨ s.phase = .within t ∨ s.phase = .calling t) ∧
        s.Live t ∧ (s.activity t).frames ≠ [] ∧ (s.activity t).blocked = false
  | _ => s.phase = .free

instance (s : System) : (call : Call) → Decidable (s.Names call)
  | .down _ | .up _ | .acquire _ | .release _ => inferInstanceAs (Decidable (_ ∈ _))
  | .wait _ _ | .signal _ _ | .broadcast _ _ => inferInstanceAs (Decidable (_ ∧ _))

instance (s : System) : (call : ShortCall) → Decidable (s.NamesShort call)
  | .tryDown _ | .tryAcquire _ | .held _ => inferInstanceAs (Decidable (_ ∈ _))

instance (s : System) (t : ThreadId) : Decidable (s.Idle t) := inferInstanceAs (Decidable (_ ∧ _))

instance (s : System) : (move : Move) → Decidable (s.Allowed move)
  | .newSemaphore _ | .call _ _ | .short _ _ | .go _ => inferInstanceAs (Decidable (_ ∧ _))
  | .newLock | .newCondvar | .spawn _ _ | .remove _ | .setBase _ _ | .setEffective _ _
  | .interrupt _ => inferInstanceAs (Decidable (_ = _))

/-! ### Moves -/

variable {α : Type}

/-- Runs a computation on the shared state. -/
def onKernel (x : Stretch Kernel α) : Stretch System α :=
  Stretch.within System.kernel (fun kernel s => { s with kernel }) x

/-- Runs a computation on the thread table, as an access in a section. -/
def onTable (x : Stretch ThreadTable α) : Stretch System α :=
  onKernel (Kernel.inSection fun _ => Kernel.withThreads x)

/-- The system with another activity for `t`. -/
def become (s : System) (t : ThreadId) (activity : Activity) : System :=
  { s with activity := fun u => if u = t then activity else s.activity u }

/-- Who may move after a stretch. -/
def phaseAfter (t : ThreadId) (progress : Progress) : Phase :=
  match progress.request with
  | .proceed => if progress.frames.any (· matches .leave _) then .within t else .free
  | .unblock _ => .calling t
  | .block | .check => .free

/-- The system after a stretch of `t`, whose request the scheduler has taken note of. -/
def settle (t : ThreadId) (progress : Progress) (s : System) : System :=
  { s with
    activity := fun u =>
      if u = t then ⟨progress.frames, progress.request = .block, s.kernel.depth⟩
      else if progress.request = .unblock u then { s.activity u with blocked := false }
      else s.activity u
    phase := phaseAfter t progress }

/-- Takes a thread through one stretch of its call. -/
def goOn (t : ThreadId) : Stretch System Unit := do
  let activity ← Stretch.read (·.activity t)
  let progress ← onKernel do
    Stretch.update ({ · with depth := activity.depth })
    Frame.step t activity.frames
  Stretch.update (settle t progress)

/-- Makes a move. -/
def perform : Move → Stretch System Unit
  | .newSemaphore count =>
      Stretch.update fun s => { s with
        kernel := s.kernel.addSemaphore count
        standalone := s.standalone ++ [s.kernel.nextSemaphore] }
  | .newLock =>
      Stretch.update fun s => { s with
        kernel := s.kernel.addSemaphore 1
        locks := s.locks ++ [⟨⟨s.locks.length + 1⟩, s.kernel.nextSemaphore⟩] }
  | .newCondvar =>
      Stretch.update fun s => { s with
        kernel := { s.kernel with condvars := s.kernel.condvars ++ [⟨[], false⟩] } }
  | .spawn name priority => do
      match ← onTable (ThreadTable.spawn name priority) with
      | .ok id => Stretch.update fun s => { s with issued := s.issued ++ [id] }
      | .error _ => pure ()
  | .remove t => do
      let _ ← onTable (ThreadTable.remove t)
      Stretch.update (·.become t {})
  | .setBase t base => do
      let mode ← Stretch.read (·.kernel.mode)
      let _ ← onTable (Donation.changeBasePriority t base mode)
      pure ()
  | .setEffective t priority => onTable (ThreadTable.setPriority t priority)
  | .interrupt on =>
      Stretch.update fun s => { s with kernel := { s.kernel with inInterrupt := on } }
  | .call t call => Stretch.update fun s => s.become t { s.activity t with frames := [.call call] }
  | .short t call => do
      let activity ← Stretch.read (·.activity t)
      let _ ← onKernel do
        Stretch.update ({ · with depth := activity.depth })
        call.run t
      pure ()
  | .go t => goOn t

/-! ### Runs -/

/-- A rule may forbid moves that the contract leaves open. -/
abbrev Rule := System → Move → Prop

/-- Forbids nothing. -/
def anyMove : Rule := fun _ _ => True

/-- Forbids to change priorities from outside, but for the base priority of a thread that waits for
no lock. -/
def steady : Rule
  | s, .setBase t _ => s.table.waits t = none
  | _, .setEffective _ _ => False
  | _, _ => True

/-- The states that a run can come to. -/
inductive Reachable (rule : Rule) : System → Prop where
  | start {capacity : Nat} {mode : SchedulingMode} (small : capacity ≤ ThreadTable.maxCapacity) :
      Reachable rule (start capacity mode)
  | move {s s' : System} {move : Move} {events : List Event} (before : Reachable rule s)
      (allowed : s.Allowed move) (obeys : rule s move)
      (ends : perform move s = ⟨.ok (), s', events⟩) : Reachable rule s'

/-- A run under a rule is a run. -/
theorem Reachable.any {rule : Rule} {s : System} (reachable : Reachable rule s) :
    Reachable anyMove s := by
  induction reachable with
  | start small => exact .start small
  | move _ allowed _ ends ih => exact .move ih allowed trivial ends

/-- A move that was made, with the states before and after it. -/
structure Made where
  before : System
  move : Move
  after : System

/-- The moves that lead in a run from one state to another. -/
inductive Path : System → List Made → System → Prop where
  | rest {s : System} : Path s [] s
  | move {s s' s'' : System} {move : Move} {events : List Event} {path : List Made}
      (allowed : s.Allowed move) (ends : perform move s = ⟨.ok (), s', events⟩)
      (goesOn : Path s' path s'') : Path s (⟨s, move, s'⟩ :: path) s''

/-! ### Playing runs -/

instance : (s : System) → (move : Move) → Decidable (anyMove s move) := fun _ _ => instDecidableTrue

instance : (s : System) → (move : Move) → Decidable (steady s move)
  | _, .setBase _ _ => inferInstanceAs (Decidable (_ = _))
  | _, .setEffective _ _ => instDecidableFalse
  | _, .newSemaphore _ | _, .newLock | _, .newCondvar | _, .spawn _ _ | _, .remove _
  | _, .interrupt _ | _, .call _ _ | _, .short _ _ | _, .go _ => instDecidableTrue

section Play

variable (rule : Rule) [∀ s move, Decidable (rule s move)]

/-- Makes moves in order, as long as they are allowed and end well. -/
def play : List Move → System → Option System
  | [], s => some s
  | move :: moves, s =>
      if s.Allowed move ∧ rule s move then
        match perform move s with
        | ⟨.ok (), s', _⟩ => play moves s'
        | ⟨.error _, _, _⟩ => none
      else none

theorem Reachable.play {rule : Rule} [∀ s move, Decidable (rule s move)] {s s' : System}
    {moves : List Move} (before : Reachable rule s) (played : play rule moves s = some s') :
    Reachable rule s' := by
  induction moves generalizing s with
  | nil => exact Option.some.inj played ▸ before
  | cons move moves ih =>
    unfold System.play at played
    split at played
    · rename_i permitted
      split at played
      · rename_i next _ ends
        exact ih (.move before permitted.1 permitted.2 ends) played
      · exact nomatch played
    · exact nomatch played

end Play

/-! ### Paths -/

variable {s s' s'' : System} {rule : Rule} {path more : List Made}

theorem Path.append (leads : Path s path s') (goesOn : Path s' more s'') :
    Path s (path ++ more) s'' := by
  induction leads with
  | rest => exact goesOn
  | move allowed ends _ ih => exact .move allowed ends (ih goesOn)

/-- A state that can be reached is at the end of a path from a start. -/
theorem Reachable.exists_path (reachable : Reachable rule s) :
    ∃ (capacity : Nat) (mode : SchedulingMode) (path : List Made),
      capacity ≤ ThreadTable.maxCapacity ∧ Path (System.start capacity mode) path s ∧
        ∀ made ∈ path, rule made.before made.move := by
  induction reachable with
  | @start capacity mode small => exact ⟨capacity, mode, [], small, .rest, List.forall_mem_nil _⟩
  | move _ allowed obeys ends ih =>
    obtain ⟨capacity, mode, path, small, leads, obeyed⟩ := ih
    refine ⟨capacity, mode, _, small, leads.append (.move allowed ends .rest), fun made mem => ?_⟩
    rcases List.mem_append.mp mem with before | last
    · exact obeyed made before
    · rw [List.mem_singleton.mp last]
      exact obeys

/-- A path that obeys a rule leads to what the rule allows to reach. -/
theorem Path.reachable (leads : Path s path s') (before : Reachable rule s)
    (obeys : ∀ made ∈ path, rule made.before made.move) : Reachable rule s' := by
  induction leads with
  | rest => exact before
  | move allowed ends _ ih =>
    exact ih (.move before allowed (obeys _ List.mem_cons_self) ends)
      fun made later => obeys made (List.mem_cons_of_mem _ later)

/-- A path goes up to any of its moves, and on from there. -/
theorem Path.cut {earlier later : List Made} {made : Made}
    (leads : Path s (earlier ++ made :: later) s') :
    Path s earlier made.before ∧ Path made.after later s' := by
  induction earlier generalizing s with
  | nil =>
    cases leads with
    | move _ _ goesOn => exact ⟨.rest, goesOn⟩
  | cons first others ih =>
    cases leads with
    | move allowed ends goesOn =>
      obtain ⟨before, after⟩ := ih goesOn
      exact ⟨.move allowed ends before, after⟩

/-- Each move of a path is made in a state that can be reached, and ends well. -/
theorem Path.ends_of_mem (leads : Path s path s') (before : Reachable rule s)
    (obeys : ∀ made ∈ path, rule made.before made.move) :
    ∀ made ∈ path, Reachable rule made.before ∧ made.before.Allowed made.move ∧
      ∃ events, perform made.move made.before = ⟨.ok (), made.after, events⟩ := by
  induction leads with
  | rest => exact List.forall_mem_nil _
  | @move s s' s'' move events path allowed ends _ ih =>
    rintro made (_ | ⟨_, later⟩)
    · exact ⟨before, allowed, events, ends⟩
    · exact ih (.move before allowed (obeys _ List.mem_cons_self) ends)
        (fun m mem => obeys m (List.mem_cons_of_mem _ mem)) made later

/-- What holds at the start of a path and after each move holds at its end. -/
theorem Path.of_forall_after {P : System → Prop} (leads : Path s path s') (start : P s)
    (after : ∀ made ∈ path, P made.after) : P s' := by
  induction leads with
  | rest => exact start
  | move _ _ _ ih =>
    exact ih (after _ List.mem_cons_self) fun made later => after made (List.mem_cons_of_mem _ later)

/-- What holds before each move of a path and at its end holds after each move. -/
theorem Path.forall_after {P : System → Prop} (leads : Path s path s')
    (before : ∀ made ∈ path, P made.before) (last : P s') : ∀ made ∈ path, P made.after := by
  induction leads with
  | rest => exact List.forall_mem_nil _
  | move _ _ goesOn ih =>
    have later := ih (fun made mem => before made (List.mem_cons_of_mem _ mem)) last
    rintro made (_ | ⟨_, mem⟩)
    · cases goesOn with
      | rest => exact last
      | move => exact before _ (List.mem_cons_of_mem _ List.mem_cons_self)
    · exact later made mem

/-- A run that was played is a path of just those moves. -/
theorem exists_path_of_play [∀ s move, Decidable (rule s move)] {moves : List Move}
    (played : play rule moves s = some s') :
    ∃ path, Path s path s' ∧ path.map Made.move = moves ∧
      ∀ made ∈ path, rule made.before made.move := by
  induction moves generalizing s with
  | nil =>
    cases played
    exact ⟨[], .rest, rfl, List.forall_mem_nil _⟩
  | cons move moves ih =>
    unfold play at played
    split at played
    · rename_i permitted
      split at played
      · rename_i next _ ends
        obtain ⟨path, leads, same, obeys⟩ := ih played
        refine ⟨_, .move permitted.1 ends leads, congrArg (move :: ·) same, ?_⟩
        rintro made (_ | ⟨_, later⟩)
        · exact permitted.2
        · exact obeys made later
      · exact nomatch played
    · exact nomatch played

/-- A single move that was played. -/
theorem made_of_play [∀ s move, Decidable (rule s move)] {move : Move}
    (played : play rule [move] s = some s') :
    Path s [⟨s, move, s'⟩] s' ∧ rule s move := by
  obtain ⟨path, leads, moves, obeys⟩ := exists_path_of_play played
  cases leads with
  | rest => exact nomatch moves
  | @move _ _ _ _ _ path allowed ends goesOn =>
    obtain ⟨rfl, none⟩ := List.cons.inj moves
    cases List.map_eq_nil_iff.mp none
    cases goesOn
    exact ⟨.move allowed ends .rest, obeys _ List.mem_cons_self⟩

end System

end KernelSync
