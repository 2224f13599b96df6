import Mathlib
import KernelSync.Proofs.WakeUps
import KernelSync.Proofs.Signals
import KernelSync.Proofs.WaitingLines

/-!
In which order threads are woken. The queue of a semaphore and the registrations of a condition
variable are waiting lines, so nobody is left behind who is at a higher priority than the one that
is woken. Among equals it is the one that came first, as long as priorities stay
(`wakes_in_order`, `signals_in_order`). It need not be if they change: then a thread may be ahead
that had the higher priority before.
-/

namespace KernelSync

open Donation

/-! ### Insertion -/

section Inserted

variable {table : ThreadTable} {priority : Priority} {id : ThreadId}

/-- A thread is put in front of the first of lower priority. -/
theorem inserted_split (table : ThreadTable) (priority : Priority) (id : ThreadId)
    (list : List ThreadId) : ∃ front back, list = front ++ back ∧
      inserted table priority id list = front ++ id :: back ∧
        ∀ b, back.head? = some b → rank table b < priority := by
  induction list with
  | nil => exact ⟨[], [], rfl, rfl, nofun⟩
  | cons member rest ih =>
    unfold inserted
    split
    · rename_i lower
      refine ⟨[], member :: rest, rfl, rfl, ?_⟩
      rintro b ⟨⟩
      exact lower
    · obtain ⟨front, back, rfl, placed, lower⟩ := ih
      exact ⟨member :: front, back, rfl, congrArg (member :: ·) placed, lower⟩

/-- To put a thread into a list in order of priority keeps the order. -/
theorem inserted_pairwise {list : List ThreadId}
    (sorted : list.Pairwise fun s t => rank table t ≤ rank table s) :
    (inserted table (rank table id) id list).Pairwise fun s t => rank table t ≤ rank table s := by
  induction list with
  | nil => exact List.pairwise_singleton _ _
  | cons member rest ih =>
    have ⟨first, others⟩ := List.pairwise_cons.mp sorted
    unfold inserted
    split
    · rename_i lower
      refine List.pairwise_cons.mpr ⟨?_, sorted⟩
      rintro other (_ | ⟨_, mem⟩)
      · exact Nat.le_of_lt lower
      · exact Nat.le_trans (first other mem) (Nat.le_of_lt lower)
    · rename_i notLower
      refine List.pairwise_cons.mpr ⟨fun other mem => ?_, ih others⟩
      rcases mem_inserted.mp mem with rfl | mem
      · exact Nat.le_of_not_lt notLower
      · exact first other mem

end Inserted

namespace System

variable {s s' : System} {move : Move} {x : SemaphoreId} {made : Made}
  {path earlier later : List Made}

/-! ### Runs that are played -/

section Played

variable {α : Type} {line : Line α} {a b : α} {level : Priority}

/-- Allows what `exitsIdle` and `steady` allow. -/
def modest : Rule := fun s move => exitsIdle s move ∧ steady s move

instance (s : System) (move : Move) : Decidable (modest s move) :=
  inferInstanceAs (Decidable (_ ∧ _))

/-- Allows what `modest` allows, as long as `a` and `b` stand in line. -/
def whileStanding (line : Line α) (a b : α) : Rule := fun s move =>
  modest s move ∧ a ∈ line.standing s ∧ b ∈ line.standing s

instance [DecidableEq α] (line : Line α) (a b : α) (s : System) (move : Move) :
    Decidable (whileStanding line a b s move) :=
  inferInstanceAs (Decidable (_ ∧ _))

/-- Allows what `modest` allows, as long as all who stand in line are at the level. -/
def whileLevel (line : Line α) (level : Priority) : Rule := fun s move =>
  modest s move ∧ ∀ a ∈ line.standing s, line.level s a = level

instance (line : Line α) (level : Priority) (s : System) (move : Move) :
    Decidable (whileLevel line level s move) :=
  inferInstanceAs (Decidable (_ ∧ _))

/-- A thread makes a call, and so many moves of it. -/
def calls (t : ThreadId) (call : Call) (moves : Nat) : List Move :=
  .call t call :: List.replicate moves (.go t)

/-- Plays `first`, the move `next`, `second` as long as `a` and `b` stand in line, and the move `last`.
Gives who stands in line before and after `next` and `last`, and whether `a` and `b` are at one level
before `last`. -/
def overtaken [DecidableEq α] (line : Line α) (a b : α) (first : List Move) (next : Move)
    (second : List Move) (last : Move) (s : System) : Option (List (List α) × Bool) :=
  (play modest first s).bind fun s₁ => (play modest [next] s₁).bind fun s₂ =>
    (play (whileStanding line a b) second s₂).bind fun s₃ => (play modest [last] s₃).map fun s₄ =>
      ([s₁, s₂, s₃, s₄].map line.standing, decide (line.level s₃ a = line.level s₃ b))

theorem exists_path_of_overtaken [DecidableEq α] {first second : List Move} {next last : Move}
    {one two three four : List α}
    (played : overtaken line a b first next second last s = some ([one, two, three, four], true))
    (follows : a ∈ one ∧ b ∉ one) (stand : a ∈ two ∧ b ∈ two) (stand' : a ∈ three ∧ b ∈ three) :
    ∃ earlier made s', Path s (earlier ++ [made]) s' ∧
      (∀ m ∈ earlier ++ [made], modest m.before m.move) ∧ line.standing made.before = three ∧
      line.standing made.after = four ∧ line.level made.before a = line.level made.before b ∧
      line.Since earlier a b (line.Follows a b) := by
  obtain ⟨s₁, begins, played⟩ := Option.bind_eq_some_iff.mp played
  obtain ⟨s₂, comes, played⟩ := Option.bind_eq_some_iff.mp played
  obtain ⟨s₃, goesOn, played⟩ := Option.bind_eq_some_iff.mp played
  obtain ⟨s₄, ends, facts⟩ := Option.map_eq_some_iff.mp played
  obtain ⟨⟨⟨rfl⟩, ⟨rfl⟩, ⟨rfl⟩, ⟨rfl⟩⟩, same⟩ : (line.standing s₁ = one ∧ line.standing s₂ = two ∧
      line.standing s₃ = three ∧ line.standing s₄ = four) ∧ line.level s₃ a = line.level s₃ b := by
    simpa using facts
  obtain ⟨earlier, leads, -, obeys⟩ := exists_path_of_play begins
  obtain ⟨step, obeys'⟩ := made_of_play comes
  obtain ⟨later, leads', -, standing⟩ := exists_path_of_play goesOn
  obtain ⟨step', obeys''⟩ := made_of_play ends
  have stay := leads'.forall_after (P := fun s => a ∈ line.standing s ∧ b ∈ line.standing s)
    (fun m mem => (standing m mem).2) stand'
  refine ⟨earlier ++ ⟨s₁, next, s₂⟩ :: later, ⟨s₃, last, s₄⟩, s₄,
    (leads.append (step.append leads')).append step', ?_, rfl, rfl, same,
    earlier, _, later, rfl, ⟨follows.1, follows.2⟩, List.forall_mem_cons.mpr ⟨stand, stay⟩⟩
  intro m mem
  simp only [List.mem_append, List.mem_cons, List.not_mem_nil, or_false] at mem
  rcases mem with (old | rfl | new) | rfl
  · exact obeys m old
  · exact obeys'
  · exact (standing m new).1
  · exact obeys''

/-- Plays `first` and the move `last` as long as all who stand in line are at the level. Gives who
stands in line before and after `last`. -/
def levelled (line : Line α) (level : Priority) (first : List Move) (last : Move) (s : System) :
    Option (List (List α)) :=
  (play (whileLevel line level) first s).bind fun s₁ =>
    (play (whileLevel line level) [last] s₁).map fun s₂ => [s₁, s₂].map line.standing

theorem exists_path_of_levelled {first : List Move} {last : Move} {one two : List α}
    (played : levelled line level first last s = some [one, two]) :
    ∃ earlier made s', Path s (earlier ++ [made]) s' ∧
      (∀ m ∈ earlier ++ [made], exitsIdle m.before m.move) ∧ line.standing made.before = one ∧
      line.standing made.after = two ∧ line.Kept earlier ∧
      ∀ a ∈ one, ∀ b ∈ one, ¬ line.level made.before b < line.level made.before a := by
  obtain ⟨s₁, begins, played⟩ := Option.bind_eq_some_iff.mp played
  obtain ⟨s₂, ends, facts⟩ := Option.map_eq_some_iff.mp played
  obtain ⟨⟨rfl⟩, ⟨rfl⟩⟩ : line.standing s₁ = one ∧ line.standing s₂ = two := by simpa using facts
  obtain ⟨earlier, leads, -, obeys⟩ := exists_path_of_play begins
  obtain ⟨step, obeys'⟩ := made_of_play ends
  have level_after := leads.forall_after
    (P := fun s => ∀ a ∈ line.standing s, line.level s a = level) (fun m mem => (obeys m mem).2)
    obeys'.2
  refine ⟨earlier, ⟨s₁, last, s₂⟩, s₂, leads.append step, fun m mem => ?_, rfl, rfl, ?_, ?_⟩
  · rcases List.mem_append.mp mem with old | new
    · exact (obeys m old).1.1
    · rw [List.mem_singleton.mp new]
      exact obeys'.1.1
  · intro m mem a before after
    rw [level_after m mem a after, (obeys m mem).2 a before]
  · intro a mem b mem'
    rw [obeys'.2 a mem, obeys'.2 b mem']
    exact Nat.lt_irrefl _

end Played

/-! ### Queues -/

/-- The threads in the queue of a semaphore, by their effective priorities. -/
def queueLine (x : SemaphoreId) : Line ThreadId where
  standing := fun s => s.kernel.queue x
  level := fun s => rank s.table

/-- The queue of a semaphore is a waiting line. -/
theorem Moved.shifts_queue (moved : Moved s move s') (orderly : Orderly s) :
    (queueLine x).Shifts ⟨s, move, s'⟩ := by
  by_cases go : ∃ t, move = .go t
  · obtain ⟨t, rfl⟩ := go
    cases moved with
    | @went _ head rest kernel progress busy advances =>
      cases treats_of_advances orderly busy advances x with
      | leaves _ queue | takes _ _ queue => exact .stays queue
      | joins _ _ _ _ _ _ placed =>
        obtain ⟨front, back, before, after, lower⟩ :=
          inserted_split kernel.table (rank kernel.table t) t ((s.kernelAt t).queue x)
        exact .joins before (placed.trans after) lower
      | raises _ _ nobody queue => exact .stays (queue.trans nobody.symm)
      | wakes _ _ _ _ sorted => exact .leaves sorted
  · exact .stays (moved.still (fun t is => go ⟨t, is⟩) x).1

/-- Where priorities stay, a queue stays in the order of them. -/
theorem Moved.sorted_queue (moved : Moved s move s') (orderly : Orderly s)
    (kept : (queueLine x).Kept [⟨s, move, s'⟩]) (sorted : (queueLine x).Sorted s) :
    (queueLine x).Sorted s' := by
  have stay : ∀ t ∈ s.kernel.queue x, t ∈ s'.kernel.queue x →
      rank s'.table t = rank s.table t := kept _ (List.mem_singleton.mpr rfl)
  have still : s'.kernel.queue x = s.kernel.queue x → (queueLine x).Sorted s' := by
    intro same
    unfold Line.Sorted
    show List.Pairwise _ (s'.kernel.queue x)
    rw [same]
    exact Line.sorted_of_kept sorted fun t mem => stay t mem (same ▸ mem)
  by_cases go : ∃ t, move = .go t
  · obtain ⟨t, rfl⟩ := go
    cases moved with
    | @went _ head rest kernel progress busy advances =>
      cases treats_of_advances orderly busy advances x with
      | leaves _ queue | takes _ _ queue => exact still queue
      | joins _ _ _ queue _ _ placed =>
        have before : (s.kernel.queue x).Pairwise fun t u =>
            rank kernel.table u ≤ rank kernel.table t :=
          Line.sorted_of_kept sorted fun u mem =>
            stay u mem (queue.mem_iff.mpr (List.mem_cons_of_mem t mem))
        unfold Line.Sorted
        show List.Pairwise _ (kernel.queue x)
        rw [placed]
        exact inserted_pairwise before
      | raises _ _ nobody queue => exact still (queue.trans nobody.symm)
      | @wakes woken _ _ queue _ order =>
        have whole := sortedByRank_pairwise s.table ((s.kernelAt t).queue x)
        have same : sortedByRank s.table ((s.kernelAt t).queue x) = woken :: kernel.queue x := order
        rw [same] at whole
        have behind : (kernel.queue x).Pairwise fun t u =>
            (queueLine x).level s u ≤ (queueLine x).level s t := (List.pairwise_cons.mp whole).2
        exact Line.sorted_of_kept behind fun u mem =>
          stay u (queue.mem_iff.mp (List.mem_cons_of_mem woken mem)) mem
  · exact still (moved.still (fun t is => go ⟨t, is⟩) x).1

theorem sorted_queue_of_path (reachable : Reachable anyMove s) (leads : Path s path s')
    (kept : (queueLine x).Kept path) (sorted : (queueLine x).Sorted s) :
    (queueLine x).Sorted s' := by
  induction leads with
  | rest => exact sorted
  | move allowed ends _ ih =>
    have now : (queueLine x).Kept [⟨_, _, _⟩] := fun made mem =>
      kept made (List.mem_singleton.mp mem ▸ List.mem_cons_self)
    exact ih (.move reachable allowed trivial ends)
      (fun made later => kept made (List.mem_cons_of_mem _ later))
      ((reachable.moved allowed ends).sorted_queue reachable.orderly now sorted)

/-- On a run on which threads leave between calls alone, a queue is a line in which each stands
once. -/
theorem queueLine_of_path (reachable : Reachable exitsIdle s) (leads : Path s path s')
    (obeys : ∀ m ∈ path, exitsIdle m.before m.move) : ∀ made ∈ path,
      (queueLine x).Shifts made ∧ (made.before.kernel.queue x).Nodup ∧
        (made.after.kernel.queue x).Nodup := by
  rintro ⟨before, move, after⟩ mem
  obtain ⟨reached, allowed, events, ends⟩ := leads.ends_of_mem reachable obeys _ mem
  have next : Reachable exitsIdle after := .move reached allowed (obeys _ mem) ends
  exact ⟨(reached.moved allowed ends).shifts_queue reached.orderly, reached.attended.nodup x,
    next.attended.nodup x⟩

/-- A wake-up takes one thread out of the queue, and no thread in the queue is at a higher effective
priority at that moment. Of those at the same priority there is a reason why they were behind: they
came later; or the thread that is woken was put in front of them as it came, since somebody no
further back than they were was at a lower priority than it; or it moved up past them at another
wake-up, when they were at a lower priority themselves. If priorities of queued threads stay, they
came later. -/
theorem wakes_in_order {capacity : Nat} {mode : SchedulingMode} {w : ThreadId}
    (small : capacity ≤ ThreadTable.maxCapacity)
    (leads : Path (start capacity mode) (earlier ++ made :: later) s)
    (obeys : ∀ m ∈ earlier ++ made :: later, exitsIdle m.before m.move)
    (queued : w ∈ made.before.kernel.queue x) (woken : w ∉ made.after.kernel.queue x) :
    made.Wakes x w ∧
    ∀ v ∈ made.before.kernel.queue x, v ≠ w → v ∈ made.after.kernel.queue x ∧
      (rank made.before.table v < rank made.before.table w ∨
        rank made.before.table v = rank made.before.table w ∧
          (queueLine x).Since earlier w v ((queueLine x).Precedes w v) ∧
          ((queueLine x).Kept earlier →
            (queueLine x).Since earlier w v ((queueLine x).Follows w v))) := by
  have started : Reachable exitsIdle (start capacity mode) := .start small
  obtain ⟨leads', reached, allowed, moved, after, -⟩ := leads.split started obeys
  have obeyed : ∀ m ∈ earlier, exitsIdle m.before m.move := fun m mem => obeys m (by simp [mem])
  have line := queueLine_of_path (x := x) started leads' obeyed
  have nobody : (queueLine x).Explained [] (start capacity mode) := fun _ _ ahead => nomatch ahead
  have explained : (queueLine x).Explained earlier made.before :=
    Line.explained_of_path leads' nobody (fun m mem => (line m mem).1) fun m mem => (line m mem).2
  have first := Line.leaves_first explained (moved.shifts_queue reached.orderly)
    (reached.attended.nodup x) queued woken
  refine ⟨moved.wakes reached.orderly (List.mem_diff_of_mem queued woken), fun v mem apart => ?_⟩
  obtain ⟨stays, lower | ⟨same, since⟩⟩ := first v mem apart
  · exact ⟨stays, Or.inl lower⟩
  · refine ⟨stays, Or.inr ⟨same, since, fun kept => ?_⟩⟩
    refine Line.follows_of_kept leads' kept since same fun m mem' cuts => ?_
    obtain ⟨front, back, rfl⟩ := List.append_of_mem mem'
    have sorted : (queueLine x).Sorted m.before :=
      sorted_queue_of_path started.any leads'.cut.1 (fun k here => kept k (by simp [here])) .nil
    exact cuts.higher (line m mem').1 sorted fun k here => kept k (by simp_all)

/-- Two threads of one priority queue for a semaphore, and a third is about to add a permit. -/
def twoQueue : List Move :=
  [.newSemaphore 0, .spawn "first" ⟨5, by decide⟩, .spawn "second" ⟨5, by decide⟩,
    .spawn "waker" ⟨5, by decide⟩] ++
    calls ⟨0, 0⟩ (.down ⟨0⟩) 2 ++ calls ⟨1, 0⟩ (.down ⟨0⟩) 2 ++ calls ⟨2, 0⟩ (.up ⟨0⟩) 1

theorem twoQueue_levelled : levelled (queueLine ⟨0⟩) ⟨5, by decide⟩ twoQueue (.go ⟨2, 0⟩)
    (start 3 .priorityDonation) = some [[⟨0, 0⟩, ⟨1, 0⟩], [⟨1, 0⟩]] := by
  cbv

/-- The one that came first is woken. -/
theorem first_to_queue_is_woken : ∃ earlier made s,
    Path (start 3 .priorityDonation) (earlier ++ [made]) s ∧ made.Wakes ⟨0⟩ ⟨0, 0⟩ ∧
      (queueLine ⟨0⟩).Since earlier ⟨0, 0⟩ ⟨1, 0⟩ ((queueLine ⟨0⟩).Follows ⟨0, 0⟩ ⟨1, 0⟩) := by
  obtain ⟨earlier, made, s, leads, obeys, before, after, kept, equal⟩ :=
    exists_path_of_levelled twoQueue_levelled
  have before : made.before.kernel.queue ⟨0⟩ = [⟨0, 0⟩, ⟨1, 0⟩] := before
  have after : made.after.kernel.queue ⟨0⟩ = [⟨1, 0⟩] := after
  obtain ⟨wakes, order⟩ := wakes_in_order (w := ⟨0, 0⟩) (by decide) leads obeys
    (by rw [before]; decide) (by rw [after]; decide)
  obtain ⟨-, lower | ⟨-, -, equals⟩⟩ := order ⟨1, 0⟩ (by rw [before]; decide) (by decide)
  · exact absurd lower (equal ⟨0, 0⟩ (by decide) ⟨1, 0⟩ (by decide))
  · exact ⟨earlier, made, s, leads, wakes, equals kept⟩

/-! A run in which a later one is woken, though at the same priority: the first has the lock that a
third comes to wait for, and gets the priority of the second when both are queued. -/

/-- The first thread has the lock and queues for the semaphore; the second is about to. -/
def firstQueues : List Move :=
  [.newSemaphore 0, .newLock, .spawn "first" ⟨5, by decide⟩, .spawn "second" ⟨9, by decide⟩,
    .spawn "donor" ⟨9, by decide⟩, .spawn "waker" ⟨1, by decide⟩] ++
    calls ⟨0, 0⟩ (.acquire ⟨⟨1⟩, ⟨1⟩⟩) 3 ++ calls ⟨0, 0⟩ (.down ⟨0⟩) 2 ++
    calls ⟨1, 0⟩ (.down ⟨0⟩) 1

/-- A third comes to wait for the lock, and a fourth is about to add a permit. -/
def firstIsRaised : List Move :=
  calls ⟨2, 0⟩ (.acquire ⟨⟨1⟩, ⟨1⟩⟩) 2 ++ calls ⟨3, 0⟩ (.up ⟨0⟩) 1

theorem firstQueues_overtaken : overtaken (queueLine ⟨0⟩) ⟨0, 0⟩ ⟨1, 0⟩ firstQueues (.go ⟨1, 0⟩)
    firstIsRaised (.go ⟨3, 0⟩) (start 4 .priorityDonation) =
      some ([[⟨0, 0⟩], [⟨1, 0⟩, ⟨0, 0⟩], [⟨1, 0⟩, ⟨0, 0⟩], [⟨0, 0⟩]], true) := by
  cbv

/-- That the thread which is woken has come before the others at its priority is not true of every
run that `modest` allows: donation is enough to break it. -/
theorem arrival_order_is_lost : ¬ ∀ (capacity : Nat) (mode : SchedulingMode) (x : SemaphoreId)
    (earlier : List Made) (made : Made) (later : List Made) (s : System) (w v : ThreadId),
    capacity ≤ ThreadTable.maxCapacity →
    Path (start capacity mode) (earlier ++ made :: later) s →
    (∀ m ∈ earlier ++ made :: later, modest m.before m.move) →
    w ∈ made.before.kernel.queue x → w ∉ made.after.kernel.queue x →
    v ∈ made.before.kernel.queue x → v ≠ w →
    rank made.before.table v = rank made.before.table w →
    (queueLine x).Since earlier w v ((queueLine x).Follows w v) := by
  intro inOrder
  obtain ⟨earlier, made, s, leads, obeys, before, after, same, since⟩ :=
    exists_path_of_overtaken firstQueues_overtaken (by decide) (by decide) (by decide)
  have before : made.before.kernel.queue ⟨0⟩ = [⟨1, 0⟩, ⟨0, 0⟩] := before
  have after : made.after.kernel.queue ⟨0⟩ = [⟨0, 0⟩] := after
  exact since.asymm leads.cut.1 (inOrder 4 .priorityDonation ⟨0⟩ earlier made [] s ⟨1, 0⟩ ⟨0, 0⟩
    (by decide) leads obeys (by rw [before]; decide) (by rw [after]; decide)
    (by rw [before]; decide) (by decide) same)

/-! ### Registrations -/

/-- The registrations on a condition variable, by the effective priorities of their threads. -/
def waitersLine (c : CondvarId) : Line Waiter where
  standing := fun s => s.kernel.waiters c
  level := fun s w => rank s.table w.thread

/-- Nobody is registered twice for one wait. -/
theorem Reachable.waiters_nodup (reachable : Reachable exitsIdle s) (c : CondvarId) :
    (s.kernel.waiters c).Nodup := by
  refine List.nodup_iff_count_le_one.mpr fun w => ?_
  by_cases mem : w ∈ s.kernel.waiters c
  · have listed : s.kernel.listed w.semaphore c = [w] :=
      ((reachable.standing mem).listed c).trans (if_pos ⟨rfl, rfl⟩)
    have same : (s.kernel.listed w.semaphore c).count w = (s.kernel.waiters c).count w :=
      List.count_filter (decide_eq_true rfl)
    rw [← same, listed]
    exact Nat.le_of_eq List.count_singleton_self
  · rw [List.count_eq_zero_of_not_mem mem]
    exact Nat.zero_le 1

/-- A move leaves the registrations, puts one behind all others, or takes out the first after it has
sorted them. -/
theorem Moved.waiters_cases (moved : Moved s move s') (c : CondvarId) :
    s'.kernel.waiters c = s.kernel.waiters c ∨
      (∃ w, s'.kernel.waiters c = s.kernel.waiters c ++ [w]) ∨
      ∃ w, Condvar.sortedByRank s.table (s.kernel.waiters c) = w :: s'.kernel.waiters c := by
  cases moved with
  | newCondvar => exact Or.inl waiters_withCondvar
  | newSemaphore | newLock | spawned | full | removed | rebased | reranked | interrupt | called =>
    exact Or.inl rfl
  | answered answers =>
    cases answers with
    | takes | refuses | acquires | denies | looks => exact Or.inl rfl
  | @went t head rest kernel progress busy advances =>
    cases advances.lists with
    | leaves same => exact Or.inl (same c)
    | @enlists d lock _ added =>
      subst added
      refine (Kernel.waiters_setWaiters_cases (k := (s.kernelAt t).addSemaphore 0)).imp id ?_
      rintro ⟨rfl, joined⟩
      exact Or.inl ⟨_, joined⟩
    | @delists d first delists =>
      by_cases here : c = d
      · subst here
        exact Or.inr (Or.inr ⟨first, delists.sorted⟩)
      · exact Or.inl (delists.others c here)

/-- The registrations on a condition variable are a waiting line. -/
theorem Moved.shifts_waiters (moved : Moved s move s') (c : CondvarId) :
    (waitersLine c).Shifts ⟨s, move, s'⟩ := by
  rcases moved.waiters_cases c with same | ⟨w, joined⟩ | ⟨w, sorted⟩
  · exact .stays same
  · exact .joins (List.append_nil _).symm joined nofun
  · exact .leaves sorted

/-- Nobody comes to it but at the end. -/
theorem Moved.not_cutsIn (moved : Moved s move s') {c : CondvarId} {v w : Waiter} :
    ¬ (waitersLine c).CutsIn v w ⟨s, move, s'⟩ := by
  rintro ⟨comes, ahead, lower⟩
  have mem : v ∈ s'.kernel.waiters c := ahead.subset (by simp)
  have comes : v ∉ s.kernel.waiters c := comes
  rcases moved.waiters_cases c with same | ⟨u, joined⟩ | ⟨u, sorted⟩
  · exact comes (same ▸ mem)
  · have ahead : [v, w].Sublist (s'.kernel.waiters c) := ahead
    rw [joined] at ahead
    rcases ahead_of_inserted ahead with old | ⟨front, -⟩ | ⟨-, behind⟩
    · exact comes (List.append_nil (s.kernel.waiters c) ▸ old.subset (by simp))
    · exact comes front
    · exact nomatch behind
  · have perm := Condvar.sortedByRank_perm s.table (s.kernel.waiters c)
    rw [sorted] at perm
    exact comes (perm.mem_iff.mp (List.mem_cons_of_mem u mem))

/-- Only a signal takes a registration out. -/
theorem Moved.signals_of_removed (moved : Moved s move s') (orderly : Orderly s)
    (begins : WaitsBegin s) {c : CondvarId} {w : Waiter} (listed : w ∈ s.kernel.waiters c)
    (removed : w ∉ s'.kernel.waiters c) : Made.Signals c w ⟨s, move, s'⟩ := by
  rcases moved.waiters orderly begins with ⟨d, l, v, registers⟩ | ⟨d, v, signals⟩ | same
  · by_cases here : c = d
    · subst here
      exact absurd (registers.added ▸ List.mem_append_left _ listed) removed
    · exact absurd (registers.others c here ▸ listed) removed
  · by_cases here : c = d
    · subst here
      obtain rfl := (List.mem_cons.mp (signals.removed.mem_iff.mpr listed)).resolve_right removed
      exact signals
    · exact absurd (signals.others c here ▸ listed) removed
  · exact absurd (same c ▸ listed) removed

/-- A registration goes with a signal, and no thread that is registered is at a higher effective
priority at that moment. Of those at the same priority there is a reason why they were behind: they
registered later, or the one that is signaled moved up past them at another signal, when they were at
a lower priority. If priorities of registered threads stay, they registered later. -/
theorem signals_in_order {capacity : Nat} {mode : SchedulingMode} {c : CondvarId} {w : Waiter}
    (small : capacity ≤ ThreadTable.maxCapacity)
    (leads : Path (start capacity mode) (earlier ++ made :: later) s)
    (obeys : ∀ m ∈ earlier ++ made :: later, exitsIdle m.before m.move)
    (listed : w ∈ made.before.kernel.waiters c) (removed : w ∉ made.after.kernel.waiters c) :
    made.Signals c w ∧
    ∀ v ∈ made.before.kernel.waiters c, v ≠ w → v ∈ made.after.kernel.waiters c ∧
      (rank made.before.table v.thread < rank made.before.table w.thread ∨
        rank made.before.table v.thread = rank made.before.table w.thread ∧
          (waitersLine c).Since earlier w v (fun m =>
            (waitersLine c).Follows w v m ∨ (waitersLine c).MovesUp w v m) ∧
          ((waitersLine c).Kept earlier →
            (waitersLine c).Since earlier w v ((waitersLine c).Follows w v))) := by
  have started : Reachable exitsIdle (start capacity mode) := .start small
  obtain ⟨leads', reached, allowed, moved, after, -⟩ := leads.split started obeys
  have moves : ∀ m ∈ earlier, Moved m.before m.move m.after ∧ Reachable exitsIdle m.before ∧
      Reachable exitsIdle m.after := by
    intro m mem
    have obeyed := obeys m (by simp [mem])
    obtain ⟨reached, allowed, events, ends⟩ :=
      leads'.ends_of_mem started (fun m mem => obeys m (by simp [mem])) m mem
    exact ⟨reached.moved allowed ends, reached, .move reached allowed obeyed ends⟩
  have nobody : (waitersLine c).Explained [] (start capacity mode) := fun _ _ ahead => nomatch ahead
  have explained : (waitersLine c).Explained earlier made.before :=
    Line.explained_of_path leads' nobody (fun m mem => (moves m mem).1.shifts_waiters c)
      fun m mem => ⟨(moves m mem).2.1.waiters_nodup c, (moves m mem).2.2.waiters_nodup c⟩
  refine ⟨moved.signals_of_removed reached.orderly reached.waitsBegin listed removed, ?_⟩
  intro v mem apart
  obtain ⟨stays, lower | ⟨same, since⟩⟩ :=
    Line.leaves_first explained (moved.shifts_waiters c) (reached.waiters_nodup c) listed removed
      v mem apart
  · exact ⟨stays, Or.inl lower⟩
  refine ⟨stays, Or.inr ⟨same, since.imp fun m here reason => ?_, fun kept => ?_⟩⟩
  · exact reason.imp id fun late => late.resolve_left (moves m here).1.not_cutsIn
  · exact Line.follows_of_kept leads' kept since same fun m here cuts =>
      absurd cuts (moves m here).1.not_cutsIn

/-- Two threads of one priority wait on a condition variable, and a third is about to signal. -/
def twoRegister : List Move :=
  [.newLock, .newCondvar, .spawn "first" ⟨5, by decide⟩, .spawn "second" ⟨5, by decide⟩,
    .spawn "signaler" ⟨5, by decide⟩] ++
    calls ⟨0, 0⟩ (.acquire ⟨⟨1⟩, ⟨0⟩⟩) 3 ++ calls ⟨0, 0⟩ (.wait ⟨0⟩ ⟨⟨1⟩, ⟨0⟩⟩) 8 ++
    calls ⟨1, 0⟩ (.acquire ⟨⟨1⟩, ⟨0⟩⟩) 3 ++ calls ⟨1, 0⟩ (.wait ⟨0⟩ ⟨⟨1⟩, ⟨0⟩⟩) 8 ++
    calls ⟨2, 0⟩ (.acquire ⟨⟨1⟩, ⟨0⟩⟩) 3 ++ calls ⟨2, 0⟩ (.signal ⟨0⟩ ⟨⟨1⟩, ⟨0⟩⟩) 2

theorem twoRegister_levelled : levelled (waitersLine ⟨0⟩) ⟨5, by decide⟩ twoRegister (.go ⟨2, 0⟩)
    (start 3 .priorityDonation) =
      some [[⟨⟨0, 0⟩, ⟨1⟩⟩, ⟨⟨1, 0⟩, ⟨2⟩⟩], [⟨⟨1, 0⟩, ⟨2⟩⟩]] := by
  cbv

/-- The one that registered first is signaled. -/
theorem first_to_register_is_signaled : ∃ earlier made s,
    Path (start 3 .priorityDonation) (earlier ++ [made]) s ∧ made.Signals ⟨0⟩ ⟨⟨0, 0⟩, ⟨1⟩⟩ ∧
      (waitersLine ⟨0⟩).Since earlier ⟨⟨0, 0⟩, ⟨1⟩⟩ ⟨⟨1, 0⟩, ⟨2⟩⟩
        ((waitersLine ⟨0⟩).Follows ⟨⟨0, 0⟩, ⟨1⟩⟩ ⟨⟨1, 0⟩, ⟨2⟩⟩) := by
  obtain ⟨earlier, made, s, leads, obeys, before, after, kept, equal⟩ :=
    exists_path_of_levelled twoRegister_levelled
  have before : made.before.kernel.waiters ⟨0⟩ = [⟨⟨0, 0⟩, ⟨1⟩⟩, ⟨⟨1, 0⟩, ⟨2⟩⟩] := before
  have after : made.after.kernel.waiters ⟨0⟩ = [⟨⟨1, 0⟩, ⟨2⟩⟩] := after
  obtain ⟨signals, order⟩ := signals_in_order (w := ⟨⟨0, 0⟩, ⟨1⟩⟩) (by decide) leads obeys
    (by rw [before]; decide) (by rw [after]; decide)
  obtain ⟨-, lower | ⟨-, -, equals⟩⟩ :=
    order ⟨⟨1, 0⟩, ⟨2⟩⟩ (by rw [before]; decide) (by decide)
  · exact absurd lower (equal ⟨⟨0, 0⟩, ⟨1⟩⟩ (by decide) ⟨⟨1, 0⟩, ⟨2⟩⟩ (by decide))
  · exact ⟨earlier, made, s, leads, signals, equals kept⟩

/-! A run in which a later one is signaled, though at the same priority: it has moved up past the
first when another was signaled, and then the first gets its priority from a thread that waits for
the lock it has. -/

/-- The first thread has a second lock and is registered, and so is the second. The third is about
to register. -/
def firstRegisters : List Move :=
  [.newLock, .newLock, .newCondvar, .spawn "first" ⟨5, by decide⟩,
    .spawn "second" ⟨9, by decide⟩, .spawn "third" ⟨7, by decide⟩,
    .spawn "donor" ⟨7, by decide⟩, .spawn "signaler" ⟨1, by decide⟩] ++
    calls ⟨0, 0⟩ (.acquire ⟨⟨2⟩, ⟨1⟩⟩) 3 ++ calls ⟨0, 0⟩ (.acquire ⟨⟨1⟩, ⟨0⟩⟩) 3 ++
    calls ⟨0, 0⟩ (.wait ⟨0⟩ ⟨⟨1⟩, ⟨0⟩⟩) 8 ++
    calls ⟨1, 0⟩ (.acquire ⟨⟨1⟩, ⟨0⟩⟩) 3 ++ calls ⟨1, 0⟩ (.wait ⟨0⟩ ⟨⟨1⟩, ⟨0⟩⟩) 8 ++
    calls ⟨2, 0⟩ (.acquire ⟨⟨1⟩, ⟨0⟩⟩) 3 ++ calls ⟨2, 0⟩ (.wait ⟨0⟩ ⟨⟨1⟩, ⟨0⟩⟩) 0

/-- The third goes on to its permit. A fourth signals the second and comes to wait for the other
lock, and a fifth is about to signal. -/
def firstIsRaisedLate : List Move :=
  List.replicate 7 (.go ⟨2, 0⟩) ++
    calls ⟨3, 0⟩ (.acquire ⟨⟨1⟩, ⟨0⟩⟩) 3 ++ calls ⟨3, 0⟩ (.signal ⟨0⟩ ⟨⟨1⟩, ⟨0⟩⟩) 6 ++
    calls ⟨3, 0⟩ (.release ⟨⟨1⟩, ⟨0⟩⟩) 5 ++ calls ⟨3, 0⟩ (.acquire ⟨⟨2⟩, ⟨1⟩⟩) 2 ++
    calls ⟨4, 0⟩ (.acquire ⟨⟨1⟩, ⟨0⟩⟩) 3 ++ calls ⟨4, 0⟩ (.signal ⟨0⟩ ⟨⟨1⟩, ⟨0⟩⟩) 2

theorem firstRegisters_overtaken : overtaken (waitersLine ⟨0⟩) ⟨⟨0, 0⟩, ⟨2⟩⟩ ⟨⟨2, 0⟩, ⟨4⟩⟩
    firstRegisters (.go ⟨2, 0⟩) firstIsRaisedLate (.go ⟨4, 0⟩) (start 5 .priorityDonation) =
      some ([[⟨⟨0, 0⟩, ⟨2⟩⟩, ⟨⟨1, 0⟩, ⟨3⟩⟩],
        [⟨⟨0, 0⟩, ⟨2⟩⟩, ⟨⟨1, 0⟩, ⟨3⟩⟩, ⟨⟨2, 0⟩, ⟨4⟩⟩],
        [⟨⟨2, 0⟩, ⟨4⟩⟩, ⟨⟨0, 0⟩, ⟨2⟩⟩], [⟨⟨0, 0⟩, ⟨2⟩⟩]], true) := by
  cbv

/-- That the thread which is signaled has registered before the others at its priority is not true of
every run that `modest` allows. -/
theorem registration_order_is_lost : ¬ ∀ (capacity : Nat) (mode : SchedulingMode) (c : CondvarId)
    (earlier : List Made) (made : Made) (later : List Made) (s : System) (w v : Waiter),
    capacity ≤ ThreadTable.maxCapacity →
    Path (start capacity mode) (earlier ++ made :: later) s →
    (∀ m ∈ earlier ++ made :: later, modest m.before m.move) →
    w ∈ made.before.kernel.waiters c → w ∉ made.after.kernel.waiters c →
    v ∈ made.before.kernel.waiters c → v ≠ w →
    rank made.before.table v.thread = rank made.before.table w.thread →
    (waitersLine c).Since earlier w v ((waitersLine c).Follows w v) := by
  intro inOrder
  obtain ⟨earlier, made, s, leads, obeys, before, after, same, since⟩ :=
    exists_path_of_overtaken firstRegisters_overtaken (by decide) (by decide) (by decide)
  have before : made.before.kernel.waiters ⟨0⟩ = [⟨⟨2, 0⟩, ⟨4⟩⟩, ⟨⟨0, 0⟩, ⟨2⟩⟩] := before
  have after : made.after.kernel.waiters ⟨0⟩ = [⟨⟨0, 0⟩, ⟨2⟩⟩] := after
  exact since.asymm leads.cut.1 (inOrder 5 .priorityDonation ⟨0⟩ earlier made [] s
    ⟨⟨2, 0⟩, ⟨4⟩⟩ ⟨⟨0, 0⟩, ⟨2⟩⟩ (by decide) leads obeys (by rw [before]; decide)
    (by rw [after]; decide) (by rw [before]; decide) (by decide) same)

end System

end KernelSync
