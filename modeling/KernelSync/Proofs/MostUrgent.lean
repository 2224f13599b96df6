import Mathlib
import KernelSync.Proofs.Advance

/-!
Who is woken. The waiters of a semaphore stand in an order that was right when they came; donation
may have changed their priorities since. To add a permit sorts them by the priorities they have now
and takes the first. `Picks` says what such a choice comes to, whatever is sorted, and
`up_wakes_most_urgent` says it of the permits.
-/

namespace KernelSync

/-! ### Choices -/

/-- Of those on a list, `first` is chosen and `rest` are left, in order of level. -/
structure Picks {α : Type} [DecidableEq α] (level : α → Priority) (list : List α) (first : α)
    (rest : List α) : Prop where
  mem : first ∈ list
  /-- Nobody is at a higher level than the one that is chosen. -/
  greatest : ∀ a ∈ list, level a ≤ level first
  /-- Nobody else is lost, and nobody is added. -/
  perm : rest.Perm (list.erase first)
  ordered : rest.Pairwise fun a b => level b ≤ level a
  /-- Those of one level stay in the order in which they were. -/
  stable : ∀ p, (rest.filter fun a => level a = p) = (list.erase first).filter fun a => level a = p

section Choices

variable {α : Type} {level : α → Priority} {list rest : List α} {first : α}

/-- To take the first of a sorted list is to pick. -/
theorem picks_of_sort [DecidableEq α]
    (sorted : (list.mergeSort fun a b => decide (level b ≤ level a)) = first :: rest) :
    Picks level list first rest := by
  have perm := List.mergeSort_perm list fun a b => decide (level b ≤ level a)
  have ordered := Priority.pairwise_sort level list
  rw [sorted] at perm ordered
  obtain ⟨below, ordered⟩ := List.pairwise_cons.mp ordered
  refine ⟨perm.subset List.mem_cons_self, fun a mem => ?_, ?_, ordered, fun p => ?_⟩
  · rcases List.mem_cons.mp (perm.mem_iff.mpr mem) with rfl | other
    · exact Nat.le_refl _
    · exact below a other
  · have taken := perm.erase first
    rwa [List.erase_cons_head] at taken
  · have same : ((first :: rest).filter fun a => level a = p) = list.filter fun a => level a = p := by
      rw [← sorted]
      exact Priority.filter_sort level p list
    calc rest.filter (fun a => level a = p)
        = ((first :: rest).erase first).filter fun a => level a = p := by
          rw [List.erase_cons_head]
      _ = ((first :: rest).filter fun a => level a = p).erase first := List.erase_filter.symm
      _ = (list.filter fun a => level a = p).erase first := by rw [same]
      _ = (list.erase first).filter fun a => level a = p := List.erase_filter

end Choices

/-! ### Permits -/

open Stretch Kernel

variable {me : ThreadId} {k : Kernel} {s : SemaphoreId}

/-- Whom a permit added to a semaphore wakes, and who is left waiting: nobody waits, or the most
urgent of the waiters is woken. -/
inductive Frees (k : Kernel) (s : SemaphoreId) : Option ThreadId → List ThreadId → Prop where
  | nobody (empty : (k.semaphore s).waiters = []) : Frees k s none []
  | somebody {woken : ThreadId} {rest : List ThreadId}
      (picks : Picks (Donation.rank k.table) (k.semaphore s).waiters woken rest) :
      Frees k s (some woken) rest

/-- What is reported when a thread is unblocked, if one is. -/
def wakeEvents : Option ThreadId → List Event
  | some woken => [.log (.upWakes woken), .unblock woken]
  | none => []

/-- What the scheduler is asked to do for a thread that no longer waits, if there is one. -/
def wakeRequest : Option ThreadId → Request
  | some woken => .unblock woken
  | none => .proceed

/-- A permit is added, and whoever it frees is taken from the waiters, at any depth of sections. -/
theorem release_frees (quiet : k.Quiet) (room : (k.semaphore s).count < Semaphore.maxCount)
    (live : ∀ t ∈ (k.semaphore s).waiters, k.table.contains t = true) :
    ∃ woken rest, Frees k s woken rest ∧ ∀ depth,
      Semaphore.release s { k with depth } = ⟨.ok woken, { k.permitAdded s rest with depth }, []⟩ := by
  have runs : ∀ depth, Semaphore.release s { k with depth } =
      ⟨.ok (Donation.sortedByRank k.table (k.semaphore s).waiters).head?,
        { k.permitAdded s (Donation.sortedByRank k.table (k.semaphore s).waiters).tail with depth },
        []⟩ := by
    intro depth
    have roomy : (({ k with depth } : Kernel).semaphore s).count < Semaphore.maxCount := room
    have sorts : Donation.sortByPriority (({ k with depth } : Kernel).semaphore s).waiters
        ({ k with depth } : Kernel).table =
          ⟨.ok (Donation.sortedByRank k.table (k.semaphore s).waiters), k.table, []⟩ :=
      Donation.sortByPriority_run live
    rw [Semaphore.release_run (quiet.withDepth depth), if_pos roomy, sorts]
    cases Donation.sortedByRank k.table (k.semaphore s).waiters with
    | nil => rfl
    | cons => rfl
  cases sorted : Donation.sortedByRank k.table (k.semaphore s).waiters with
  | nil =>
    have perm := Donation.sortedByRank_perm k.table (k.semaphore s).waiters
    rw [sorted] at perm
    refine ⟨none, [], .nobody (List.nil_perm.mp perm), fun depth => ?_⟩
    rw [runs, sorted]
    rfl
  | cons woken rest =>
    refine ⟨some woken, rest, .somebody (picks_of_sort sorted), fun depth => ?_⟩
    rw [runs, sorted]
    rfl

/-- To add a permit, wherever that is done: the thread that it frees is unblocked at once. -/
theorem step_up {woken : Option ThreadId} {rest : List ThreadId} {below : List Frame}
    (releases : Semaphore.release s k = ⟨.ok woken, k.permitAdded s rest, []⟩) :
    ∃ events, Frame.step me (.up s :: below) k =
      ⟨.ok ⟨.check :: below, wakeRequest woken⟩, k.permitAdded s rest, events⟩ := by
  cases woken with
  | none =>
    simp [Frame.step, Frame.advance, Frame.afterRelease, onFault, bind_run, releases, wakeRequest]
  | some woken =>
    simp [Frame.step, Frame.advance, Frame.afterRelease, onFault, bind_run, releases, wakeRequest]

/-- A whole call that adds a permit, under a scheduler that decides nothing. -/
theorem run_up_of_release {woken : Option ThreadId} {rest : List ThreadId}
    (releases : Semaphore.release s { k with depth := k.depth + 1 } =
      ⟨.ok woken, { k with depth := k.depth + 1 }.permitAdded s rest, []⟩) :
    Frame.run me [.call (.up s)] k =
      ⟨.ok [], k.permitAdded s rest,
        .entered k.depth :: (wakeEvents woken ++ [.check, .left (k.depth + 1) k.depth])⟩ := by
  obtain ⟨n, fuel⟩ : ∃ n, k.patience [.call (.up s)] = n + 4 := ⟨4 * k.registrations + 28, rfl⟩
  have asks : Frame.run me [.call (.up s)] k = Frame.drive me (n + 4) [.call (.up s)] k := by
    rw [← fuel]
    rfl
  cases woken with
  | none =>
    simp [asks, Frame.drive, Frame.step, Frame.advance, Frame.begin, Frame.afterRelease, onFault,
      bind_run, enter, leave, releases, wakeEvents, permitAdded, setSemaphore]
    rfl
  | some woken =>
    simp [asks, Frame.drive, Frame.step, Frame.advance, Frame.begin, Frame.afterRelease, onFault,
      bind_run, enter, leave, releases, wakeEvents, permitAdded, setSemaphore]
    rfl

/-- A permit added to a semaphore whose waiters are live, in whatever order and at whatever
priorities they are by now: the count goes up by one, and if anybody waits, the most urgent is
unblocked and the others stay, by priority and else as they were. The check comes after that, and
the thread table and all the rest are left alone. So it is in a call of its own, and so it is inside
other calls, whatever other threads do at the two points at which the scheduler is asked. -/
theorem up_wakes_most_urgent (quiet : k.Quiet) (present : s.index < k.semaphores.length)
    (room : (k.semaphore s).count < Semaphore.maxCount)
    (live : ∀ t ∈ (k.semaphore s).waiters, k.table.contains t = true) :
    ∃ woken rest, Frees k s woken rest ∧
      (k.permitAdded s rest).semaphore s = ⟨(k.semaphore s).count + 1, rest⟩ ∧
      (∀ other, other ≠ s → (k.permitAdded s rest).semaphore other = k.semaphore other) ∧
      (k.permitAdded s rest).threads = k.threads ∧
      Frame.run me [.call (.up s)] k =
        ⟨.ok [], k.permitAdded s rest,
          .entered k.depth :: (wakeEvents woken ++ [.check, .left (k.depth + 1) k.depth])⟩ ∧
      ∀ below,
        (∃ events, Frame.step me (.up s :: below) k =
          ⟨.ok ⟨.check :: below, wakeRequest woken⟩, k.permitAdded s rest, events⟩) ∧
        ∀ k', Frame.step me (.check :: below) k' = ⟨.ok ⟨below, .check⟩, k', []⟩ := by
  obtain ⟨woken, rest, frees, releases⟩ := release_frees quiet room live
  exact ⟨woken, rest, frees, semaphore_setSemaphore_self present,
    fun other apart => semaphore_setSemaphore_of_ne apart, rfl, run_up_of_release (releases _),
    fun below => ⟨step_up (releases k.depth), fun k' => rfl⟩⟩

/-- Four threads, the last three of which queued when the second and the third were less urgent than
the fourth. -/
def raisedInLine : Kernel where
  threads := ⟨((do
    let _ ← ThreadTable.spawn "main" Priority.standard
    let _ ← ThreadTable.spawn "low" Priority.lowest
    let _ ← ThreadTable.spawn "first" Priority.highest
    let _ ← ThreadTable.spawn "second" Priority.highest
    return ()) (ThreadTable.empty 4)).state, false⟩
  semaphores := [⟨⟨0, [⟨1, 0⟩, ⟨2, 0⟩, ⟨3, 0⟩]⟩, false⟩]
  condvars := []
  data := []
  mode := .priorityDonation
  depth := 0
  inInterrupt := false

/-- Of the two that have overtaken the first in priority, the one that stands in front is woken. -/
theorem up_wakes_first_raised :
    ∃ woken rest, Frees raisedInLine ⟨0⟩ woken rest ∧
      Frame.run ⟨0, 0⟩ [.call (.up ⟨0⟩)] raisedInLine =
        ⟨.ok [], raisedInLine.permitAdded ⟨0⟩ rest,
          .entered 0 :: (wakeEvents woken ++ [.check, .left 1 0])⟩ ∧
      woken = some ⟨2, 0⟩ ∧ rest = [⟨3, 0⟩, ⟨1, 0⟩] := by
  have quiet : raisedInLine.Quiet := ⟨by decide, by decide, by decide⟩
  obtain ⟨woken, rest, frees, after, -, -, runs, steps⟩ :=
    @up_wakes_most_urgent ⟨0, 0⟩ raisedInLine ⟨0⟩ quiet (by decide) (by decide) (by decide)
  obtain ⟨⟨events, step⟩, -⟩ := steps []
  have asked : (Frame.step ⟨0, 0⟩ [.up ⟨0⟩] raisedInLine).outcome =
      .ok ⟨[.check], .unblock ⟨2, 0⟩⟩ := by
    cbv
  have left : (Frame.step ⟨0, 0⟩ [.up ⟨0⟩] raisedInLine).state.semaphore ⟨0⟩ =
      ⟨1, [⟨3, 0⟩, ⟨1, 0⟩]⟩ := by
    cbv
  rw [step] at asked left
  refine ⟨woken, rest, frees, runs, ?_, congrArg Semaphore.waiters (after.symm.trans left)⟩
  cases woken with
  | none => cases asked
  | some other =>
    injection asked with asked
    injection asked with _ asked
    injection asked with same
    rw [same]

end KernelSync
