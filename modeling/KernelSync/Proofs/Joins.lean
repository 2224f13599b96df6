import KernelSync.Proofs.Announcements
import KernelSync.Proofs.FoundHandles
import KernelSync.Proofs.Urgency

/-!
Joins. A thread that joins another waits for the permit that the other adds at its end, and goes on
when the other is past it (`Joins.joining`). By then the script of the other is over; but it may
still be in the table, ready to remove itself and not more urgent than the one that has joined it
(`joined_thread_has_returned`).
-/

namespace KernelSync.Simulation

open Stretch hiding pure bind
open Kernel Donation
open KernelSync.System (Reachable)

variable {settings : Settings} {script : List Action} {s s₁ s' : Simulation} {σ : System}
  {how : Option Switch} {u j next : ThreadId} {x : SemaphoreId}

/-! ### The steps of a join -/

/-- The thread is inside an interrupt handler. -/
def inHandler (s : Simulation) (t : ThreadId) : Bool :=
  if t = s.current then s.kernel.inInterrupt else (s.thread t).registers.inInterrupt

/-- Whether a thread is in a handler is kept for it while others run. -/
theorem inHandler_switched {how : Switch} (present : s.Has s.current) :
    (s.switched how next).inHandler j = s.inHandler j := by
  have resumed : (s.switched how next).kernel.inInterrupt =
      ((s.switched how next).thread next).registers.inInterrupt := rfl
  have current : (s.switched how next).current = next := rfl
  have kept : ((s.switched how next).thread j).registers.inInterrupt = s.inHandler j := by
    unfold inHandler
    rw [thread_switched present]
    split <;> rfl
  unfold inHandler at kept ⊢
  rw [current]
  split
  · rename_i here
    rw [resumed, ← here]
    exact kept
  · exact kept

/-- A thread that comes to join another begins to wait for the permit of its end. -/
theorem shifts_of_joins {name : String} {handle : JoinHandle} {actions : List Action}
    {rest : List Pending} {events : List Event} (has : s.Has s.current)
    (idle : s.currentThread.call = [])
    (due : s.currentThread.script = .actions (.join name :: actions) :: rest)
    (found : (s.joinable.find? fun handle => handle.name = name) = some handle)
    (run : untilSwitch s = ⟨.ok how, s₁, events⟩) :
    Shifts s s₁
      { s.currentThread with
        call := [.call (.down handle.exited)]
        script := .over "join" .done :: .actions actions :: rest }
      s.kernel s.queue := by
  obtain ⟨-, mid, _, pushed, same, joins⟩ := performs_of_untilSwitch has idle due nofun run
  exact shifts_of_join has pushed (same ▸ found) joins

/-- How far the join of `u` by `j` has come. -/
inductive Stage (s : Simulation) (j u : ThreadId) (x : SemaphoreId) : List Frame → Prop where
  | asks : Stage s j u x [.call (.down x)]
  | tries {saved : Nat} (outside : s.inHandler j = false) : Stage s j u x [.down x, .leave saved]
  | sleeps {saved : Nat} (outside : s.inHandler j = false) :
      Stage s j u x [.downQueued x, .leave saved]
  | closes {saved : Nat} (past : Past s u) (outside : s.inHandler j = false) :
      Stage s j u x [.leave saved]
  | back (past : Past s u) (outside : s.inHandler j = false) (runs : s.current = j) :
      Stage s j u x []

/-- A thread joins another: it is in the call for that, or at its end. -/
structure Joining (settings : Settings) (s : Simulation) (j u : ThreadId) (x : SemaphoreId) :
    Prop where
  has : s.Has j
  announced : Announced settings s u x
  script : ∃ below, (s.thread j).script = .over "join" .done :: below
  stage : Stage s j u x (s.thread j).call

section Joining

variable (turn : Turn s s₁ how) (mirrors : Mirrors settings none s σ)
  (reachable : Reachable scheduled σ)
include turn mirrors reachable

/-- A permit for the end of a thread is there only if the thread is past it. -/
theorem Announced.past_of_permit (announced : Announced settings s u x)
    (permit : 0 < s.kernel.permits x) : Past s₁ u := by
  cases announced.life with
  | past past => exact past.turned turn mirrors reachable announced.has
  | silent mute unraised | runs script goesOn call unraised live
  | raises script call unraised live => exact absurd unraised (Nat.ne_of_gt permit)

/-- A turn of the thread that joins brings the join further. -/
theorem Stage.turned_self {head : Frame} {below : List Frame}
    (call : s.currentThread.call = head :: below) (announced : Announced settings s u x)
    (stage : Stage s s.current u x (head :: below)) :
    Stage s₁ s.current u x (s₁.thread s.current).call ∧
      (how ≠ none → (s₁.thread s.current).call ≠ []) := by
  obtain ⟨progress, advances, frames, -, -, goesOn⟩ :=
    turn.stretch (mirrors.quiet reachable) call
  have flag : s₁.inHandler s.current = s.inHandler s.current := by
    unfold inHandler
    rw [turn.retains.current, if_pos rfl, if_pos rfl]
    exact advances.inInterrupt
  have runs := turn.retains.current
  have passes := announced.past_of_permit turn mirrors reachable
  rw [frames]
  cases stage with
  | asks =>
    generalize s₁.kernel = kernel at advances
    cases advances with
    | opens opening allowed =>
      cases opening
      have outside : s.inHandler s.current = false := (if_pos rfl).trans (allowed rfl)
      exact ⟨.tries (flag.trans outside), fun _ => List.cons_ne_nil _ _⟩
  | tries outside =>
    generalize s₁.kernel = kernel at advances
    cases advances with
    | takes permit =>
      exact ⟨.closes (passes permit) (flag.trans outside), fun _ => List.cons_ne_nil _ _⟩
    | queues empty => exact ⟨.sleeps (flag.trans outside), fun _ => List.cons_ne_nil _ _⟩
  | sleeps outside =>
    generalize s₁.kernel = kernel at advances
    cases advances with
    | retries => exact ⟨.tries (flag.trans outside), fun _ => List.cons_ne_nil _ _⟩
  | closes past outside =>
    have after := past.turned turn mirrors reachable announced.has
    generalize s₁.kernel = kernel at advances
    cases advances with
    | leaves =>
      exact ⟨.back after (flag.trans outside) runs, fun gives => absurd (goesOn rfl) gives⟩

/-- While others run a join stays where it is. -/
theorem Stage.turned_of_ne {frames : List Frame} (apart : j ≠ s.current) (has : s.Has j)
    (busy : frames ≠ []) (announced : Announced settings s u x) (stage : Stage s j u x frames) :
    Stage s₁ j u x frames := by
  have same := turn.retains.thread_eq apart has
  have flag : s₁.inHandler j = s.inHandler j := by
    unfold inHandler
    rw [turn.retains.current, if_neg apart, if_neg apart, same]
  cases stage with
  | asks => exact .asks
  | tries outside => exact .tries (flag.trans outside)
  | sleeps outside => exact .sleeps (flag.trans outside)
  | closes past outside =>
    exact .closes (past.turned turn mirrors reachable announced.has) (flag.trans outside)
  | back => exact absurd rfl busy

theorem Joining.turned (joining : Joining settings s j u x) (busy : (s.thread j).call ≠ []) :
    Joining settings s₁ j u x ∧ (how ≠ none → (s₁.thread j).call ≠ []) := by
  obtain ⟨has, announced, ⟨below, script⟩, stage⟩ := joining
  have announced' := announced.turned turn mirrors reachable
  obtain ⟨head, rest, call⟩ := List.exists_cons_of_ne_nil busy
  rw [call] at stage
  by_cases here : j = s.current
  · subst here
    obtain ⟨progress, -, -, same, -⟩ := turn.stretch (mirrors.quiet reachable) call
    obtain ⟨after, stays⟩ := stage.turned_self turn mirrors reachable call announced
    exact ⟨⟨turn.retains.has _ has, announced', ⟨below, same.trans script⟩, after⟩, stays⟩
  · have same := turn.retains.thread_eq here has
    have after :=
      stage.turned_of_ne turn mirrors reachable here has (List.cons_ne_nil _ _) announced
    rw [← call, ← same] at after
    exact ⟨⟨turn.retains.has j has, announced', ⟨below, same ▸ script⟩, after⟩,
      fun _ => same ▸ busy⟩

end Joining

/-- A join that is not over stays where it is in a switch. -/
theorem Joining.switched {how : Switch} (joining : Joining settings s j u x)
    (busy : (s.thread j).call ≠ []) (present : s.Has s.current) :
    Joining settings (s.switched how next) j u x := by
  obtain ⟨has, announced, ⟨below, script⟩, stage⟩ := joining
  have flag : (s.switched how next).inHandler j = s.inHandler j := inHandler_switched present
  refine ⟨has_switched.mpr has, announced.switched present,
    ⟨below, (script_switched present).trans script⟩, ?_⟩
  rw [call_switched present]
  generalize (s.thread j).call = frames at stage busy
  cases stage with
  | asks => exact .asks
  | tries outside => exact .tries (flag.trans outside)
  | sleeps outside => exact .sleeps (flag.trans outside)
  | closes past outside => exact .closes (past.switched present) (flag.trans outside)
  | back => exact absurd rfl busy

/-- A step leaves a join that is not over where it is, or brings it further. -/
theorem Joining.step (joining : Joining settings s j u x) (busy : (s.thread j).call ≠ [])
    (mirrored : Mirrored settings none s) (sound : (advance s).outcome = .ok ()) :
    Joining settings (step s).state j u x := by
  have stepped := mirrored.stepped sound
  generalize (Simulation.step s).state = s' at stepped ⊢
  cases stepped with
  | goesOn run =>
    have turn := mirrored.turn_of_run run
    obtain ⟨σ, reachable, mirrors⟩ := mirrored
    exact (joining.turned turn mirrors reachable busy).1
  | switches run foremost =>
    have turn := mirrored.turn_of_run run
    have present := (mirrored.turn turn).has
    obtain ⟨σ, reachable, mirrors⟩ := mirrored
    obtain ⟨after, stays⟩ := joining.turned turn mirrors reachable busy
    exact after.switched (stays nofun) present

/-- The handle with which the running thread is about to join another, if it is. -/
def joinsNow? (s : Simulation) : Option JoinHandle :=
  match s.currentThread.call, s.currentThread.script with
  | [], .actions (.join name :: _) :: _ => s.joinable.find? fun handle => handle.name = name
  | _, _ => none

theorem joinsNow?_eq_some {handle : JoinHandle} (joins : s.joinsNow? = some handle) :
    s.currentThread.call = [] ∧ ∃ name actions rest,
      s.currentThread.script = .actions (.join name :: actions) :: rest ∧
        (s.joinable.find? fun handle => handle.name = name) = some handle := by
  unfold joinsNow? at joins
  split at joins
  · rename_i name actions rest idle due
    exact ⟨idle, name, actions, rest, due, joins⟩
  · cases joins

/-- The simulation runs, and `j` has come to join a thread: the states in which it is in the call
for that, and the one in which the call has returned to it. -/
inductive Joins (settings : Settings) (script : List Action) (handle : JoinHandle) (j : ThreadId) :
    Simulation → Prop where
  | begins {s : Simulation} (before : Reached settings script s) (runs : s.current = j)
      (joins : s.joinsNow? = some handle) (sound : (advance s).outcome = .ok ()) :
      Joins settings script handle j (step s).state
  | waits {s : Simulation} (before : Joins settings script handle j s)
      (busy : (s.thread j).call ≠ []) (sound : (advance s).outcome = .ok ()) :
      Joins settings script handle j (step s).state

section Joins

variable {handle : JoinHandle}

theorem Joins.reached (joins : Joins settings script handle j s) : Reached settings script s := by
  induction joins with
  | begins before runs joins sound => exact before.step sound
  | waits before busy sound ih => exact ih.step sound

/-- From its first step up to its return a join is at one of its stages. -/
theorem Joins.joining (fits : settings.Fits script) (joins : Joins settings script handle j s) :
    Joining settings s j handle.thread handle.exited := by
  induction joins with
  | @begins s before runs joins sound =>
    subst runs
    obtain ⟨idle, name, actions, rest, due, found⟩ := joinsNow?_eq_some joins
    have mirrored := before.mirrored fits
    have called : ∀ {how s₁ events}, untilSwitch s = ⟨.ok how, s₁, events⟩ →
        Joining settings s₁ s.current handle.thread handle.exited ∧
          (s₁.thread s.current).call ≠ [] := by
      intro how s₁ events run
      have turn := mirrored.turn_of_run run
      have shifts := shifts_of_joins mirrored.has idle due found run
      have known := (before.heralded fits).joinable handle (List.mem_of_find?_eq_some found)
      obtain ⟨σ, reachable, mirrors⟩ := mirrored
      have announced := known.turned turn mirrors reachable
      refine ⟨⟨turn.retains.has _ mirrors.present, announced, ?_, ?_⟩, ?_⟩ <;>
        rw [shifts.thread_current]
      · exact ⟨_, rfl⟩
      · exact .asks
      · exact List.cons_ne_nil _ _
    have stepped := mirrored.stepped sound
    generalize (Simulation.step s).state = s' at stepped ⊢
    cases stepped with
    | goesOn run => exact (called run).1
    | switches run foremost =>
      exact (called run).1.switched (called run).2 (mirrored.turn (mirrored.turn_of_run run)).has
  | waits before busy sound ih => exact ih.step busy (before.reached.mirrored fits) sound

end Joins

/-- As many steps as long as `j` is inside a call, unless one of them ends in a fault. -/
def playWithin (j : ThreadId) : Nat → Simulation → Option Simulation
  | 0, s => some s
  | count + 1, s =>
      if (s.thread j).call = [] then none
      else match (advance s).outcome with
        | .ok () => playWithin j count (step s).state
        | .error _ => none

/-- The step with which the running thread begins a join, and as many more within it. -/
def playJoin (handle : JoinHandle) (count : Nat) (s : Simulation) : Option Simulation :=
  if s.joinsNow? = some handle ∧ (advance s).outcome = .ok () then
    (step s).state.playWithin s.current count
  else none

section Played

variable {handle : JoinHandle} {count : Nat}

theorem Joins.playWithin (joins : Joins settings script handle j s)
    (played : s.playWithin j count = some s') : Joins settings script handle j s' := by
  induction count generalizing s with
  | zero =>
    cases played
    exact joins
  | succ count ih =>
    simp only [Simulation.playWithin] at played
    split at played
    · cases played
    · rename_i busy
      split at played
      · rename_i ends
        exact ih (joins.waits busy ends) played
      · cases played

theorem Reached.playJoin (reached : Reached settings script s)
    (played : s.playJoin handle count = some s') : Joins settings script handle s.current s' := by
  unfold Simulation.playJoin at played
  split at played
  · rename_i begins
    exact (Joins.begins reached rfl begins.1 begins.2).playWithin played
  · cases played

end Played

/-! ### Returns -/

/-- Whoever is in no call that may wait is awake. -/
theorem Mirrors.awake_of_clear (mirrors : Mirrors settings none s σ)
    (reachable : Reachable scheduled σ) (clear : ∀ f ∈ (s.thread u).call, f.mayWait = false) :
    (σ.activity u).blocked = false := by
  refine reachable.queued.not_blocked_of_clear fun f mem => ?_
  have follows := mirrors.follows u
  generalize (s.thread u).call = call at clear follows
  generalize (σ.activity u).frames = frames at mem follows
  cases follows with
  | alike alike =>
    have same : Alike frames call := alike.symm
    rcases same.mem mem with mem' | ⟨_, rfl⟩
    · exact clear _ mem'
    · rfl
  | checks | closes => cases mem

theorem Closing.clear {call : List Frame} (closing : Closing call) :
    ∀ f ∈ call, f.mayWait = false := by
  cases closing <;> simp [Frame.mayWait]

/-- The script of the thread is over, but the thread is still in the table. It is ready, and not
more urgent than `j`. -/
structure Leaving (s : Simulation) (u j : ThreadId) : Prop where
  script : ∃ saved, (s.thread u).script = [.remove saved]
  call : Closing (s.thread u).call
  live : s.kernel.table.contains u = true
  ready : u ∈ s.queue.ready
  rank_le : rank s.kernel.table u ≤ rank s.kernel.table j

/-- The thread has left the table. Its handle is not live, it is not among the threads that are
counted, and its slot is free or that of another thread. -/
structure Departed (s : Simulation) (u : ThreadId) : Prop where
  gone : s.kernel.table.contains u = false
  uncounted : u ∉ s.kernel.table.ids
  slot : u.slot ∈ s.kernel.table.free ∨ ∃ v, s.kernel.table.contains v = true ∧ v.slot = u.slot

/-- A thread that is past the permit but still in the table is ready. It does not outrank one that
runs its own code. -/
theorem leaving_of_closing {saved : Nat} (fits : settings.Fits script)
    (reached : Reached settings script s) (own : s.RunsOwnCode) (apart : u ≠ s.current)
    (ends : (s.thread u).script = [.remove saved]) (call : Closing (s.thread u).call)
    (live : s.kernel.table.contains u = true) : s.Leaving u s.current := by
  obtain ⟨σ, reachable, mirrors⟩ := reached.mirrored fits
  have alive : σ.Live u := by
    unfold System.Live
    rw [mirrors.table]
    exact live
  have awake := mirrors.awake_of_clear reachable call.clear
  have ready := mirrors.mem_ready.mpr ⟨apart, alive, awake⟩
  refine ⟨⟨saved, ends⟩, call, live, ready, Nat.le_of_not_lt fun above => ?_⟩
  exact own.not_due ((reached.urgent fits).due ⟨u, ready, above⟩)

theorem departed_of_gone (arena : ThreadTable.Arena s.kernel.table)
    (slot : u.slot.toNat < s.kernel.table.slots.length)
    (gone : s.kernel.table.contains u = false) : s.Departed u := by
  refine ⟨gone, fun mem => ?_, ThreadTable.free_or_live arena slot⟩
  exact nomatch gone.symm.trans ((ThreadTable.mem_ids_iff arena).mp mem)

/-- When the join of a thread returns, on a run on which no step has ended in a fault, caught or not,
the script of that thread is over. The thread has left the table, unless its handle has been issued
again; or it is about to leave it, and not more urgent than the one that has joined it. -/
theorem joined_thread_has_returned {handle : JoinHandle} (fits : settings.Fits script)
    (joins : Joins settings script handle j s) (returned : (s.thread j).call = []) :
    s.current = j ∧ s.kernel.table.live = s.kernel.table.ids.length ∧
      (s.Leaving handle.thread j ∨
        (s.thread handle.thread).script = [] ∧ (s.thread handle.thread).call = [] ∧
          (s.ids.count handle.thread = 1 → s.Departed handle.thread)) := by
  obtain ⟨-, announced, ⟨below, joined⟩, stage⟩ := joins.joining fits
  rw [returned] at stage
  cases stage with
  | back past outside runs =>
  subst runs
  obtain ⟨σ, reachable, mirrors⟩ := joins.reached.mirrored fits
  have arena : ThreadTable.Arena s.kernel.table := (mirrors.sound reachable).arena
  -- outside handlers and between calls, the thread that has joined is in its own code
  have own : s.RunsOwnCode := by
    refine ⟨returned, (if_pos rfl).symm.trans outside, ?_⟩
    rw [show s.currentThread.script = _ from joined]
    rfl
  refine ⟨rfl, (ThreadTable.length_ids arena).symm, ?_⟩
  cases past with
  | leaves ends call live =>
    have apart : handle.thread ≠ s.current := by
      intro here
      rw [here, joined] at ends
      cases ends
    exact Or.inl (leaving_of_closing fits joins.reached own apart ends call live)
  | left ends call gone =>
    exact Or.inr ⟨ends, call, fun once => departed_of_gone arena announced.slot (gone once)⟩

/-! ### A thread that is joined, of equal and of lower priority -/

/-- The main thread makes a thread of some priority, and joins it. -/
def parting (level : Nat) : List Action := [.spawn "other" level [] none, .join "other"]

/-- The handle of the thread that the main thread makes. -/
def other : JoinHandle := ⟨"other", ⟨1, 0⟩, ⟨0⟩⟩

theorem parting_fits {level : Nat} : Settings.Fits {} (parting level) := by
  refine ⟨nofun, ?_⟩
  simp [parting, Settings.Admits, Settings.AdmitsAction]

/-- A thread of the priority of the main thread has left the table when it has been joined. -/
theorem equal_has_left : ∃ s, Joins {} (parting 31) other ⟨0, 0⟩ s ∧
    (s.thread ⟨0, 0⟩).call = [] ∧ s.Departed ⟨1, 0⟩ := by
  have plays : ((Settings.start {} (parting 31) (Settings.table {} (.empty 0)).state ⟨0, 0⟩).play
      5).bind (fun s => (s.playJoin other 13).map fun s' => decide (s.current = ⟨0, 0⟩ ∧
        (s'.thread ⟨0, 0⟩).call = [] ∧ s'.queue.ready = [] ∧ s'.ids.count ⟨1, 0⟩ = 1)) =
      some true := by
    decide +kernel
  obtain ⟨before, played, joined⟩ := Option.bind_eq_some_iff.mp plays
  obtain ⟨s, joins, facts⟩ := Option.map_eq_some_iff.mp joined
  obtain ⟨runs, returned, nobody, once⟩ := of_decide_eq_true facts
  have reached : Reached {} (parting 31) before := (Reached.start rfl).play played
  have joins : Joins {} (parting 31) other ⟨0, 0⟩ s := runs ▸ reached.playJoin joins
  obtain ⟨-, -, leaving | ⟨-, -, left⟩⟩ := joined_thread_has_returned parting_fits joins returned
  · exact absurd (nobody ▸ leaving.ready) List.not_mem_nil
  · exact ⟨s, joins, returned, left once⟩

/-- A thread of lower priority is still live and counted when it has been joined. -/
theorem lower_is_still_there : ∃ s, Joins {} (parting 10) other ⟨0, 0⟩ s ∧
    (s.thread ⟨0, 0⟩).call = [] ∧ s.ids.count ⟨1, 0⟩ = 1 ∧
      s.kernel.table.contains ⟨1, 0⟩ = true ∧ s.kernel.table.ids = [⟨0, 0⟩, ⟨1, 0⟩] ∧
        s.kernel.table.live = 2 ∧ s.kernel.table.free = [] := by
  have plays : ((Settings.start {} (parting 10) (Settings.table {} (.empty 0)).state ⟨0, 0⟩).play
      5).bind (fun s => (s.playJoin other 11).map fun s' => decide (s.current = ⟨0, 0⟩ ∧
        (s'.thread ⟨0, 0⟩).call = [] ∧ s'.ids.count ⟨1, 0⟩ = 1 ∧
        s'.kernel.table.contains ⟨1, 0⟩ = true ∧ s'.kernel.table.ids = [⟨0, 0⟩, ⟨1, 0⟩] ∧
        s'.kernel.table.live = 2 ∧ s'.kernel.table.free = [])) = some true := by
    decide +kernel
  obtain ⟨before, played, joined⟩ := Option.bind_eq_some_iff.mp plays
  obtain ⟨s, joins, facts⟩ := Option.map_eq_some_iff.mp joined
  obtain ⟨runs, there⟩ := of_decide_eq_true facts
  have reached : Reached {} (parting 10) before := (Reached.start rfl).play played
  exact ⟨s, runs ▸ reached.playJoin joins, there⟩

end KernelSync.Simulation
