import KernelSync.Proofs.MirrorRuns
import KernelSync.Proofs.Permits

/-!
The ends of threads. Each thread that is spawned gets a semaphore for its end, which no script can
name and on which nobody waits for a signal (`Settings.Reserves`). So nobody but the thread can add
a permit to it (`Turn.mute`), and the thread does so when its script is over (`Turn.fares`). A thread
comes into the table when it is spawned, and leaves it when it exits (`Turn.change`).
-/

namespace KernelSync

open Stretch hiding pure bind

/-- The semaphore to which a thread at a place adds a permit, at once or later in the call. -/
def Frame.raises? : Frame → Option SemaphoreId
  | .call (.up x) | .up x => some x
  | .call (.release lock) | .call (.wait _ lock) | .giveUp lock => some lock.semaphore
  | _ => none

section Stretches

variable {me : ThreadId} {k k' : Kernel} {frame f : Frame} {progress : Progress} {x : SemaphoreId}

/-- A stretch leads to a permit that was to be added before, or to that of a waiter which is
signaled. -/
theorem Advances.raises? (advances : Advances me k frame k' progress) (mem : f ∈ progress.frames)
    (raises : f.raises? = some x) :
    frame.raises? = some x ∨ ∃ c, ∃ w ∈ k.waiters c, w.semaphore = x := by
  cases advances with
  | @opens call frames opening allowed =>
    rcases List.mem_append.mp mem with mem | mem
    · cases call with
      | up y | release lock =>
        cases opening
        rw [List.mem_singleton.mp mem] at raises
        exact Or.inl raises
      | down y | acquire lock =>
        cases opening
        rw [List.mem_singleton.mp mem] at raises
        cases raises
      | wait c lock => cases opening
      | signal c lock | broadcast c lock =>
        cases opening
        rcases mem with _ | ⟨_, _ | ⟨_, ⟨⟩⟩⟩ <;> cases raises
    · rw [List.mem_singleton.mp mem] at raises
      cases raises
  | waits held allowed =>
    rcases mem with _ | ⟨_, _ | ⟨_, _ | ⟨_, ⟨⟩⟩⟩⟩
    · exact Or.inl raises
    · cases raises
    · cases raises
  | givesUp gives =>
    rw [List.mem_singleton.mp mem] at raises
    exact Or.inl raises
  | @signals c first rest sorted =>
    rw [List.mem_singleton.mp mem] at raises
    have perm := Condvar.sortedByRank_perm k.table (k.waiters c)
    rw [sorted] at perm
    exact Or.inr ⟨c, first, perm.mem_iff.mp List.mem_cons_self, Option.some.inj raises⟩
  | @broadcasts c first rest sorted =>
    have perm := Condvar.sortedByRank_perm k.table (k.waiters c)
    rw [sorted] at perm
    rcases mem with _ | ⟨_, _ | ⟨_, ⟨⟩⟩⟩
    · exact Or.inr ⟨c, first, perm.mem_iff.mp List.mem_cons_self, Option.some.inj raises⟩
    · cases raises
  | queues | retries | registers | reacquires | raises | wakes | returns =>
    rw [List.mem_singleton.mp mem] at raises
    cases raises
  | takes | acquires | checks | holds | signalsNobody | broadcastsNobody | leaves => cases mem

/-! ### Semaphores that come and stay -/

/-- Semaphores are added at most, and whoever registers does so on a new one. -/
structure Kernel.Grows (k k' : Kernel) : Prop where
  length_le : k.semaphores.length ≤ k'.semaphores.length
  registered : ∀ c, ∀ w ∈ k'.waiters c, (∃ d, w ∈ k.waiters d) ∨ w.semaphore = k.nextSemaphore

theorem Kernel.grows_of_same (length : k'.semaphores.length = k.semaphores.length)
    (waiters : ∀ c, k'.waiters c = k.waiters c) : Kernel.Grows k k' :=
  ⟨Nat.le_of_eq length.symm, fun c _ mem => Or.inl ⟨c, waiters c ▸ mem⟩⟩

theorem Advances.grows (advances : Advances me k frame k' progress) : Kernel.Grows k k' := by
  cases advances with
  | @waits c lock held allowed =>
    refine ⟨Nat.le_of_lt (Nat.lt_of_lt_of_eq (Nat.lt_succ_self _)
      Kernel.length_addSemaphore.symm), fun d w mem => ?_⟩
    rcases Kernel.mem_setWaiters mem with mem | mem
    · exact Or.inl ⟨d, mem⟩
    rcases List.mem_append.mp mem with mem | mem
    · exact Or.inl ⟨c, mem⟩
    · rw [List.mem_singleton.mp mem]
      exact Or.inr rfl
  | @signals c first rest sorted | @broadcasts c first rest sorted =>
    have perm := Condvar.sortedByRank_perm k.table (k.waiters c)
    rw [sorted] at perm
    refine ⟨Nat.le_refl _, fun d w mem => Or.inl ?_⟩
    rcases Kernel.mem_setWaiters mem with mem | mem
    · exact ⟨d, mem⟩
    · exact ⟨c, perm.mem_iff.mp (List.mem_cons_of_mem _ mem)⟩
  | takes | queues | raises | wakes | acquires | registers =>
    exact Kernel.grows_of_same Kernel.length_setSemaphore fun _ => rfl
  | opens | retries | reacquires | checks | givesUp | holds | signalsNobody | broadcastsNobody
  | returns | leaves => exact Kernel.grows_of_same rfl fun _ => rfl

theorem Answers.grows {made : ShortCall} {answer : Bool} (answers : Answers me k made k' answer) :
    Kernel.Grows k k' := by
  cases answers with
  | takes | acquires => exact Kernel.grows_of_same Kernel.length_setSemaphore fun _ => rfl
  | refuses | denies | looks => exact Kernel.grows_of_same rfl fun _ => rfl

theorem Answers.permits_le {made : ShortCall} {answer : Bool}
    (answers : Answers me k made k' answer) : k'.permits x ≤ k.permits x := by
  cases answers with
  | takes | acquires => exact Kernel.permits_setSemaphore_le (Nat.sub_le _ _)
  | refuses | denies | looks => exact Nat.le_refl _

end Stretches

namespace Simulation

open Kernel
open KernelSync.System (Reachable)

variable {settings : Settings} {s s₁ : Simulation} {σ : System} {how : Option Switch}
  {u : ThreadId} {x : SemaphoreId} {k k' : Kernel} {pending : Pending} {new rest : List Pending}
  {frames : List Frame} {spare : List SemaphoreId}

/-- A semaphore that is there, that the settings do not offer and on which nobody waits for a
signal. -/
structure Settings.Reserves (settings : Settings) (k : Kernel) (x : SemaphoreId) : Prop where
  beyond : settings.counts.length + settings.locks ≤ x.index
  present : x.index < k.semaphores.length
  unregistered : ∀ c, ∀ w ∈ k.waiters c, w.semaphore ≠ x

theorem Settings.Reserves.ne_next (reserves : settings.Reserves k x) : k.nextSemaphore ≠ x := by
  rintro rfl
  exact Nat.lt_irrefl _ reserves.present

theorem Settings.Reserves.grows (reserves : settings.Reserves k x) (grows : Grows k k') :
    settings.Reserves k' x where
  beyond := reserves.beyond
  present := Nat.lt_of_lt_of_le reserves.present grows.length_le
  unregistered := by
    intro c w mem
    rcases grows.registered c w mem with ⟨d, old⟩ | fresh
    · exact reserves.unregistered d w old
    · rw [fresh]
      exact reserves.ne_next

/-- The semaphore of a lock on offer is on offer. -/
theorem Settings.OffersLock.index_lt {lock : Lock} (offered : settings.OffersLock lock) :
    lock.semaphore.index < settings.counts.length + settings.locks := by
  obtain ⟨i, small, rfl⟩ := offered
  exact Nat.add_lt_add_left small _

/-- A call that is offered adds permits only to what is on offer, or to waiters. -/
theorem Settings.Offers.index_lt {made : Call} (offered : settings.Offers made)
    (raises : (Frame.call made).raises? = some x) :
    x.index < settings.counts.length + settings.locks := by
  cases made with
  | up y =>
    obtain rfl := Option.some.inj raises
    exact Nat.lt_of_lt_of_le offered (Nat.le_add_right _ _)
  | release lock =>
    obtain rfl := Option.some.inj raises
    exact Settings.OffersLock.index_lt offered
  | wait c lock =>
    obtain rfl := Option.some.inj raises
    exact offered.2.index_lt
  | down | acquire | signal | broadcast => cases raises

/-! ### Scripts -/

/-- What is pending belongs to the end of a thread. -/
def Pending.ends : Pending → Bool
  | .finish _ | .remove _ => true
  | _ => false

/-- Before its end a script goes on with parts that are not its end. -/
theorem Unrolls.ends (unrolls : Unrolls s pending new frames) :
    pending.ends = false ∧ ∀ p ∈ new, p.ends = false := by
  cases unrolls <;> simp [Pending.ends]

/-- A script that is admitted makes calls that add permits only to what is on offer. -/
theorem Unrolls.raises_offered (unrolls : Unrolls s pending new frames)
    (admitted : pending.Admitted settings spare) {f : Frame} (mem : f ∈ frames)
    (raises : f.raises? = some x) : x.index < settings.counts.length + settings.locks := by
  cases unrolls with
  | calls =>
    rw [List.mem_singleton.mp mem] at raises
    exact Settings.Offers.index_lt admitted.1 raises
  | @waits c lock =>
    have offered : settings.Offers (.wait c lock) := admitted
    rw [List.mem_singleton.mp mem] at raises
    exact offered.index_lt raises
  | joins =>
    rw [List.mem_singleton.mp mem] at raises
    cases raises
  | start | ended | waitsWhile | repeats | chooses | branches | attempts | acts | timesOver
  | timesAgain | waited | reports | known | attempt | disguise | returned => cases mem

/-! ### Turns -/

theorem Shifts.thread_current {t : SimThread} {kernel : Kernel} {queue : RunQueue}
    (shifts : Shifts s s₁ t kernel queue) : s₁.thread s.current = t :=
  (shifts.thread s.current).trans (if_pos rfl)

/-- What every turn keeps: who runs, the threads that there are, and what those that do not run are
about. A thread that a turn adds has yet to run, and whom it makes joinable the running thread has
just learnt of. -/
structure Retains (s s₁ : Simulation) : Prop where
  current : s₁.current = s.current
  has : ∀ u, s.Has u → s₁.Has u
  others : ∀ u, u ≠ s.current → s₁.thread u = s.thread u ∨ ¬ s.Has u ∧
    ∃ name script disguise, s₁.thread u = .fresh u name script disguise s.kernel.nextSemaphore
  joinable : ∀ handle ∈ s₁.joinable, handle ∈ s.joinable ∨
    .known handle.name handle.thread handle.exited ∈ s.currentThread.script

theorem Retains.thread_eq (retains : Retains s s₁) (apart : u ≠ s.current) (has : s.Has u) :
    s₁.thread u = s.thread u :=
  (retains.others u apart).resolve_right fun fresh => fresh.1 has

theorem Shifts.retains {t : SimThread} {kernel : Kernel} {queue : RunQueue}
    (shifts : Shifts s s₁ t kernel queue) : Retains s s₁ where
  current := shifts.current
  has := fun u => (shifts.has u).mpr
  others := fun u apart => Or.inl ((shifts.thread u).trans (if_neg apart))
  joinable := shifts.joinable

theorem Turn.retains (turn : Turn s s₁ how) : Retains s s₁ := by
  cases turn with
  | rests => exact ⟨rfl, fun _ has => has, fun _ _ => Or.inl rfl, fun _ mem => Or.inl mem⟩
  | spawns idle due adds notReady kernel queue current main thread has joinable =>
    refine ⟨current, fun u old => (has u).mpr (Or.inl old), fun u apart => ?_,
      fun _ mem => Or.inl (joinable ▸ mem)⟩
    rw [thread, if_neg apart]
    by_cases old : s.Has u
    · rw [if_pos old]
      exact Or.inl rfl
    rw [if_neg old]
    split
    · rename_i here
      rw [← here]
      exact Or.inr ⟨old, _, _, _, rfl⟩
    · refine Or.inl ?_
      have none : (s.threads.find? fun t => t.id = u) = none :=
        List.find?_eq_none.mpr fun t mem is => old ⟨t, mem, of_decide_eq_true is⟩
      unfold Simulation.thread
      rw [none]
      rfl
  | thinks idle due unrolls shifts | answers idle due asks shifts | rebases idle due changes shifts
  | interrupts idle due outside shifts | handled idle due shifts | returns idle due unasked shifts
  | yieldsOnReturn idle due asked shifts | yields idle due shifts | finishes idle due shifts
  | exits idle due removes shifts | goes busy steps heeds shifts => exact shifts.retains

/-- Where nothing is left to do, nothing happens. -/
theorem Turn.eq_of_done (turn : Turn s s₁ how) (idle : s.currentThread.call = [])
    (done : s.currentThread.script = []) : s₁ = s := by
  cases turn with
  | rests => rfl
  | thinks _ due | answers _ due | spawns _ due | rebases _ due | interrupts _ due | handled _ due
  | returns _ due | yieldsOnReturn _ due | yields _ due | finishes _ due | exits _ due =>
    exact nomatch done.symm.trans due
  | goes busy => exact absurd idle busy

/-- Within a call a turn is a stretch. -/
theorem Turn.stretch {head : Frame} {below : List Frame} (turn : Turn s s₁ how)
    (quiet : s.kernel.Quiet) (call : s.currentThread.call = head :: below) :
    ∃ progress, Advances s.current s.kernel head s₁.kernel progress ∧
      (s₁.thread s.current).call = progress.frames ++ below ∧
      (s₁.thread s.current).script = s.currentThread.script ∧ how ≠ some .exit ∧
      (progress.request = .proceed → how = none) := by
  cases turn with
  | rests idle | thinks idle | answers idle | spawns idle | rebases idle | interrupts idle
  | handled idle | returns idle | yieldsOnReturn idle | yields idle | finishes idle | exits idle =>
    exact nomatch call.symm.trans idle
  | goes busy steps heeds shifts =>
    rw [call] at steps
    obtain ⟨progress, advanced, rfl⟩ := step_eq_ok steps
    rw [shifts.thread_current, shifts.kernel_eq]
    refine ⟨progress, advances_of_ok quiet advanced, rfl, rfl, ?_⟩
    generalize progress.request = request at heeds
    cases heeds <;> simp

/-- What becomes of the running thread in a turn, as far as its end is concerned: it goes on with
its call, works at its script, comes to the end of it, or exits. -/
inductive Fares (settings : Settings) (s : Simulation) (t : SimThread) (how : Option Switch) :
    Prop where
  | calls (script : t.script = s.currentThread.script)
      (rests : s.currentThread.call = [] → s.currentThread.script = []) (stays : how ≠ some .exit)
      (raises : ∀ f ∈ t.call, ∀ x, f.raises? = some x →
        (∃ g ∈ s.currentThread.call, g.raises? = some x) ∨
          ∃ c, ∃ w ∈ s.kernel.waiters c, w.semaphore = x)
  | works {pending : Pending} {new rest : List Pending} (idle : s.currentThread.call = [])
      (due : s.currentThread.script = pending :: rest) (script : t.script = new ++ rest)
      (goesOn : pending.ends = false) (more : ∀ p ∈ new, p.ends = false) (stays : how ≠ some .exit)
      (raises : ∀ f ∈ t.call, ∀ x, f.raises? = some x →
        x.index < settings.counts.length + settings.locks)
  | finishes {exited : SemaphoreId} {saved : Nat} {rest : List Pending}
      (idle : s.currentThread.call = []) (due : s.currentThread.script = .finish exited :: rest)
      (script : t.script = .remove saved :: rest) (call : t.call = [.call (.up exited)])
      (stays : how ≠ some .exit)
  | exits {saved : Nat} {rest : List Pending} (idle : s.currentThread.call = [])
      (due : s.currentThread.script = .remove saved :: rest) (script : t.script = [])
      (call : t.call = []) (leaves : how = some .exit)

theorem Turn.fares (turn : Turn s s₁ how) (mirrors : Mirrors settings none s σ)
    (reachable : Reachable scheduled σ) : Fares settings s (s₁.thread s.current) how := by
  have quiet := mirrors.quiet reachable
  have checks : ∀ {saved : Nat}, ∀ f ∈ [Frame.check, .leave saved], ∀ x, f.raises? = some x →
      x.index < settings.counts.length + settings.locks := by
    rintro saved f (_ | ⟨_, _ | ⟨_, ⟨⟩⟩⟩) x raises <;> cases raises
  have closes : ∀ {saved : Nat}, ∀ f ∈ [Frame.leave saved], ∀ x, f.raises? = some x →
      x.index < settings.counts.length + settings.locks := by
    rintro saved f (_ | ⟨_, ⟨⟩⟩) x raises
    cases raises
  cases turn with
  | rests idle empty =>
    exact .calls rfl (fun _ => empty) nofun fun f mem x raises => Or.inl ⟨f, mem, raises⟩
  | thinks idle due unrolls shifts =>
    have admitted := mirrors.scripts s.current _ (List.mem_of_mem_head? (congrArg List.head? due))
    rw [shifts.thread_current]
    exact .works idle due rfl unrolls.ends.1 unrolls.ends.2 nofun
      fun f mem x raises => unrolls.raises_offered admitted mem raises
  | answers idle due asks shifts =>
    rw [shifts.thread_current]
    refine .works idle due (show _ = [_] ++ _ from rfl) rfl (by simp [Pending.ends]) nofun ?_
    rw [idle]
    exact List.forall_mem_nil _
  | spawns idle due adds notReady kernel queue current main thread =>
    rw [thread, if_pos rfl]
    exact .works idle due (show _ = [_, _, _] ++ _ from rfl) rfl (by simp [Pending.ends]) nofun
      checks
  | rebases idle due changes shifts =>
    rw [shifts.thread_current]
    exact .works idle due (show _ = [_, _] ++ _ from rfl) rfl (by simp [Pending.ends]) nofun checks
  | interrupts idle due outside shifts =>
    rw [shifts.thread_current]
    refine .works idle due (show _ = [_, _, _, _, _] ++ _ from rfl) rfl (by simp [Pending.ends])
      nofun ?_
    rw [idle]
    exact List.forall_mem_nil _
  | handled idle due shifts | returns idle due unasked shifts =>
    rw [shifts.thread_current]
    refine .works idle due (show _ = [] ++ _ from rfl) rfl (List.forall_mem_nil _) nofun ?_
    rw [idle]
    exact List.forall_mem_nil _
  | yieldsOnReturn idle due asked shifts =>
    rw [shifts.thread_current]
    exact .works idle due (show _ = [] ++ _ from rfl) rfl (List.forall_mem_nil _) nofun closes
  | yields idle due shifts =>
    rw [shifts.thread_current]
    exact .works idle due (show _ = [_, _] ++ _ from rfl) rfl (by simp [Pending.ends]) nofun closes
  | finishes idle due shifts =>
    rw [shifts.thread_current]
    exact .finishes idle due rfl rfl nofun
  | exits idle due removes shifts =>
    rw [shifts.thread_current]
    exact .exits idle due rfl idle rfl
  | goes busy steps heeds shifts =>
    obtain ⟨head, below, call⟩ := List.exists_cons_of_ne_nil busy
    obtain ⟨progress, advances, frames, script, stays, -⟩ :=
      (Turn.goes busy steps heeds shifts).stretch quiet call
    refine .calls script (fun idle => absurd idle busy) stays fun f mem x raises => ?_
    rw [frames] at mem
    rw [call]
    rcases List.mem_append.mp mem with mem | mem
    · rcases advances.raises? mem raises with before | registered
      · exact Or.inl ⟨head, List.mem_cons_self, before⟩
      · exact Or.inr registered
    · exact Or.inl ⟨f, List.mem_cons_of_mem _ mem, raises⟩

/-! ### Semaphores in turns -/

theorem Turn.grows (turn : Turn s s₁ how) (quiet : s.kernel.Quiet) : Grows s.kernel s₁.kernel := by
  cases turn with
  | rests => exact grows_of_same rfl fun _ => rfl
  | answers idle due asks shifts => exact shifts.kernel_eq ▸ (answers_of_ok quiet asks).grows
  | spawns idle due adds notReady kernel =>
    rw [kernel]
    refine ⟨Nat.le_of_lt (Nat.lt_of_lt_of_eq (Nat.lt_succ_self _) length_addSemaphore.symm),
      fun c w mem => Or.inl ⟨c, mem⟩⟩
  | thinks idle due unrolls shifts | rebases idle due changes shifts
  | interrupts idle due outside shifts | handled idle due shifts | returns idle due unasked shifts
  | yieldsOnReturn idle due asked shifts | yields idle due shifts | finishes idle due shifts
  | exits idle due removes shifts =>
    rw [shifts.kernel_eq]
    exact grows_of_same rfl fun _ => rfl
  | goes busy steps heeds shifts =>
    obtain ⟨head, below, call⟩ := List.exists_cons_of_ne_nil busy
    obtain ⟨progress, advances, -⟩ := (Turn.goes busy steps heeds shifts).stretch quiet call
    exact advances.grows

theorem Turn.quiet (turn : Turn s s₁ how) (quiet : s.kernel.Quiet) : s₁.kernel.Quiet := by
  cases turn with
  | rests => exact quiet
  | answers idle due asks shifts => exact shifts.kernel_eq ▸ (answers_of_ok quiet asks).quiet quiet
  | spawns idle due adds notReady kernel =>
    rw [kernel]
    exact ((quiet.setTable _).addSemaphore 0).withDepth _
  | thinks idle due unrolls shifts | rebases idle due changes shifts
  | interrupts idle due outside shifts | handled idle due shifts | returns idle due unasked shifts
  | yieldsOnReturn idle due asked shifts | yields idle due shifts | finishes idle due shifts
  | exits idle due removes shifts =>
    rw [shifts.kernel_eq]
    exact ⟨quiet.threads, quiet.semaphores, quiet.condvars⟩
  | goes busy steps heeds shifts =>
    obtain ⟨head, below, call⟩ := List.exists_cons_of_ne_nil busy
    obtain ⟨progress, advances, -⟩ := (Turn.goes busy steps heeds shifts).stretch quiet call
    exact advances.quiet quiet

/-- A turn adds a permit only where the running thread is about to. -/
theorem Turn.permits_le (turn : Turn s s₁ how) (quiet : s.kernel.Quiet)
    (notRaised : ∀ below, s.currentThread.call ≠ .up x :: below) :
    s₁.kernel.permits x ≤ s.kernel.permits x := by
  cases turn with
  | rests => exact Nat.le_refl _
  | answers idle due asks shifts => exact shifts.kernel_eq ▸ (answers_of_ok quiet asks).permits_le
  | spawns idle due adds notReady kernel =>
    rw [kernel]
    exact Nat.le_of_eq permits_addSemaphore_zero
  | thinks idle due unrolls shifts | rebases idle due changes shifts
  | interrupts idle due outside shifts | handled idle due shifts | returns idle due unasked shifts
  | yieldsOnReturn idle due asked shifts | yields idle due shifts | finishes idle due shifts
  | exits idle due removes shifts => exact Nat.le_of_eq (congrArg (·.permits x) shifts.kernel_eq)
  | goes busy steps heeds shifts =>
    obtain ⟨head, below, call⟩ := List.exists_cons_of_ne_nil busy
    obtain ⟨progress, advances, -⟩ := (Turn.goes busy steps heeds shifts).stretch quiet call
    exact advances.permits_le fun is => notRaised below (is ▸ call)

/-! ### The table in turns -/

/-- A deed of a turn: a new thread is the last of the threads, and only the running one is removed,
as it exits. -/
def Suits (s s₁ : Simulation) (how : Option Switch) : Deed → Prop
  | .spawn id _ _ => s₁.ids = s.ids ++ [id]
  | .remove id => s₁.ids = s.ids ∧ id = s.current ∧ how = some .exit
  | _ => s₁.ids = s.ids

theorem suits_of_deed {t : ThreadId} {frame : Frame} {request : Request} (same : s₁.ids = s.ids) :
    Suits s s₁ how (frame.deed t request) := by
  unfold Frame.deed
  split <;> exact same

/-- A turn changes the thread table at most once. -/
theorem Turn.change (turn : Turn s s₁ how) (mirrors : Mirrors settings none s σ)
    (reachable : Reachable scheduled σ) :
    ∃ deed, Change s.kernel.mode s.kernel.table deed s₁.kernel.table ∧ Suits s s₁ how deed := by
  have quiet := mirrors.quiet reachable
  have orderly := reachable.orderly
  cases turn with
  | rests => exact ⟨.rest, .rest, rfl⟩
  | thinks idle due unrolls shifts | interrupts idle due outside shifts | handled idle due shifts
  | returns idle due unasked shifts | yieldsOnReturn idle due asked shifts
  | yields idle due shifts | finishes idle due shifts =>
    rw [shifts.kernel_eq]
    exact ⟨.rest, .rest, shifts.ids⟩
  | answers idle due asks shifts =>
    rw [shifts.kernel_eq]
    cases answers_of_ok quiet asks with
    | takes | refuses | denies | looks => exact ⟨.rest, .rest, shifts.ids⟩
    | acquires notMine permit claims =>
      exact ⟨_, mirrors.change_of_tryAcquire reachable idle due permit, shifts.ids⟩
  | spawns idle due adds notReady kernel queue current main thread has joinable ids =>
    rw [kernel]
    rw [← mirrors.table] at adds ⊢
    obtain ⟨-, full, -⟩ | ⟨_, ⟨⟩, gains⟩ := ThreadTable.spawn_eq_ok orderly.sound.arena adds
    · cases full
    · exact ⟨.spawn _ _ _, .spawn gains, ids⟩
  | @rebases level priority effective actions rest table reported s₁ idle due changes shifts =>
    rw [shifts.kernel_eq]
    have live : s.kernel.table.contains s.current = true := mirrors.table ▸ mirrors.awake.1
    have rebased : Change s.kernel.mode s.kernel.table (.setBase s.current priority)
        (Donation.changeBasePriority s.current priority s.kernel.mode s.kernel.table).state :=
      .setBase live
    rw [changes] at rebased
    exact ⟨_, rebased, shifts.ids⟩
  | exits idle due removes shifts =>
    rw [shifts.kernel_eq]
    rw [← mirrors.table] at removes ⊢
    obtain ⟨found, waits, unheld, loses⟩ := ThreadTable.remove_eq_ok orderly.sound.arena removes
    have idle := (ThreadTable.waits_of_get? found).trans waits
    exact ⟨.remove s.current, .remove loses idle unheld, shifts.ids, rfl, rfl⟩
  | goes busy steps heeds shifts =>
    rw [shifts.kernel_eq]
    cases mirrors.goes reachable busy steps with
    | stretch busy' advances same request alike reachable' =>
      have changes := System.change_after orderly busy' mirrors.mayGo mirrors.awake.1 advances
      rw [same, mirrors.mode, mirrors.table] at changes
      exact ⟨_, changes, suits_of_deed shifts.ids⟩
    | checks idle same is =>
      rw [same]
      exact ⟨.rest, .rest, shifts.ids⟩
    | closes idle same is =>
      rw [same]
      exact ⟨.rest, .rest, shifts.ids⟩

section Table

variable (turn : Turn s s₁ how) (mirrors : Mirrors settings none s σ)
  (reachable : Reachable scheduled σ)
include turn mirrors reachable

/-- A thread that does not exit stays in the table. -/
theorem Turn.live (stays : u = s.current → how ≠ some .exit)
    (live : s.kernel.table.contains u = true) : s₁.kernel.table.contains u = true := by
  obtain ⟨deed, change, suits⟩ := turn.change mirrors reachable
  refine (change.contains (mirrors.table ▸ reachable.orderly.sound) u).mpr ?_
  cases deed with
  | spawn => exact Or.inr live
  | remove id =>
    obtain ⟨-, rfl, exits⟩ := suits
    exact ⟨fun here => stays here exits, live⟩
  | rest | register | claim | giveUp | setBase | setEffective => exact live

/-- A handle that is no longer live stays so, unless it is issued again. -/
theorem Turn.gone (has : s.Has u)
    (gone : s.ids.count u = 1 → s.kernel.table.contains u = false)
    (once : s₁.ids.count u = 1) : s₁.kernel.table.contains u = false := by
  obtain ⟨deed, change, suits⟩ := turn.change mirrors reachable
  have contains := change.contains (mirrors.table ▸ reachable.orderly.sound) u
  have some := List.count_pos_iff.mpr (mem_ids.mpr has)
  cases deed with
  | spawn id name priority =>
    rw [show s₁.ids = s.ids ++ [id] from suits, List.count_append, List.count_singleton] at once
    have apart : u ≠ id := by
      rintro rfl
      simp at once
      omega
    have dead := gone (by omega)
    refine Bool.eq_false_iff.mpr fun live => ?_
    rcases contains.mp live with here | live
    · exact apart here
    · exact nomatch dead.symm.trans live
  | remove id =>
    have dead := gone (suits.1 ▸ once)
    exact Bool.eq_false_iff.mpr fun live => nomatch dead.symm.trans (contains.mp live).2
  | rest | register | claim | giveUp | setBase | setEffective =>
    have same : s₁.ids = s.ids := suits
    have dead := gone (same ▸ once)
    exact Bool.eq_false_iff.mpr fun live => nomatch dead.symm.trans (contains.mp live)

theorem Turn.slots_le : s.kernel.table.slots.length ≤ s₁.kernel.table.slots.length := by
  obtain ⟨deed, change, -⟩ := turn.change mirrors reachable
  exact change.length_le (mirrors.table ▸ reachable.orderly.sound)

end Table

/-- Whoever exits is not in the table any more. -/
theorem Turn.gone_of_exit (turn : Turn s s₁ (some .exit)) (mirrors : Mirrors settings none s σ)
    (reachable : Reachable scheduled σ) : s₁.kernel.table.contains s.current = false := by
  cases turn with
  | exits idle due removes shifts =>
    rw [← mirrors.table] at removes
    obtain ⟨-, -, -, loses⟩ := ThreadTable.remove_eq_ok reachable.orderly.sound.arena removes
    rw [shifts.kernel_eq]
    exact Bool.eq_false_iff.mpr fun live => (loses.contains.mp live).1 rfl
  | goes busy steps heeds shifts =>
    generalize Progress.request _ = request at heeds
    cases heeds

/-! ### Nobody else -/

/-- The thread neither adds a permit to that semaphore, nor will it at its end. -/
structure SimThread.Mute (t : SimThread) (x : SemaphoreId) : Prop where
  call : ∀ f ∈ t.call, f.raises? ≠ some x
  script : .finish x ∉ t.script

/-- A turn does not make a thread add permits to a reserved semaphore. -/
theorem Turn.mute (turn : Turn s s₁ how) (mirrors : Mirrors settings none s σ)
    (reachable : Reachable scheduled σ) (reserves : settings.Reserves s.kernel x)
    (mute : (s.thread u).Mute x) : (s₁.thread u).Mute x := by
  by_cases here : u = s.current
  · subst here
    have own : s.currentThread.Mute x := mute
    cases turn.fares mirrors reachable with
    | calls script rests stays raises =>
      refine ⟨fun f mem is => ?_, script ▸ own.script⟩
      rcases raises f mem x is with ⟨g, old, before⟩ | ⟨c, w, mem, registered⟩
      · exact own.call g old before
      · exact reserves.unregistered c w mem registered
    | works idle due script goesOn more stays raises =>
      refine ⟨fun f mem is => ?_, fun mem => ?_⟩
      · exact absurd (raises f mem x is) (Nat.not_lt_of_le reserves.beyond)
      · rw [script] at mem
        rcases List.mem_append.mp mem with mem | mem
        · exact nomatch more _ mem
        · exact own.script (due ▸ List.mem_cons_of_mem _ mem)
    | finishes idle due script call stays =>
      refine ⟨?_, fun mem => ?_⟩
      · rw [call]
        rintro f (_ | ⟨_, ⟨⟩⟩) is
        obtain rfl := Option.some.inj is
        exact own.script (due ▸ List.mem_cons_self)
      · rw [script] at mem
        rcases mem with _ | ⟨_, mem⟩
        exact own.script (due ▸ List.mem_cons_of_mem _ mem)
    | exits idle due script call leaves =>
      refine ⟨?_, ?_⟩
      · rw [call]
        exact List.forall_mem_nil _
      · rw [script]
        exact List.not_mem_nil
  · rcases turn.retains.others u here with same | ⟨-, name, script, disguise, fresh⟩
    · exact same ▸ mute
    · rw [fresh]
      refine ⟨List.forall_mem_nil _, ?_⟩
      simp [SimThread.fresh, reserves.ne_next.symm]

/-! ### New semaphores -/

/-- A place that names a semaphore to add a permit to it names one that is there. -/
theorem present_of_fine (orderly : System.Orderly σ) {f : Frame} (fine : σ.Fine f)
    (raises : f.raises? = some x) : x.index < σ.kernel.semaphores.length := by
  have served : ∀ {lock : Lock}, lock ∈ σ.locks → lock.semaphore = x →
      x.index < σ.kernel.semaphores.length := by
    rintro lock mem rfl
    exact orderly.furnished.lock_index lock mem
  match f, fine, raises with
  | .call (.up _), spare, rfl => exact spare.1
  | .up _, fine, rfl => exact fine.elim (·.1) fun ⟨lock, mem, is⟩ => served mem is
  | .call (.release _), mem, rfl | .call (.wait _ _), mem, rfl | .giveUp _, mem, rfl =>
    exact served mem rfl

section Next

variable (mirrors : Mirrors settings none s σ) (reachable : Reachable scheduled σ)
include mirrors reachable

/-- What is named to add a permit to it is there. -/
theorem Mirrors.present_of_raises {t : ThreadId} {f : Frame} (mem : f ∈ (s.thread t).call)
    (raises : f.raises? = some x) : x.index < s.kernel.semaphores.length := by
  have same : σ.kernel.semaphores.length = s.kernel.semaphores.length := by rw [mirrors.kernel]
  have follows := mirrors.follows t
  have fine := reachable.orderly.fine t
  generalize (s.thread t).call = call at mem follows
  generalize (σ.activity t).frames = frames at follows fine
  cases follows with
  | alike alike =>
    rcases alike.mem mem with mem' | ⟨_, rfl⟩
    · exact same ▸ present_of_fine reachable.orderly (fine f mem') raises
    · cases raises
  | checks =>
    rcases mem with _ | ⟨_, _ | ⟨_, ⟨⟩⟩⟩ <;> cases raises
  | closes =>
    rcases mem with _ | ⟨_, ⟨⟩⟩
    cases raises

/-- Nobody adds permits to a semaphore that is not there yet. -/
theorem Mirrors.mute_next (t : ThreadId) : (s.thread t).Mute s.kernel.nextSemaphore where
  call := fun f mem raises =>
    Nat.lt_irrefl _ (mirrors.present_of_raises reachable mem raises)
  script := by
    intro mem
    have spare := reachable.orderly.furnished.standalone _ (mirrors.scripts t _ mem)
    have small := spare.1
    rw [mirrors.kernel] at small
    exact Nat.lt_irrefl _ small

theorem Mirrors.offered_le :
    settings.counts.length + settings.locks ≤ s.kernel.semaphores.length := by
  have furnished := reachable.orderly.furnished
  have same : σ.kernel.semaphores.length = s.kernel.semaphores.length := by rw [mirrors.kernel]
  rw [← same]
  by_contra more
  by_cases locks : settings.locks = 0
  · have last := (furnished.standalone _ (mirrors.stocked.spares (settings.counts.length - 1)
      (by omega))).1
    simp at last
    omega
  · have last := furnished.lock_index _ (mirrors.stocked.locks (settings.locks - 1) (by omega))
    simp [Settings.lock] at last
    omega

/-- A semaphore that is added is none of those on offer, and nobody has registered on it. -/
theorem Mirrors.reserves_next :
    settings.Reserves (s.kernel.addSemaphore 0) s.kernel.nextSemaphore where
  beyond := mirrors.offered_le reachable
  present := Nat.lt_of_lt_of_eq (Nat.lt_succ_self _) length_addSemaphore.symm
  unregistered := by
    intro c w mem is
    have mem' : w ∈ σ.kernel.waiters c := by
      rw [mirrors.kernel]
      exact mem
    have small := (reachable.orderly.furnished.registered c w mem').1
    rw [is, mirrors.kernel] at small
    exact Nat.lt_irrefl _ small

end Next

end Simulation

end KernelSync
