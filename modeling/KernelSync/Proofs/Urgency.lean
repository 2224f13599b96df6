import KernelSync.Proofs.Deadlocks
import KernelSync.Proofs.EffectivePriority
import KernelSync.Proofs.Journeys

/-!
The running thread is a most urgent one. A ready thread may outrank it only while it is on its way to
the point at which it lets that thread run (`Reached.urgent`): in the section of a primitive, up to
the check that ends it, or in a handler, up to its return. So in its own code no ready thread
outranks it, and under donation no thread that waits, over any number of others, for a ready thread
or for the running one (`most_urgent_runs`). That takes a run on which no step ends in a fault: one
that is caught may leave the running thread below a ready one (`caught_faults_leave_outranked`).
-/

namespace KernelSync

open ThreadTable Donation Lock Relation
open KernelSync.System (Reachable)

/-! ### Claims -/

section Claim

variable {table after : ThreadTable} {me u : ThreadId} {lock : LockId} {mode : SchedulingMode}
  {donates : Bool} {holdings : Holdings} {donors : List ThreadId} {priority : Priority}

/-- `me` is not lowered, and nobody else's priority changes. -/
structure Upholds (table : ThreadTable) (me : ThreadId) (after : ThreadTable) : Prop where
  own : rank table me ≤ rank after me
  others : ∀ u, u ≠ me → rank after u = rank table u

theorem Upholds.refl (table : ThreadTable) (me : ThreadId) : Upholds table me table :=
  ⟨Nat.le_refl _, fun _ _ => rfl⟩

/-- A thread that keeps its donors is not lowered. -/
theorem Lock.Revises.rank_le (revises : Revises donates table me holdings donors priority)
    (settled : donates = true → Settled table)
    (kept : ∀ d, table.Awaits d me → Regards table holdings d me) : rank table me ≤ priority := by
  cases donates with
  | false =>
    rw [revises.plain rfl]
    exact Nat.le_refl _
  | true =>
    have clears := revises.clears (settled rfl).toCovered
    rcases (settled rfl).attained me with own | ⟨d, edge, level⟩
    · rw [own]
      exact clears.base_le
    · rw [level]
      exact clears.rank_le d ((revises.mem_iff d).mpr (kept d edge))

theorem Change.upholds_of_claim (change : Change mode table (.claim lock me) after)
    (sound : Sound table) (settled : mode.donates = true → Settled table) :
    Upholds table me after := by
  cases change with
  | claim live free may =>
    obtain ⟨donors, priority, events, run, revises⟩ :=
      claim_run sound.arena sound.accounted live free may mode.donates
    have alive : (unwaiting table me).contains me = true := contains_modify.trans live
    have ranks : rank (unwaiting table me) = rank table := rank_modify fun _ => rfl
    have freeStill : (unwaiting table me).holder? lock = none := free
    rw [run]
    constructor
    · rw [rank_revised alive, if_pos rfl, ← ranks]
      refine revises.rank_le (fun donating => settled_unwaiting (settled donating) free may) ?_
      exact fun d edge => (regards_insert_iff freeStill).mpr (Or.inl edge)
    · intro u apart
      rw [rank_revised alive, if_neg apart, ranks]

end Claim

namespace Simulation

variable {settings : Settings} {script : List Action} {s s₁ s' : Simulation} {σ : System}
  {t : SimThread} {kernel : Kernel} {queue : RunQueue} {how : Option Switch} {events : List Event}

/-! ### Outranked threads -/

/-- A ready thread is more urgent than the one that runs. -/
def Outranked (s : Simulation) : Prop :=
  ∃ u ∈ s.queue.ready, rank s.kernel.table s.current < rank s.kernel.table u

instance : Decidable s.Outranked := by
  unfold Outranked
  infer_instance

/-- The running thread will let a more urgent one run: it is about to check for one, or its handler
has noted that one is ready. -/
inductive Due (s : Simulation) : Prop where
  | raises {x : SemaphoreId} {below : List Frame} (call : s.currentThread.call = .up x :: below)
  | checks {below : List Frame} (call : s.currentThread.call = .check :: below)
  | noted (inside : s.kernel.inInterrupt = true) (asked : s.currentThread.yieldOnReturn = true)
  | returns {below : List Pending} (idle : s.currentThread.call = [])
      (next : s.currentThread.script = .handlerReturned :: below)
      (asked : s.currentThread.yieldOnReturn = true)

/-- Each handler is followed by what it leaves to its return. -/
def Paired : List Pending → Prop
  | [] => True
  | pending :: rest =>
      ((∃ saved, pending = .handler saved) → ∃ below, rest = .handlerReturned :: below) ∧
        Paired rest

theorem paired_append {new rest : List Pending} (plain : ∀ p ∈ new, ∀ saved, p ≠ .handler saved)
    (paired : Paired rest) : Paired (new ++ rest) := by
  induction new with
  | nil => exact paired
  | cons p new ih =>
    refine ⟨?_, ih fun q mem => plain q (List.mem_cons_of_mem _ mem)⟩
    rintro ⟨saved, is⟩
    exact absurd is (plain p List.mem_cons_self saved)

theorem paired_of_unrolls {pending : Pending} {new rest : List Pending} {frames : List Frame}
    (unrolls : Unrolls s pending new frames) (paired : Paired rest) : Paired (new ++ rest) := by
  refine paired_append (fun p mem saved is => ?_) paired
  subst is
  cases unrolls <;> simp at mem

theorem paired_fresh {id : ThreadId} {name : String} {script : List Action}
    {disguise : Option Disguise} {exited : SemaphoreId} :
    Paired (SimThread.fresh id name script disguise exited).script := by
  have last : Paired [.finish exited] := ⟨nofun, trivial⟩
  have plain : ∀ p ∈ .start :: .actions script :: (disguise.map Pending.disguise).toList,
      ∀ saved, p ≠ .handler saved := by
    intro p mem saved is
    subst is
    simp at mem
  exact paired_append plain last

/-- The running thread is outranked only where it will let a more urgent one run. -/
structure Urgent (s : Simulation) : Prop where
  due : s.Outranked → s.Due
  paired : ∀ u, Paired (s.thread u).script

/-! ### Turns -/

section Shifts

variable (shifts : Shifts s s₁ t kernel queue)
include shifts

/-- A thread that is not lowered is outranked only if it was, as long as nobody becomes ready. -/
theorem Shifts.outranked (same : queue = s.queue)
    (upholds : Upholds s.kernel.table s.current kernel.table) (outranked : s₁.Outranked) :
    s.Outranked := by
  obtain ⟨u, ready, above⟩ := outranked
  rw [shifts.queue_eq, same] at ready
  rw [shifts.kernel_eq, shifts.current] at above
  have apart : u ≠ s.current := by
    rintro rfl
    exact Nat.lt_irrefl _ above
  rw [upholds.others u apart] at above
  exact ⟨u, ready, Nat.lt_of_le_of_lt upholds.own above⟩

/-- A handler that is still running has noted that a more urgent thread is ready. -/
theorem Shifts.noted (inside : kernel.inInterrupt = true) (asked : t.yieldOnReturn = true) :
    s₁.Due := by
  refine .noted (shifts.kernel_eq ▸ inside) ?_
  rw [shifts.currentThread]
  exact asked

/-- The script of the running thread alone changes. -/
theorem Shifts.paired (paired : ∀ u, Paired (s.thread u).script) (own : Paired t.script) :
    ∀ u, Paired (s₁.thread u).script := by
  intro u
  rw [shifts.thread]
  split
  · exact own
  · exact paired u

end Shifts

/-- Between calls a handler has noted that a more urgent thread is ready. -/
theorem Due.of_idle (due : s.Due) (idle : s.currentThread.call = []) :
    s.currentThread.yieldOnReturn = true ∧ (s.kernel.inInterrupt = true ∨
      ∃ below, s.currentThread.script = .handlerReturned :: below) := by
  cases due with
  | raises call | checks call => exact nomatch call.symm.trans idle
  | noted inside asked => exact ⟨asked, Or.inl inside⟩
  | returns idle next asked => exact ⟨asked, Or.inr ⟨_, next⟩⟩

theorem paired_of_turn (paired : ∀ u, Paired (s.thread u).script) (turn : Turn s s₁ how) :
    ∀ u, Paired (s₁.thread u).script := by
  have rest : ∀ {pending below}, s.currentThread.script = pending :: below → Paired below := by
    intro pending below due
    have own := paired s.current
    rw [show (s.thread s.current).script = pending :: below from due] at own
    exact own.2
  have plain : ∀ {p : Pending} {below}, Paired below → (∀ saved, p ≠ .handler saved) →
      Paired (p :: below) := fun paired differs =>
    ⟨fun ⟨saved, is⟩ => absurd is (differs saved), paired⟩
  cases turn with
  | rests => exact paired
  | thinks idle due unrolls shifts => exact shifts.paired paired (paired_of_unrolls unrolls (rest due))
  | answers idle due asks shifts => exact shifts.paired paired (plain (rest due) nofun)
  | spawns idle due adds notReady kernel queue current main thread has joinable =>
    intro u
    rw [thread]
    split
    · exact plain (plain (plain (rest due) nofun) nofun) nofun
    split
    · exact paired u
    split
    · exact paired_fresh
    · trivial
  | rebases idle due changes shifts =>
    exact shifts.paired paired (plain (plain (rest due) nofun) nofun)
  | interrupts idle due outside shifts =>
    refine shifts.paired paired (plain ⟨fun _ => ⟨_, rfl⟩, ?_⟩ nofun)
    exact plain (plain (plain (rest due) nofun) nofun) nofun
  | handled idle due shifts | returns idle due unasked shifts | yieldsOnReturn idle due asked shifts =>
    exact shifts.paired paired (rest due)
  | yields idle due shifts => exact shifts.paired paired (plain (plain (rest due) nofun) nofun)
  | finishes idle due shifts => exact shifts.paired paired (plain (rest due) nofun)
  | exits idle due removes shifts => exact shifts.paired paired trivial
  | goes busy steps heeds shifts => exact shifts.paired paired (paired s.current)

section Mirrors

variable (mirrors : Mirrors settings none s σ) (reachable : Reachable scheduled σ)
include mirrors reachable

theorem Mirrors.settled (donating : s.kernel.mode.donates = true) : Settled s.kernel.table := by
  rw [← mirrors.mode] at donating
  rw [← mirrors.table]
  exact (steady_of_scheduled reachable).settled donating

theorem Mirrors.upholds_of_claim {lock : LockId} {table : ThreadTable}
    (change : Change σ.kernel.mode σ.table (.claim lock s.current) table) :
    Upholds s.kernel.table s.current table := by
  rw [mirrors.mode, mirrors.table] at change
  refine change.upholds_of_claim ?_ (mirrors.settled reachable)
  rw [← mirrors.table]
  exact reachable.orderly.sound

/-- The running thread takes a lock, at the end of a wait for it or without one. -/
theorem Mirrors.upholds_of_acquire {lock : Lock} {below : List Frame} {progress : Progress}
    (call : s.currentThread.call = .acquire lock :: below)
    (advances : Advances s.current s.kernel (.acquire lock) kernel progress)
    (proceeds : progress.request = .proceed) :
    Upholds s.kernel.table s.current kernel.table := by
  have follows : Follows (.acquire lock :: below) (σ.activity s.current).frames :=
    call ▸ mirrors.follows s.current
  obtain ⟨head, rest, busy, same, -⟩ | ⟨-, saved, ⟨is, -⟩ | ⟨is, -⟩⟩ := follows.of_busy
  case inr.inl | inr.inr => cases is
  obtain rfl := (Frame.eq_of_plain same).resolve_right fun ⟨_, _, is, _⟩ => nomatch is
  cases advances with
  | registers => cases proceeds
  | acquires registers permit claims =>
    have there := Advances.acquires (k := { s.kernel with depth := (σ.activity s.current).depth })
      registers permit claims
    rw [← mirrors.kernelAt] at there
    have claimed := System.change_after reachable.orderly busy mirrors.mayGo mirrors.awake.1 there
    rw [mirrors.kernelAt] at claimed
    exact mirrors.upholds_of_claim reachable claimed

theorem Mirrors.upholds_of_answers {made : ShortCall} {actions : List Action} {rest : List Pending}
    {answer : Bool} (idle : s.currentThread.call = [])
    (due : s.currentThread.script = .actions (.short made :: actions) :: rest)
    (answers : Answers s.current s.kernel made kernel answer) :
    Upholds s.kernel.table s.current kernel.table := by
  cases answers with
  | takes | refuses | denies | looks => exact .refl _ _
  | @acquires lock notMine permit claims =>
    have claimed := mirrors.change_of_tryAcquire reachable idle due permit
    refine claimed.upholds_of_claim ?_ (mirrors.settled reachable)
    rw [← mirrors.table]
    exact reachable.orderly.sound

/-- What a stretch that asks for nothing leads to: the running thread is on its way to a check, or
it is not lowered and was not on its way to one. -/
theorem Mirrors.stretch_upholds {head : Frame} {below : List Frame} {progress : Progress}
    (call : s.currentThread.call = head :: below)
    (advances : Advances s.current s.kernel head kernel progress)
    (proceeds : progress.request = .proceed) :
    (∃ x rest, progress.frames = .up x :: rest) ∨ (∃ rest, progress.frames = .check :: rest) ∨
      Upholds s.kernel.table s.current kernel.table ∧ head ≠ .check ∧ ∀ x, head ≠ .up x := by
  cases advances with
  | queues | registers | wakes | checks => cases proceeds
  | givesUp | signals | broadcasts => exact Or.inl ⟨_, _, rfl⟩
  | raises => exact Or.inr (Or.inl ⟨_, rfl⟩)
  | acquires registers permit claims =>
    exact Or.inr (Or.inr ⟨mirrors.upholds_of_acquire reachable call
      (.acquires registers permit claims) proceeds, nofun, nofun⟩)
  | opens | waits | takes | retries | reacquires | holds | signalsNobody | broadcastsNobody
  | returns | leaves => exact Or.inr (Or.inr ⟨.refl _ _, nofun, nofun⟩)

/-- A thread inside a call that goes on to run is outranked only where it will let a more urgent
one run. -/
theorem due_of_goes {progress : Progress} {flag : Bool} (due : s.Outranked → s.Due)
    (busy : s.currentThread.call ≠ [])
    (steps : Frame.step s.current s.currentThread.call s.kernel = ⟨.ok progress, kernel, events⟩)
    (heeds : Heeds s kernel progress.request queue flag none)
    (shifts : Shifts s s₁
      { s.currentThread with call := progress.frames, yieldOnReturn := flag } kernel queue)
    (outranked : s₁.Outranked) : s₁.Due := by
  cases call : s.currentThread.call with
  | nil => exact absurd call busy
  | cons head below =>
  rw [call] at steps
  obtain ⟨advance, advanced, rfl⟩ := step_eq_ok steps
  have advances := advances_of_ok (mirrors.quiet reachable) advanced
  have frames : s₁.currentThread.call = advance.frames ++ below :=
    congrArg SimThread.call shifts.currentThread
  generalize requested : advance.request = request at heeds
  cases heeds with
  | proceeds =>
    rcases mirrors.stretch_upholds reachable call advances requested with
      ⟨x, rest, is⟩ | ⟨rest, is⟩ | ⟨upholds, notCheck, notUp⟩
    · exact .raises (is ▸ frames)
    · exact .checks (is ▸ frames)
    · cases due (shifts.outranked rfl upholds outranked) with
      | raises here => exact absurd (List.cons.inj (call.symm.trans here)).1 (notUp _)
      | checks here => exact absurd (List.cons.inj (call.symm.trans here)).1 notCheck
      | noted inside asked => exact shifts.noted (advances.inInterrupt.trans inside) asked
      | returns idle => exact absurd idle busy
  | wakes notReady =>
    cases advances with
    | wakes => exact .checks frames
    | _ => cases requested
  | calm top =>
    obtain ⟨u, ready, above⟩ := outranked
    rw [shifts.queue_eq] at ready
    rw [shifts.kernel_eq, shifts.current] at above
    exact absurd (top u ready) (Nat.not_le_of_lt above)
  | defers inside => exact shifts.noted inside rfl

end Mirrors

/-- A turn without a switch leaves the running thread outranked only where it will let a more urgent
one run. -/
theorem due_of_turn (mirrors : Mirrors settings none s σ) (reachable : Reachable scheduled σ)
    (urgent : s.Urgent) (turn : Turn s s₁ none) (outranked : s₁.Outranked) : s₁.Due := by
  -- a thread between calls that is outranked has a handler that has noted it
  have noted : ∀ {t kernel}, Shifts s s₁ t kernel s.queue → s.currentThread.call = [] →
      Upholds s.kernel.table s.current kernel.table →
        s.currentThread.yieldOnReturn = true ∧ (s.kernel.inInterrupt = true ∨
          ∃ below, s.currentThread.script = .handlerReturned :: below) :=
    fun shifts idle upholds => (urgent.due (shifts.outranked rfl upholds outranked)).of_idle idle
  cases turn with
  | rests => exact urgent.due outranked
  | thinks idle due unrolls shifts =>
    obtain ⟨asked, inside | ⟨below, next⟩⟩ := noted shifts idle (.refl _ _)
    · exact shifts.noted inside asked
    · obtain ⟨rfl, -⟩ := List.cons.inj (due.symm.trans next)
      cases unrolls
  | answers idle due asks shifts =>
    have answers := answers_of_ok (mirrors.quiet reachable) asks
    obtain ⟨asked, inside | ⟨below, next⟩⟩ :=
      noted shifts idle (mirrors.upholds_of_answers reachable idle due answers)
    · exact shifts.noted (answers.inInterrupt.trans inside) asked
    · exact nomatch due.symm.trans next
  | spawns idle due adds notReady kernel queue current main thread has joinable =>
    have call : s₁.currentThread.call = [.check, .leave s.kernel.depth] := by
      unfold currentThread
      rw [current, thread, if_pos rfl]
    exact .checks call
  | rebases idle due changes shifts =>
    exact .checks (congrArg SimThread.call shifts.currentThread)
  | interrupts idle due outside shifts =>
    obtain ⟨-, inside | ⟨below, next⟩⟩ := noted shifts idle (.refl _ _)
    · exact nomatch inside.symm.trans outside
    · exact nomatch due.symm.trans next
  | handled idle due shifts =>
    obtain ⟨asked, -⟩ := noted shifts idle (.refl _ _)
    have own := urgent.paired s.current
    rw [show (s.thread s.current).script = _ :: _ from due] at own
    obtain ⟨below, next⟩ := own.1 ⟨_, rfl⟩
    have now : s₁.currentThread.script = .handlerReturned :: below := by
      rw [shifts.currentThread]
      exact next
    exact .returns (by rw [shifts.currentThread]; exact idle) now
      (by rw [shifts.currentThread]; exact asked)
  | returns idle due unasked shifts =>
    obtain ⟨asked, -⟩ := noted shifts idle (.refl _ _)
    exact nomatch asked.symm.trans unasked
  | finishes idle due shifts =>
    obtain ⟨asked, inside | ⟨below, next⟩⟩ := noted shifts idle (.refl _ _)
    · exact shifts.noted inside asked
    · exact nomatch due.symm.trans next
  | goes busy steps heeds shifts =>
    exact due_of_goes mirrors reachable urgent.due busy steps heeds shifts outranked

/-! ### Switches -/

/-- Nobody outranks the thread that a switch has picked. -/
theorem not_outranked_switched {how : Switch} {next : ThreadId}
    (foremost : Foremost s.kernel.table (s.contenders (some how)) next) :
    ¬ (s.switched how next).Outranked := by
  rintro ⟨u, ready, above⟩
  exact absurd (foremost.rank_le (List.mem_of_mem_erase ready)) (Nat.not_le_of_lt above)

/-! ### Runs -/

theorem urgent_start {main : ThreadId} {table : ThreadTable} :
    Urgent (settings.start script table main) where
  due := fun ⟨_, ready, _⟩ => absurd ready List.not_mem_nil
  paired := by
    intro u
    have whole : Paired [.actions script, .returned] := ⟨nofun, nofun, trivial⟩
    rw [thread_start]
    split
    · exact whole
    · trivial

section Reached

variable (fits : settings.Fits script) (reached : Reached settings script s)
include fits reached

/-- The running thread is outranked only where it will let a more urgent one run. -/
theorem Reached.urgent : s.Urgent := by
  induction reached with
  | start boots => exact urgent_start
  | @step s before sound ih =>
    have mirrored := before.mirrored fits
    have stepped := mirrored.stepped sound
    generalize (Simulation.step s).state = s' at stepped ⊢
    cases stepped with
    | goesOn run =>
      have turn := mirrored.turn_of_run run
      obtain ⟨σ, reachable, mirrors⟩ := mirrored
      exact ⟨due_of_turn mirrors reachable ih turn, paired_of_turn ih.paired turn⟩
    | switches run foremost =>
      have turn := mirrored.turn_of_run run
      refine ⟨fun outranked => absurd outranked (not_outranked_switched foremost), fun u => ?_⟩
      rw [script_switched (mirrored.turn turn).has]
      exact paired_of_turn ih.paired turn u

end Reached

/-- Whether a handler has just returned. -/
def atReturn : List Pending → Bool
  | .handlerReturned :: _ => true
  | _ => false

/-- The running thread is between calls, and in no handler nor at the return of one. -/
structure RunsOwnCode (s : Simulation) : Prop where
  idle : s.currentThread.call = []
  outside : s.kernel.inInterrupt = false
  settled : atReturn s.currentThread.script = false

instance (s : Simulation) : Decidable s.RunsOwnCode :=
  decidable_of_iff (s.currentThread.call = [] ∧ s.kernel.inInterrupt = false ∧
      atReturn s.currentThread.script = false)
    ⟨fun own => ⟨own.1, own.2.1, own.2.2⟩, fun own => ⟨own.idle, own.outside, own.settled⟩⟩

theorem RunsOwnCode.not_due (own : s.RunsOwnCode) : ¬ s.Due := by
  intro due
  obtain ⟨-, inside | ⟨below, next⟩⟩ := due.of_idle own.idle
  · exact nomatch inside.symm.trans own.outside
  · have settled := own.settled
    rw [next] at settled
    cases settled

/-- As long as no step has ended in a fault, caught or not, a most urgent thread runs. Whenever the
running thread is in its own code, outside handlers, its effective priority is at least that of every
ready thread; and under donation it is at least that of every thread whose wait chain leads to a ready
thread or to the running one. -/
theorem most_urgent_runs (fits : settings.Fits script) (reached : Reached settings script s)
    (own : s.RunsOwnCode) :
    ∃ r, s.kernel.table.get? s.current = some r ∧
      (∀ u ∈ s.queue.ready, ∃ ru, s.kernel.table.get? u = some ru ∧ ru.priority ≤ r.priority) ∧
      (s.kernel.mode.donates = true → ∀ u v ru, s.kernel.table.get? u = some ru →
        TransGen s.kernel.table.Awaits u v → v = s.current ∨ v ∈ s.queue.ready →
          ru.priority ≤ r.priority) := by
  obtain ⟨σ, reachable, mirrors⟩ := reached.mirrored fits
  have live : ∀ u ∈ s.contenders none, ∃ ru, s.kernel.table.get? u = some ru := by
    intro u contends
    have alive := ((mirrors.contends u).mp contends).1
    unfold System.Live at alive
    rw [mirrors.table] at alive
    exact contains_iff.mp alive
  obtain ⟨r, found⟩ := live s.current (by simp [contenders])
  have top : ∀ u ∈ s.queue.ready, rank s.kernel.table u ≤ rank s.kernel.table s.current :=
    fun u ready => Nat.le_of_not_lt fun above =>
      own.not_due ((reached.urgent fits).due ⟨u, ready, above⟩)
  rw [rank_of_get? found] at top
  refine ⟨r, found, fun u ready => ?_, fun donating u v ru foundU chain ends => ?_⟩
  · obtain ⟨ru, foundU⟩ := live u (List.mem_append_left _ ready)
    exact ⟨ru, foundU, rank_of_get? foundU ▸ top u ready⟩
  · have covered := (mirrors.settled reachable donating).toCovered
    have upTo := covered.rank_le_of_chain chain.to_reflTransGen
    rw [rank_of_get? foundU] at upTo
    rcases ends with rfl | ready
    · exact rank_of_get? found ▸ upTo
    · exact Nat.le_trans upTo (top v ready)

/-! ### A holder between its waiter and a third thread -/

/-- One lock, and a main thread of low priority. -/
def inversion : Settings := { mainLevel := 10, locks := 1 }

/-- The main thread takes the lock, for which a thread of high priority comes to wait; then there is
a thread of middle priority. -/
def inverted : List Action :=
  [.call (.acquire (inversion.lock 0)),
    .spawn "high" 40 [.call (.acquire (inversion.lock 0))] none,
    .spawn "middle" 20 [] none, .call (.release (inversion.lock 0))]

theorem inversion_fits : inversion.Fits inverted := by
  have offered : inversion.OffersLock (inversion.lock 0) := ⟨0, by decide, rfl⟩
  refine ⟨nofun, ?_⟩
  simp [inverted, Settings.Admits, Settings.AdmitsAction, Settings.Offers, offered]

/-- The thread of low priority runs its own code, with the priority of the one that waits for it. -/
theorem holder_outranks_middle : ∃ s r ru, Reached inversion inverted s ∧ s.RunsOwnCode ∧
    s.queue.ready = [⟨2, 0⟩] ∧ s.kernel.table.get? s.current = some r ∧
      s.kernel.table.get? ⟨1, 0⟩ = some ru ∧ ru.priority.level = 40 ∧ ru.priority ≤ r.priority := by
  have plays : ((inversion.start inverted (inversion.table (.empty 0)).state ⟨0, 0⟩).play 19).map
      (fun s => decide (s.RunsOwnCode ∧ s.queue.ready = [⟨2, 0⟩] ∧ s.kernel.mode.donates = true ∧
        s.current = ⟨0, 0⟩ ∧ s.kernel.table.ahead? ⟨1, 0⟩ = some ⟨0, 0⟩ ∧
        s.kernel.table.get? ⟨1, 0⟩ =
          some ⟨"high", ⟨40, by decide⟩, ⟨40, by decide⟩, some ⟨1⟩, []⟩)) = some true := by
    decide +kernel
  obtain ⟨s, played, facts⟩ := Option.map_eq_some_iff.mp plays
  obtain ⟨own, ready, donating, current, edge, waiter⟩ := of_decide_eq_true facts
  have reached : Reached inversion inverted s := (Reached.start rfl).play played
  obtain ⟨r, found, -, above⟩ := most_urgent_runs inversion_fits reached own
  have chain : TransGen s.kernel.table.Awaits ⟨1, 0⟩ ⟨0, 0⟩ := .single edge
  exact ⟨s, r, _, reached, own, ready, found, waiter, rfl,
    above donating _ _ _ waiter chain (Or.inl current.symm)⟩

/-! ### Faults that are caught

A call that has been cut short may have registered its thread for a lock, and the registration stays
when the fault is caught. So a thread can be gone while it is listed as a donor, and a release that
looks for it loses the whole list. -/

/-- Five locks, and a semaphore without a permit. -/
def fraying : Settings := { counts := [0], locks := 5 }

/-- What the more urgent thread does: it waits for a lock of the main thread. -/
def waiterScript : List Action :=
  [.call (.acquire (fraying.lock 2)), .call (.acquire (fraying.lock 1))]

/-- What the second thread does: in a circle with the main thread it registers as a donor of it, and
it takes and gives back a free lock before it ends. -/
def donorScript : List Action :=
  [.call (.acquire (fraying.lock 3)), .call (.up ⟨0⟩),
    .attempt [.call (.acquire (fraying.lock 0))], .call (.acquire (fraying.lock 4)),
    .call (.release (fraying.lock 4)), .call (.release (fraying.lock 3))]

/-- The main thread waits until that thread has gone, and loses its donors over it. A circle with the
more urgent thread leaves it registered for a lock of that, so that the change of its priority is cut
short. After an interrupt it takes a free lock, and yields. -/
def frayed : List Action :=
  [.call (.acquire (fraying.lock 0)), .call (.acquire (fraying.lock 1)),
    .spawn "high" 40 waiterScript none, .spawn "donor" 35 donorScript none,
    .call (.down ⟨0⟩), .call (.acquire (fraying.lock 3)),
    .spawn "last" 1 [] none, .join "last",
    .attempt [.call (.release (fraying.lock 0))], .attempt [.call (.acquire (fraying.lock 2))],
    .spawn "middle" 20 [] none, .attempt [.setPriority 5], .interrupt [],
    .call (.acquire (fraying.lock 4)), .yield]

def frayingStart : Simulation := fraying.start frayed (fraying.table (.empty 0)).state ⟨0, 0⟩

theorem journey_fraying {count : Nat} {path : List Simulation}
    (played : playJourney count [] frayingStart = some (path, s)) : Journey fraying frayed path s :=
  Journey.play (.start rfl) played

/-- A run that ends well, with no failure on record at any step shown, and no handler that a fault has
left. First the main thread is in its own code, and a ready thread is more urgent. Later a thread is in
its own code while a more urgent one waits for a lock of the main thread, which is ready. -/
theorem caught_faults_leave_outranked :
    (run fraying frayed).outcome = .ok () ∧
    (∃ path s, Journey fraying frayed path s ∧ s.queue.failure = none ∧ s.RunsOwnCode ∧
      s.Outranked) ∧
    ∃ path s, Journey fraying frayed path s ∧ s.queue.failure = none ∧ s.RunsOwnCode ∧
      s.kernel.mode.donates = true ∧ ∃ u, ∃ v ∈ s.queue.ready,
        TransGen s.kernel.table.Awaits u v ∧ rank s.kernel.table s.current < rank s.kernel.table u := by
  refine ⟨by decide +kernel, ?_, ?_⟩
  · have plays : (playJourney 118 [] frayingStart).map (fun played =>
        decide (played.2.queue.failure = none ∧ played.2.RunsOwnCode ∧ played.2.Outranked)) =
          some true := by
      decide +kernel
    obtain ⟨⟨path, s⟩, played, facts⟩ := Option.map_eq_some_iff.mp plays
    exact ⟨path, s, journey_fraying played, of_decide_eq_true facts⟩
  · have plays : (playJourney 129 [] frayingStart).map (fun played =>
        decide (played.2.queue.failure = none ∧ played.2.RunsOwnCode ∧
          played.2.kernel.mode.donates = true ∧ ⟨0, 0⟩ ∈ played.2.queue.ready ∧
          played.2.kernel.table.ahead? ⟨1, 0⟩ = some ⟨0, 0⟩ ∧
          rank played.2.kernel.table played.2.current < rank played.2.kernel.table ⟨1, 0⟩)) =
          some true := by
      decide +kernel
    obtain ⟨⟨path, s⟩, played, facts⟩ := Option.map_eq_some_iff.mp plays
    obtain ⟨unfailed, own, donating, ready, edge, above⟩ := of_decide_eq_true facts
    exact ⟨path, s, journey_fraying played, unfailed, own, donating, _, _, ready, .single edge, above⟩

end Simulation

end KernelSync
