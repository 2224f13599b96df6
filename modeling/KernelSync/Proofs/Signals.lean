import KernelSync.Proofs.Waits

/-!
Signals of condition variables over whole runs. Every wait registers once, a signal takes out one
registration if there is any, and the thread of a registration gets past its semaphore once, after
the registration has been taken out; and a wait ends with its lock held again (`signals_exact`).
-/

namespace KernelSync

/-- Whether a wait is about to be called. -/
def Frame.waits : Frame → Bool
  | .call (.wait _ _) => true
  | _ => false

theorem Frame.mayWait_of_passes {p : SemaphoreId} {frame : Frame} (passes : frame.passes p = true) :
    frame.mayWait = true := by
  match frame, passes with
  | .call (.down _), _ | .down _, _ | .downQueued _, _ => rfl

namespace System

variable {s s' : System} {t u : ThreadId} {move : Move} {head : Frame} {rest : List Frame}
  {kernel : Kernel} {progress : Progress} {c : CondvarId} {w : Waiter} {l : Lock} {stage : Stage}
  {path : List Made}

/-! ### All moves -/

theorem tally_of_frames {kind : Frame → Bool}
    (same : (s'.activity u).frames = (s.activity u).frames) : s'.tally u kind = s.tally u kind := by
  unfold tally
  rw [same]

/-- In the middle of a section nobody else moves. -/
theorem eq_go_of_within (allowed : s.Allowed move) (inside : s.phase = .within t) :
    move = .go t := by
  cases move with
  | go u => rw [eq_of_within allowed.1 inside]
  | newSemaphore | call | short => exact nomatch inside.symm.trans allowed.1
  | newLock | newCondvar | spawn | remove | setBase | setEffective | interrupt =>
    exact nomatch inside.symm.trans allowed

/-- A move brings a wait at most one stage further. -/
theorem Moved.standing (moved : Moved s move s') (orderly : Orderly s) (attended : Attended s)
    (allowed : s.Allowed move) (obeys : exitsClear s move) (standing : Standing s c w stage) :
    ∃ stage', Standing s' c w stage' ∧ Brings c w ⟨s, move, s'⟩ stage stage' := by
  by_cases go : ∃ t, move = .go t
  · obtain ⟨t, rfl⟩ := go
    cases moved with
    | went busy advances =>
      exact standing_after orderly busy allowed.1 advances standing attended
  -- when a signal is in the middle of its section, nobody else moves
  have quiet : stage ≠ .signaled := by
    intro signaled
    obtain ⟨u, -, inside, -⟩ := standing.raised signaled
    exact go ⟨u, eq_go_of_within allowed inside⟩
  have stays : Brings c w ⟨s, move, s'⟩ stage stage := by
    cases move with
    | go t => exact absurd ⟨t, rfl⟩ go
    | newSemaphore | newLock | newCondvar | spawn | remove | setBase | setEffective | interrupt
    | call | short => exact .stays quiet rfl rfl
  refine ⟨stage, ?_, stays⟩
  have unshared := standing.unshared
  have old := unshared.1.1
  have apart : w.semaphore ≠ s.kernel.nextSemaphore := by
    intro same
    rw [same] at old
    exact Nat.lt_irrefl _ old
  -- what a call names is not the semaphore of a wait
  have named : ∀ made, s.Names made → ∀ kind,
      kind = Frame.passes w.semaphore ∨ kind = Frame.adds w.semaphore →
        kind (.call made) = false := by
    intro made names kind is
    cases made with
    | down x | up x =>
      have other : x ≠ w.semaphore := fun same => unshared.2 (same ▸ names)
      rcases is with rfl | rfl
      · simp [Frame.passes, other]
      · simp [Frame.adds, other]
    | acquire | release | wait | signal | broadcast => rcases is with rfl | rfl <;> rfl
  have taken : ∀ x, x ≠ w.semaphore → (s.kernel.permitTaken x).permits w.semaphore =
      s.kernel.permits w.semaphore := fun x other => Kernel.permits_setSemaphore_of_ne other.symm
  cases moved with
  | @newSemaphore count =>
    refine standing.aside quiet ⟨⟨?_, unshared.1.2⟩, fun mem => ?_⟩ (fun d => .refl _)
      (Kernel.permits_addSemaphore apart) (fun _ => Kernel.queue_addSemaphore) (fun _ => rfl)
      fun _ => rfl
    · exact Nat.lt_of_lt_of_le old (by simp)
    · rcases List.mem_append.mp mem with before | new
      · exact unshared.2 before
      · exact apart (List.mem_singleton.mp new)
  | newLock =>
    refine standing.aside quiet ⟨⟨?_, fun lock mem => ?_⟩, unshared.2⟩ (fun d => .refl _)
      (Kernel.permits_addSemaphore apart) (fun _ => Kernel.queue_addSemaphore) (fun _ => rfl)
      fun _ => rfl
    · exact Nat.lt_of_lt_of_le old (by simp)
    · rcases List.mem_append.mp mem with before | new
      · exact unshared.1.2 lock before
      · rw [List.mem_singleton.mp new]
        exact apart.symm
  | newCondvar =>
    refine standing.aside quiet unshared (fun d => ?_) rfl (fun _ => rfl) (fun _ => rfl) fun _ => rfl
    unfold Kernel.listed
    rw [waiters_withCondvar]
  | spawned | full | rebased | reranked | interrupt =>
    exact standing.aside quiet unshared (fun d => .refl _) rfl (fun _ => rfl) (fun _ => rfl)
      fun _ => rfl
  | @removed t table =>
    -- whoever leaves has nothing to do with the wait
    have away : s.tally t (Frame.passes w.semaphore) = 0 :=
      List.countP_eq_zero.mpr fun frame mem passes =>
        Bool.false_ne_true ((obeys frame mem).symm.trans (Frame.mayWait_of_passes passes))
    have same : ∀ kind, s.tally t kind = 0 → ∀ u,
        ((s.withTable table).become t {}).tally u kind = s.tally u kind := by
      intro kind none u
      by_cases here : u = t
      · subst here
        rw [none]
        exact congrArg (List.countP kind) (congrArg Activity.frames (if_pos rfl))
      · exact tally_of_frames (congrArg Activity.frames (if_neg here))
    exact standing.aside quiet unshared (fun d => .refl _) rfl (fun _ => rfl) (same _ away)
      (same _ (standing.raising quiet t))
  | @called t made =>
    have tallies : ∀ kind, kind = Frame.passes w.semaphore ∨ kind = Frame.adds w.semaphore →
        ∀ u, (s.become t { s.activity t with frames := [.call made] }).tally u kind =
          s.tally u kind := by
      intro kind is u
      by_cases here : u = t
      · subst here
        have before : s.tally u kind = 0 := congrArg (List.countP kind) allowed.2.1.2
        have after : (s.become u { s.activity u with frames := [.call made] }).tally u kind =
            [Frame.call made].countP kind :=
          congrArg (List.countP kind) (congrArg Activity.frames (if_pos rfl))
        rw [before, after, List.countP_singleton, named made allowed.2.2 kind is]
        rfl
      · exact tally_of_frames (congrArg Activity.frames (if_neg here))
    exact standing.aside quiet unshared (fun d => .refl _) rfl (fun _ => rfl)
      (tallies _ (Or.inl rfl)) (tallies _ (Or.inr rfl))
  | @answered t call kernel answer answers =>
    cases answers with
    | refuses | denies | looks =>
      exact standing.aside quiet unshared (fun d => .refl _) rfl (fun _ => rfl) (fun _ => rfl)
        fun _ => rfl
    | @takes x =>
      have other : x ≠ w.semaphore := fun same => unshared.2 (same ▸ allowed.2.2)
      refine standing.aside quiet ⟨⟨?_, unshared.1.2⟩, unshared.2⟩ (fun d => .refl _)
        (taken x other) (fun _ => Kernel.queue_setSemaphore rfl) (fun _ => rfl) fun _ => rfl
      exact Nat.lt_of_lt_of_le old (by simp [Kernel.permitTaken, kernelAt])
    | @acquires lock =>
      have other : lock.semaphore ≠ w.semaphore := unshared.1.2 lock allowed.2.2
      refine standing.aside quiet ⟨⟨?_, unshared.1.2⟩, unshared.2⟩ (fun d => .refl _)
        (taken _ other) (fun _ => Kernel.queue_setSemaphore rfl) (fun _ => rfl) fun _ => rfl
      exact Nat.lt_of_lt_of_le old (by simp [Kernel.permitTaken, Kernel.setTable, kernelAt])
  | @went t => exact absurd ⟨t, rfl⟩ go

/-- On a path a wait comes as many stages further as moves have brought it. -/
theorem Standing.along (standing : Standing s c w stage) (reachable : Reachable exitsIdle s)
    (leads : Path s path s') (obeys : ∀ made ∈ path, exitsIdle made.before made.move) :
    ∃ stage', Standing s' c w stage' ∧
      stage'.removals = stage.removals + path.countP (Made.removes c w) ∧
      stage'.passages = stage.passages + path.countP (Made.passes w) := by
  induction leads generalizing stage with
  | rest => exact ⟨stage, standing, rfl, rfl⟩
  | move allowed ends goesOn ih =>
    have obeysNow := obeys _ List.mem_cons_self
    have moved := reachable.moved allowed ends
    obtain ⟨mid, standing', brings⟩ :=
      moved.standing reachable.orderly reachable.attended allowed (exitsClear_of_idle obeysNow)
        standing
    obtain ⟨last, standing'', removals, passages⟩ := ih standing'
      (.move reachable allowed obeysNow ends)
      fun made later => obeys made (List.mem_cons_of_mem _ later)
    refine ⟨last, standing'', ?_, ?_⟩
    · rw [removals, List.countP_cons]
      cases brings with
      | stays _ keeps | grants keeps | passes keeps => simp [keeps, Stage.removals]
      | signals removes => simp [removes, Stage.removals, Nat.add_comm]
    · rw [passages, List.countP_cons]
      cases brings with
      | stays _ _ waits | signals _ waits | grants _ waits => simp [waits, Stage.passages]
      | passes _ passes => simp [passes, Stage.passages, Nat.add_comm]

/-! ### The beginning of a wait -/

/-- A wait is called on a condition variable that is there, and by a thread that does nothing
else. -/
def WaitsBegin (s : System) : Prop := ∀ t c l, .call (.wait c l) ∈ (s.activity t).frames →
  c.index < s.kernel.condvars.length ∧ (s.activity t).frames = [.call (.wait c l)]

/-- No stretch ends with a wait about to be called. -/
theorem waits_of_advances {me : ThreadId} {k k' : Kernel} {frame : Frame}
    (advances : Advances me k frame k' progress) : progress.frames.all fun f => !f.waits := by
  cases advances with
  | @opens call frames opening =>
    cases call with
    | wait => cases opening
    | down | up | acquire | release | signal | broadcast =>
      cases opening
      rfl
  | waits | takes | queues | retries | acquires | registers | reacquires | raises | wakes | checks
  | givesUp | holds | signalsNobody | signals | broadcastsNobody | broadcasts | returns | leaves =>
    rfl

/-- Calls stay on what there is if there is no less than before and no frames have come. -/
theorem WaitsBegin.of_kept (begins : WaitsBegin s)
    (more : s.kernel.condvars.length ≤ s'.kernel.condvars.length)
    (same : ∀ u, (s'.activity u).frames = (s.activity u).frames ∨ (s'.activity u).frames = []) :
    WaitsBegin s' := by
  intro u c l mem
  rcases same u with same | gone
  · rw [same] at mem ⊢
    obtain ⟨present, alone⟩ := begins u c l mem
    exact ⟨Nat.lt_of_lt_of_le present more, alone⟩
  · rw [gone] at mem
    cases mem

theorem Moved.waitsBegin (moved : Moved s move s') (allowed : s.Allowed move)
    (begins : WaitsBegin s) : WaitsBegin s' := by
  cases moved with
  | newSemaphore | newLock | spawned | full | rebased | reranked | interrupt =>
    exact begins.of_kept (Nat.le_refl _) fun _ => Or.inl rfl
  | newCondvar => exact begins.of_kept (by simp) fun _ => Or.inl rfl
  | answered answers =>
    exact begins.of_kept (Nat.le_of_eq answers.condvars_length.symm) fun _ => Or.inl rfl
  | @removed t =>
    refine begins.of_kept (Nat.le_refl _) fun u => ?_
    by_cases here : u = t
    · exact Or.inr (congrArg Activity.frames (if_pos here))
    · exact Or.inl (congrArg Activity.frames (if_neg here))
  | @called t made =>
    intro u c l mem
    by_cases here : u = t
    · have frames : ((s.become t { s.activity t with frames := [.call made] }).activity u).frames =
          [.call made] := congrArg Activity.frames (if_pos here)
      rw [frames] at mem ⊢
      cases List.mem_singleton.mp mem
      exact ⟨allowed.2.2.1, rfl⟩
    · have same : ((s.become t { s.activity t with frames := [.call made] }).activity u).frames =
          (s.activity u).frames := congrArg Activity.frames (if_neg here)
      rw [same] at mem ⊢
      exact begins u c l mem
  | @went t head rest kernel progress busy advances =>
    have more : s.kernel.condvars.length ≤ kernel.condvars.length :=
      Nat.le_of_eq advances.condvars_length.symm
    show WaitsBegin (after s t rest kernel progress)
    intro u c l mem
    by_cases here : u = t
    · subst here
      rw [frames_after_self] at mem
      rcases List.mem_append.mp mem with new | below
      · exact nomatch List.all_eq_true.mp (waits_of_advances advances) _ new
      · have alone := (begins u c l (busy ▸ List.mem_cons_of_mem _ below)).2
        rw [busy] at alone
        cases alone
        cases below
    · rw [frames_after_of_ne here] at mem ⊢
      obtain ⟨present, alone⟩ := begins u c l mem
      exact ⟨Nat.lt_of_lt_of_le present more, alone⟩

theorem Reachable.waitsBegin {rule : Rule} (reachable : Reachable rule s) : WaitsBegin s := by
  induction reachable with
  | start small =>
    intro t c l mem
    cases mem
  | move before allowed obeys ends ih => exact (before.moved allowed ends).waitsBegin allowed ih

/-- In the move the thread of `w` begins to wait on `c` with `l`: it registers with a new semaphore,
behind all others. -/
structure Made.Registers (c : CondvarId) (l : Lock) (w : Waiter) (made : Made) : Prop where
  move : made.move = .go w.thread
  here : made.before.at? w.thread = some (.call (.wait c l))
  fresh : w.semaphore = made.before.kernel.nextSemaphore
  added : made.after.kernel.waiters c = made.before.kernel.waiters c ++ [w]
  others : ∀ d, d ≠ c → made.after.kernel.waiters d = made.before.kernel.waiters d

/-- In the move a thread signals on `c`: it takes the registration `w` out, and no other, and will
add a permit to its semaphore before anybody else moves. -/
structure Made.Signals (c : CondvarId) (w : Waiter) (made : Made) : Prop where
  move : ∃ u, made.move = .go u ∧
    (made.before.at? u = some (.signal c) ∨ made.before.at? u = some (.broadcast c)) ∧
    made.after.at? u = some (.up w.semaphore) ∧ made.after.phase = .within u
  removed : (w :: made.after.kernel.waiters c).Perm (made.before.kernel.waiters c)
  others : ∀ d, d ≠ c → made.after.kernel.waiters d = made.before.kernel.waiters d

/-- Nobody has to do with a semaphore that is yet to be made. -/
theorem tally_next (orderly : Orderly s) {kind : Frame → Bool}
    (is : kind = Frame.passes s.kernel.nextSemaphore ∨ kind = Frame.adds s.kernel.nextSemaphore) :
    s.tally u kind = 0 := by
  have beyond : ¬ s.kernel.nextSemaphore.index < s.kernel.semaphores.length := Nat.lt_irrefl _
  refine List.countP_eq_zero.mpr fun frame mem kindly => beyond ?_
  have fine := orderly.fine u frame mem
  have spare : ∀ x, s.Spare x → decide (x = s.kernel.nextSemaphore) = true →
      s.kernel.nextSemaphore.index < s.kernel.semaphores.length := by
    intro x spare same
    exact of_decide_eq_true same ▸ spare.1
  rcases is with rfl | rfl
  · match frame, fine, kindly with
    | .call (.down x), fine, same | .down x, fine, same | .downQueued x, fine, same =>
      exact spare x fine same
  · match frame, fine, kindly with
    | .call (.up x), fine, same => exact spare x fine same
    | .up x, Or.inl fine, same => exact spare x fine same
    | .up x, Or.inr ⟨lock, mem, is⟩, same =>
      have index := orderly.furnished.lock_index lock mem
      rw [is, of_decide_eq_true same] at index
      exact index

section Begin

variable (begins : WaitsBegin s)
  (busy : (s.activity t).frames = .call (.wait c l) :: rest)
  (advances : Advances t (s.kernelAt t) (.call (.wait c l)) kernel progress)
include begins busy advances

theorem registers_of_go :
    Made.Registers c l ⟨t, s.kernel.nextSemaphore⟩ ⟨s, .go t, after s t rest kernel progress⟩ := by
  have present := (begins t c l (busy ▸ List.mem_cons_self)).1
  cases advances with
  | opens opening => cases opening
  | waits =>
    exact
      { move := rfl
        here := at?_of_frames busy
        fresh := rfl
        added := Kernel.waiters_setWaiters_self present
        others := fun d apart => Kernel.waiters_setWaiters_of_ne apart }

/-- A wait begins with its registration, and nobody else has to do with its semaphore. -/
theorem standing_registered (orderly : Orderly s) :
    Standing (after s t rest kernel progress) c ⟨t, s.kernel.nextSemaphore⟩ .registered := by
  have registers := registers_of_go begins busy advances
  have furnished := orderly.furnished
  have before : ∀ d, s.kernel.listed s.kernel.nextSemaphore d = [] := by
    intro d
    refine List.eq_nil_iff_forall_not_mem.mpr fun w mem => ?_
    obtain ⟨registered, same⟩ := Kernel.mem_listed.mp mem
    have spare := (furnished.registered d w registered).1
    rw [same] at spare
    exact Nat.lt_irrefl _ spare
  have ext : s.kernel.semaphores.length < kernel.semaphores.length := by
    cases advances with
    | opens opening => cases opening
    | waits => simp [Kernel.addSemaphore, Kernel.setWaiters, kernelAt]
  obtain ⟨permits, frames⟩ : kernel.permits s.kernel.nextSemaphore = 0 ∧ progress.frames =
      [.call (.release l), .call (.down s.kernel.nextSemaphore), .signaled l] := by
    cases advances with
    | opens opening => cases opening
    | waits => exact ⟨Kernel.permits_next (k := s.kernelAt t), rfl⟩
  have tally : ∀ kind, kind = Frame.passes s.kernel.nextSemaphore ∨
      kind = Frame.adds s.kernel.nextSemaphore → ∀ u,
        (after s t rest kernel progress).tally u kind =
          if u = t then progress.frames.countP kind else 0 := by
    intro kind is u
    by_cases here : u = t
    · have mine := tally_next (u := t) orderly is
      rw [tally_of_busy busy] at mine
      rw [if_pos here, here, tally_after_self]
      omega
    · rw [if_neg here, tally_after_of_ne here, tally_next orderly is]
  exact
    { unshared := ⟨spare_next furnished rfl ext, fun mem =>
        Nat.lt_irrefl _ (furnished.standalone _ mem).1⟩
      listed := fun d => by
        by_cases here : d = c
        · rw [if_pos ⟨rfl, here⟩, here]
          unfold Kernel.listed
          rw [registers.added, List.filter_append]
          have none := before c
          unfold Kernel.listed at none
          rw [none]
          simp
        · rw [if_neg fun both => here both.2]
          unfold Kernel.listed
          rw [registers.others d here]
          exact before d
      permits := permits
      passing := fun u => by
        rw [tally _ (Or.inl rfl), frames]
        by_cases here : u = t
        · simp [here, Frame.passes, Stage.passages]
        · simp [here]
      raising := fun _ u => by
        rw [tally _ (Or.inr rfl), frames]
        simp [Frame.adds]
      raised := by rintro ⟨⟩
      empty := by rintro (⟨⟨⟩⟩ | ⟨⟨⟩⟩) }

end Begin

theorem signals_of_delists (orderly : Orderly s) (busy : (s.activity t).frames = head :: rest)
    (delists : Delists (s.kernelAt t) kernel head progress c w) :
    Made.Signals c w ⟨s, .go t, after s t rest kernel progress⟩ where
  move := by
    refine ⟨t, rfl, ?_, raises_after orderly busy delists⟩
    have here : s.at? t = some head := at?_of_frames busy
    rw [here, Option.some.injEq, Option.some.injEq]
    exact delists.signals
  removed := delists.taken
  others := delists.others

/-- A move adds a registration, or takes one out, or leaves all. -/
theorem Moved.waiters (moved : Moved s move s') (orderly : Orderly s) (begins : WaitsBegin s) :
    (∃ c l w, Made.Registers c l w ⟨s, move, s'⟩) ∨ (∃ c w, Made.Signals c w ⟨s, move, s'⟩) ∨
      ∀ c, s'.kernel.waiters c = s.kernel.waiters c := by
  cases moved with
  | newCondvar => exact Or.inr (Or.inr fun c => waiters_withCondvar)
  | newSemaphore | newLock | spawned | full | removed | rebased | reranked | interrupt | called =>
    exact Or.inr (Or.inr fun c => rfl)
  | answered answers =>
    cases answers with
    | takes | refuses | acquires | denies | looks => exact Or.inr (Or.inr fun c => rfl)
  | went busy advances =>
    cases advances.lists with
    | leaves same => exact Or.inr (Or.inr same)
    | enlists waits =>
      subst waits
      exact Or.inl ⟨_, _, _, registers_of_go begins busy advances⟩
    | delists delists => exact Or.inr (Or.inl ⟨_, _, signals_of_delists orderly busy delists⟩)

theorem Moved.standing_of_registers (moved : Moved s move s') (orderly : Orderly s)
    (begins : WaitsBegin s) (registers : Made.Registers c l w ⟨s, move, s'⟩) :
    Standing s' c w .registered := by
  obtain ⟨is, here, fresh, -, -⟩ := registers
  obtain rfl : move = .go w.thread := is
  obtain ⟨below, busy⟩ := busy_of_at? here
  have same : w = ⟨w.thread, s.kernel.nextSemaphore⟩ := by rw [← show w.semaphore = _ from fresh]
  cases moved with
  | went frames advances =>
    cases busy.symm.trans frames
    rw [same]
    exact standing_registered begins busy advances orderly

/-- Whoever is registered waits, and the wait is at its first stage. -/
theorem Reachable.standing_of_clear (reachable : Reachable exitsClear s)
    (mem : w ∈ s.kernel.waiters c) : Standing s c w .registered := by
  induction reachable with
  | start small => cases mem
  | @move s s' move events before allowed obeys ends ih =>
    have moved := before.moved allowed ends
    have stays : w ∈ s.kernel.waiters c → Standing s' c w .registered := by
      intro earlier
      obtain ⟨stage, standing, -⟩ :=
        moved.standing before.orderly before.attended_of_clear allowed obeys (ih earlier)
      exact standing.mem_iff.mp mem ▸ standing
    rcases moved.waiters before.orderly before.waitsBegin with
      ⟨d, l, v, registers⟩ | ⟨d, v, signals⟩ | same
    · by_cases here : c = d
      · subst here
        rw [show s'.kernel.waiters c = _ from registers.added] at mem
        rcases List.mem_append.mp mem with earlier | new
        · exact stays earlier
        · obtain rfl := List.mem_singleton.mp new
          exact moved.standing_of_registers before.orderly before.waitsBegin registers
      · exact stays (registers.others c here ▸ mem)
    · by_cases here : c = d
      · subst here
        exact stays (signals.removed.mem_iff.mp (List.mem_cons_of_mem _ mem))
      · exact stays (signals.others c here ▸ mem)
    · exact stays (same c ▸ mem)

theorem Reachable.standing (reachable : Reachable exitsIdle s) (mem : w ∈ s.kernel.waiters c) :
    Standing s c w .registered :=
  (reachable.mono fun _ _ => exitsClear_of_idle).standing_of_clear mem

/-- A signal on a condition variable with registrations takes one out. -/
theorem Moved.signals (moved : Moved s (.go t) s') (reachable : Reachable exitsIdle s)
    (here : s.at? t = some (.signal c) ∨ s.at? t = some (.broadcast c))
    (some : s.kernel.waiters c ≠ []) :
    ∃ w, Made.Signals c w ⟨s, .go t, s'⟩ ∧
      ∀ d v, Made.removes d v ⟨s, .go t, s'⟩ = true ↔ d = c ∧ v = w := by
  have orderly := reachable.orderly
  cases moved with
  | @went _ head rest kernel progress busy advances =>
    have at_ : head = .signal c ∨ head = .broadcast c := by
      rwa [at?_of_frames busy, Option.some.injEq, Option.some.injEq] at here
    obtain ⟨w, delists⟩ : ∃ w, Delists (s.kernelAt t) kernel head progress c w := by
      cases advances with
      | signals sorted | broadcasts sorted =>
        obtain ⟨⟨⟩⟩ | ⟨⟨⟩⟩ := at_
        exact ⟨_, delists_of_sorted (by simp) sorted⟩
      | signalsNobody nobody | broadcastsNobody nobody =>
        obtain ⟨⟨⟩⟩ | ⟨⟨⟩⟩ := at_
        exact absurd nobody some
      | opens | waits | takes | queues | retries | acquires | registers | reacquires | raises
      | wakes | checks | givesUp | holds | returns | leaves => rcases at_ with ⟨⟨⟩⟩ | ⟨⟨⟩⟩
    have standing := reachable.standing (delists.taken.mem_iff.mp List.mem_cons_self)
    have gone := (standing_signaled orderly busy advances standing delists rfl).1
    refine ⟨w, signals_of_delists orderly busy delists, fun d v => ?_⟩
    rw [removes_of_go busy, decide_eq_true_eq]
    constructor
    · rintro ⟨-, before, after⟩
      by_cases same : d = c
      · subst same
        rcases List.mem_cons.mp (delists.taken.mem_iff.mpr before) with rfl | still
        · exact ⟨rfl, rfl⟩
        · exact absurd still after
      · exact absurd ((delists.others d same).symm ▸ before) after
    · rintro ⟨rfl, rfl⟩
      exact ⟨at_, standing.mem_iff.mpr rfl, fun mem => nomatch gone.mem_iff.mp mem⟩

/-! ### The end of a wait -/

/-- A thread begins to wait in the move. -/
def Made.enlists (t : ThreadId) (made : Made) : Bool :=
  match made.move with
  | .go u => u = t && (made.before.at? u).any Frame.waits
  | _ => false

/-- Where a thread is that has called a wait, and how often it has registered: about to register, on
its way to the permit, on its way back to the lock, with the lock in the section in which it has
taken it, or at the end of the wait, with the lock. -/
inductive Waiting (s : System) (t : ThreadId) (c : CondvarId) (l : Lock) : Nat → Prop where
  | called (frames : (s.activity t).frames = [.call (.wait c l)]) : Waiting s t c l 0
  | inside (above : List Frame) (frames : (s.activity t).frames = above ++ [.signaled l])
      (once : above.all fun f => !f.waits) : Waiting s t c l 1
  | returning (frames : (s.activity t).frames = [.call (.acquire l)] ∨
      ∃ saved, (s.activity t).frames = [.acquire l, .leave saved] ∨
        (s.activity t).frames = [.acquireQueued l, .leave saved]) : Waiting s t c l 1
  | holding {saved : Nat} (frames : (s.activity t).frames = [.leave saved])
      (inside : s.phase = .within t) (held : s.table.holder? l.id = some t) : Waiting s t c l 1
  | ended (frames : (s.activity t).frames = []) (held : s.table.holder? l.id = some t) :
      Waiting s t c l 1

/-- A move of anybody else leaves a thread where it is in its call. -/
theorem Moved.frames_eq (moved : Moved s move s') (allowed : s.Allowed move)
    (obeys : exitsIdle s move) (other : move ≠ .go t) (busy : (s.activity t).frames ≠ []) :
    (s'.activity t).frames = (s.activity t).frames := by
  cases moved with
  | newSemaphore | newLock | newCondvar | spawned | full | rebased | reranked | interrupt
  | answered => rfl
  | @removed u =>
    have apart : t ≠ u := fun same => busy (same ▸ obeys)
    exact congrArg Activity.frames (if_neg apart)
  | @called u =>
    have apart : t ≠ u := fun same => busy (same ▸ allowed.2.1.2)
    exact congrArg Activity.frames (if_neg apart)
  | @went u head rest kernel progress =>
    have apart : t ≠ u := fun same => other (same ▸ rfl)
    exact frames_after_of_ne apart

theorem enlists_of_go (busy : (s.activity t).frames = head :: rest) :
    Made.enlists t ⟨s, .go t, s'⟩ = head.waits := by
  unfold Made.enlists
  simp only [at?_of_frames busy, Option.any_some, decide_true, Bool.true_and]

/-- A stretch brings a thread further in its wait. -/
theorem waiting_after {count : Nat} (orderly : Orderly s) (allowed : s.Allowed (.go t))
    (moved : Moved s (.go t) s') (waiting : Waiting s t c l count) :
    Waiting s' t c l (count + if Made.enlists t ⟨s, .go t, s'⟩ then 1 else 0) := by
  cases moved with
  | @went _ head rest kernel progress busy advances =>
    show Waiting (after s t rest kernel progress) t c l _
    rw [enlists_of_go busy]
    have frames : ((after s t rest kernel progress).activity t).frames = progress.frames ++ rest :=
      frames_after_self
    cases waiting with
    | called now =>
      cases busy.symm.trans now
      cases advances with
      | opens opening => cases opening
      | waits => exact .inside [_, _] frames rfl
    | inside above now once =>
      cases above with
      | nil =>
        cases busy.symm.trans now
        cases advances
        exact .returning (Or.inl frames)
      | cons first others =>
        cases busy.symm.trans now
        obtain ⟨notWait, below⟩ : head.waits = false ∧ (others.all fun f => !f.waits) = true := by
          simpa using once
        rw [notWait]
        refine .inside (progress.frames ++ others) ?_ ?_
        · rw [frames, List.append_assoc]
          rfl
        · rw [List.all_append, waits_of_advances advances, below]
          rfl
    | returning now =>
      rcases now with now | ⟨saved, now | now⟩
      · cases busy.symm.trans now
        cases advances with
        | opens opening =>
          cases opening
          exact .returning (Or.inr ⟨_, Or.inl frames⟩)
      · cases busy.symm.trans now
        have holder := holder_after orderly busy allowed.1 allowed.2.1 advances l.id
        cases advances with
        | acquires =>
          exact .holding frames (phase_after rfl ⟨saved, List.mem_singleton.mpr rfl⟩)
            (holder.trans (if_pos rfl))
        | registers => exact .returning (Or.inr ⟨saved, Or.inr frames⟩)
      · cases busy.symm.trans now
        cases advances
        exact .returning (Or.inr ⟨saved, Or.inl frames⟩)
    | holding now inside held =>
      cases busy.symm.trans now
      cases advances
      exact .ended frames held
    | ended now held => cases busy.symm.trans now

/-- Where a thread is in its wait does not depend on what others do. -/
theorem Waiting.aside {count : Nat} (waiting : Waiting s t c l count)
    (busy : (s.activity t).frames ≠ []) (same : (s'.activity t).frames = (s.activity t).frames)
    (outside : s.phase ≠ .within t) : Waiting s' t c l count := by
  cases waiting with
  | called frames => exact .called (same.trans frames)
  | inside above frames once => exact .inside above (same.trans frames) once
  | returning frames => exact .returning (same ▸ frames)
  | holding frames inside held => exact absurd inside outside
  | ended frames held => exact absurd frames busy

/-- Until the wait is over the thread is on its way through it. -/
theorem waiting_along {count : Nat} (reachable : Reachable exitsIdle s) (leads : Path s path s')
    (obeys : ∀ made ∈ path, exitsIdle made.before made.move)
    (busy : ∀ made ∈ path, (made.before.activity t).frames ≠ [])
    (waiting : Waiting s t c l count) :
    Waiting s' t c l (count + path.countP (Made.enlists t)) := by
  induction leads generalizing count with
  | rest => exact waiting
  | @move s s' s'' move events path allowed ends goesOn ih =>
    have obeysNow := obeys _ List.mem_cons_self
    have busyNow := busy _ List.mem_cons_self
    have moved := reachable.moved allowed ends
    have next : Waiting s' t c l
        (count + if Made.enlists t ⟨s, move, s'⟩ then 1 else 0) := by
      by_cases self : move = .go t
      · subst self
        exact waiting_after reachable.orderly allowed moved waiting
      · have none : Made.enlists t ⟨s, move, s'⟩ = false := by
          cases move with
          | go u =>
            have apart : u ≠ t := fun same => self (same ▸ rfl)
            simp [Made.enlists, apart]
          | _ => rfl
        rw [none]
        refine waiting.aside busyNow (moved.frames_eq allowed obeysNow self busyNow)
          fun inside => self (eq_go_of_within allowed inside)
    rw [List.countP_cons, Nat.add_comm (path.countP _), ← Nat.add_assoc]
    exact ih (.move reachable allowed obeysNow ends)
      (fun made later => obeys made (List.mem_cons_of_mem _ later))
      (fun made later => busy made (List.mem_cons_of_mem _ later)) next

/-! ### Runs -/

/-- A path goes up to any of its moves, through it, and on from there. -/
theorem Path.split {earlier later : List Made} {made : Made}
    (leads : Path s (earlier ++ made :: later) s') (before : Reachable exitsIdle s)
    (obeys : ∀ m ∈ earlier ++ made :: later, exitsIdle m.before m.move) :
    Path s earlier made.before ∧ Reachable exitsIdle made.before ∧
      made.before.Allowed made.move ∧ Moved made.before made.move made.after ∧
      Reachable exitsIdle made.after ∧ Path made.after later s' := by
  induction earlier generalizing s with
  | nil =>
    cases leads with
    | move allowed ends goesOn =>
      exact ⟨.rest, before, allowed, before.moved allowed ends,
        .move before allowed (obeys _ List.mem_cons_self) ends, goesOn⟩
  | cons first others ih =>
    cases leads with
    | move allowed ends goesOn =>
      have ⟨leads', remains⟩ := ih goesOn (.move before allowed (obeys _ List.mem_cons_self) ends)
        fun m mem => obeys m (List.mem_cons_of_mem _ mem)
      exact ⟨.move allowed ends leads', remains⟩

theorem Moved.registers (moved : Moved s (.go t) s') (begins : WaitsBegin s)
    (here : s.at? t = some (.call (.wait c l))) :
    Made.Registers c l ⟨t, s.kernel.nextSemaphore⟩ ⟨s, .go t, s'⟩ := by
  obtain ⟨below, busy⟩ := busy_of_at? here
  cases moved with
  | went frames advances =>
    cases busy.symm.trans frames
    exact registers_of_go begins busy advances

theorem Moved.waiting (moved : Moved s (.call t (.wait c l)) s') : Waiting s' t c l 0 := by
  cases moved with
  | called => exact .called (congrArg Activity.frames (if_pos rfl))

/-- Where a thread is about to add the permit of a wait, a signal is in the middle of it. -/
theorem Standing.signaled (standing : Standing s c w stage)
    (raises : s.at? u = some (.up w.semaphore)) : stage = .signaled := by
  by_contra quiet
  obtain ⟨below, busy⟩ := busy_of_at? raises
  have none := standing.raising quiet u
  rw [tally_of_busy busy] at none
  simp [Frame.adds] at none

/-- Whoever tries the semaphore of a wait is its thread. -/
theorem Standing.thread_eq (standing : Standing s c w stage)
    (tries : s.at? u = some (.down w.semaphore)) : u = w.thread := by
  by_contra other
  obtain ⟨below, busy⟩ := busy_of_at? tries
  have none := standing.passing u
  rw [tally_of_busy busy, if_neg other] at none
  simp [Frame.passes] at none

/-- Where the permit is there, the thread takes it when it tries. -/
theorem Moved.passes_of_granted (moved : Moved s (.go w.thread) s') (standing : Standing s c w .granted)
    (tries : s.at? w.thread = some (.down w.semaphore)) :
    Made.passes w ⟨s, .go w.thread, s'⟩ = true := by
  obtain ⟨below, busy⟩ := busy_of_at? tries
  cases moved with
  | @went _ head rest kernel progress frames advances =>
    cases busy.symm.trans frames
    rw [passes_of_go busy]
    refine decide_eq_true ⟨rfl, Bool.eq_false_iff.mpr fun blocked => ?_⟩
    have blocks : progress.request = .block := blocked_after_self.mp blocked
    cases advances with
    | takes => cases blocks
    | queues empty => exact nomatch (show 0 = 1 from empty.symm.trans standing.permits)

/-- What the moves after a registration have made of the wait. -/
structure Followed (s : System) (c : CondvarId) (w : Waiter) (later : List Made) : Prop where
  /-- The wait is as far as its registration has been taken out and its thread has got past. -/
  standing : ∃ stage, Standing s c w stage ∧
    stage.removals = later.countP (Made.removes c w) ∧
    stage.passages = later.countP (Made.passes w)
  count_registered : w ∈ s.kernel.waiters c → s.kernel.permits w.semaphore = 0
  count_le : s.kernel.permits w.semaphore ≤ 1
  queue : s.kernel.queue w.semaphore = [] ∨ s.kernel.queue w.semaphore = [w.thread]
  /-- The thread got past after the registration had been taken out. -/
  removed : ∀ between m after, later = between ++ m :: after → m.passes w = true →
    m.move = .go w.thread ∧ between.countP (Made.removes c w) = 1
  /-- Once the permit was there, the thread took it when it tried. -/
  proceeds : ∀ m ∈ later, m.before.Standing c w .granted → m.move = .go w.thread →
    m.before.at? w.thread = some (.down w.semaphore) → m.passes w = true

theorem followed_of_registers {made : Made} {later : List Made}
    (before : Reachable exitsIdle made.before) (after : Reachable exitsIdle made.after)
    (moved : Moved made.before made.move made.after) (leads : Path made.after later s)
    (obeys : ∀ m ∈ later, exitsIdle m.before m.move) (registers : made.Registers c l w) :
    Followed s c w later := by
  have first : Standing made.after c w .registered :=
    moved.standing_of_registers before.orderly before.waitsBegin registers
  have reachable : Reachable exitsIdle s := leads.reachable after obeys
  obtain ⟨stage, standing, removals, passages⟩ := first.along after leads obeys
  refine
    { standing := ⟨stage, standing, by simpa [Stage.removals] using removals,
        by simpa [Stage.passages] using passages⟩
      count_registered := fun mem => ?_
      count_le := ?_
      queue := standing.queue reachable.orderly reachable.attended
      removed := fun between m rest is passes => ?_
      proceeds := fun m mem granted is tries => ?_ }
  · rw [standing.permits, standing.mem_iff.mp mem]
    rfl
  · rw [standing.permits]
    split
    · exact Nat.le_refl 1
    · exact Nat.zero_le 1
  · subst is
    obtain ⟨leads', reachable', allowed, moved', -, -⟩ := leads.split after obeys
    obtain ⟨mid, standing', removed, -⟩ := first.along after leads' fun m mem =>
      obeys m (List.mem_append_left _ mem)
    obtain ⟨mid', -, brings⟩ := moved'.standing reachable'.orderly reachable'.attended allowed
      (exitsClear_of_idle (obeys m (List.mem_append_right _ List.mem_cons_self))) standing'
    cases brings with
    | stays _ _ waits | signals _ waits | grants _ waits =>
      exact absurd (waits.symm.trans passes) Bool.false_ne_true
    | passes =>
      refine ⟨?_, by simpa [Stage.removals] using removed.symm⟩
      cases is : m.move with
      | go u =>
        simp only [Made.passes, is, decide_eq_true_eq] at passes
        rw [standing'.thread_eq passes.1]
      | _ => simp only [Made.passes, is, Bool.false_eq_true] at passes
  · obtain ⟨between, rest, rfl⟩ := List.append_of_mem mem
    obtain ⟨-, -, -, moved', -, -⟩ := leads.split after obeys
    obtain ⟨before, move, after⟩ := m
    obtain rfl : move = .go w.thread := is
    exact moved'.passes_of_granted granted tries

/-- After a signal has taken a registration out, the next move adds the permit. -/
theorem granted_of_signals {made next : Made} {later : List Made}
    (before : Reachable exitsIdle made.before) (after : Reachable exitsIdle made.after)
    (allowed : made.before.Allowed made.move) (moved : Moved made.before made.move made.after)
    (leads : Path made.after (next :: later) s)
    (obeys : exitsIdle made.before made.move) (obeysNext : exitsIdle next.before next.move)
    (signals : made.Signals c w) : Standing next.after c w .granted := by
  obtain ⟨⟨u, -, -, raises, within⟩, removed, -⟩ := signals
  have first := before.standing (removed.mem_iff.mp List.mem_cons_self)
  obtain ⟨stage, standing, -⟩ :=
    moved.standing before.orderly before.attended allowed (exitsClear_of_idle obeys) first
  obtain rfl := standing.signaled raises
  cases leads with
  | move allowed' ends _ =>
    have moved' := after.moved allowed' ends
    obtain ⟨stage, standing', brings⟩ :=
      moved'.standing after.orderly after.attended allowed' (exitsClear_of_idle obeysNext) standing
    cases brings with
    | stays quiet => exact absurd rfl quiet
    | grants => exact standing'

/-- Condition variables neither lose signals nor count them twice. On every run on which threads
leave between calls alone: each wait registers as it begins, with a new semaphore. A signal on a
condition variable with registrations takes out one of them, and the next move adds the permit for
it; nothing else changes registrations. From its registration on each wait is at one of its stages:
as often as its registration has been taken out, and as often as it has got past its semaphore, both
at most once; the permit is there only in between, when its thread finds it, and nobody else is
queued for it. It gets past only by its own thread, and after its registration has been taken out.
And no wait registers twice, and one that is over has registered, and its thread has the lock
again. -/
theorem signals_exact {capacity : Nat} {mode : SchedulingMode}
    (small : capacity ≤ ThreadTable.maxCapacity) (leads : Path (start capacity mode) path s)
    (obeys : ∀ made ∈ path, exitsIdle made.before made.move) :
    (∀ made ∈ path, ∀ t c l, made.move = .go t →
      made.before.at? t = some (.call (.wait c l)) →
        made.Registers c l ⟨t, made.before.kernel.nextSemaphore⟩) ∧
    (∀ made ∈ path, ∀ t c, made.move = .go t →
      made.before.at? t = some (.signal c) ∨ made.before.at? t = some (.broadcast c) →
        made.before.kernel.waiters c ≠ [] →
          ∃ w, made.Signals c w ∧ ∀ d v, made.removes d v = true ↔ d = c ∧ v = w) ∧
    (∀ earlier made next later c w, path = earlier ++ made :: next :: later → made.Signals c w →
      next.after.Standing c w .granted) ∧
    (∀ made ∈ path, (∃ c l w, made.Registers c l w) ∨ (∃ c w, made.Signals c w) ∨
      ∀ c, made.after.kernel.waiters c = made.before.kernel.waiters c) ∧
    (∀ earlier made later c l w, path = earlier ++ made :: later → made.Registers c l w →
      s.Followed c w later) ∧
    ∀ earlier made later t c l, path = earlier ++ made :: later → made.move = .call t (.wait c l) →
      (∀ m ∈ later, (m.before.activity t).frames ≠ []) →
        later.countP (Made.enlists t) ≤ 1 ∧
        ((s.activity t).frames = [] →
          later.countP (Made.enlists t) = 1 ∧ s.table.holder? l.id = some t) := by
  have started : Reachable exitsIdle (start capacity mode) := .start small
  have at_ : ∀ made ∈ path, Reachable exitsIdle made.before ∧
      Moved made.before made.move made.after := by
    intro made mem
    obtain ⟨earlier, later, rfl⟩ := List.append_of_mem mem
    obtain ⟨-, reachable, -, moved, -⟩ := leads.split started obeys
    exact ⟨reachable, moved⟩
  refine ⟨?_, ?_, ?_, ?_, ?_, ?_⟩
  · rintro ⟨before, move, after⟩ mem t c l rfl here
    obtain ⟨reachable, moved⟩ := at_ _ mem
    exact moved.registers reachable.waitsBegin here
  · rintro ⟨before, move, after⟩ mem t c rfl here some
    obtain ⟨reachable, moved⟩ := at_ _ mem
    exact moved.signals reachable here some
  · rintro earlier made next later c w rfl signals
    obtain ⟨-, before, allowed, moved, after, goesOn⟩ := leads.split started obeys
    exact granted_of_signals before after allowed moved goesOn (obeys made (by simp))
      (obeys next (by simp)) signals
  · intro made mem
    obtain ⟨reachable, moved⟩ := at_ made mem
    exact moved.waiters reachable.orderly reachable.waitsBegin
  · rintro earlier made later c l w rfl registers
    obtain ⟨-, before, -, moved, after, goesOn⟩ := leads.split started obeys
    exact followed_of_registers before after moved goesOn (fun m mem => obeys m (by simp [mem]))
      registers
  · rintro earlier ⟨before, move, after⟩ later t c l rfl rfl busy
    obtain ⟨-, -, -, moved, reachable, goesOn⟩ := leads.split started obeys
    have waiting := waiting_along reachable goesOn (fun m mem => obeys m (by simp [mem])) busy
      moved.waiting
    rw [Nat.zero_add] at waiting
    generalize later.countP (Made.enlists t) = count at waiting ⊢
    cases waiting with
    | called frames => exact ⟨Nat.zero_le 1, fun gone => nomatch frames.symm.trans gone⟩
    | inside _ frames => exact ⟨Nat.le_refl 1, fun gone => by simp [gone] at frames⟩
    | returning frames => exact ⟨Nat.le_refl 1, fun gone => by simp [gone] at frames⟩
    | holding frames => exact ⟨Nat.le_refl 1, fun gone => nomatch frames.symm.trans gone⟩
    | ended _ held => exact ⟨Nat.le_refl 1, fun _ => ⟨rfl, held⟩⟩

/-! ### A wait and its signal -/

/-- A lock and a condition variable, and a thread that has the lock. -/
def overture : List Move :=
  [.newLock, .newCondvar, .spawn "waiter" .lowest, .spawn "signaler" .standard,
    .call ⟨0, 0⟩ (.acquire ⟨⟨1⟩, ⟨0⟩⟩), .go ⟨0, 0⟩, .go ⟨0, 0⟩, .go ⟨0, 0⟩]

/-- The first thread calls a wait. -/
def callsWait : Move := .call ⟨0, 0⟩ (.wait ⟨0⟩ ⟨⟨1⟩, ⟨0⟩⟩)

/-- The thread waits until it blocks, and the other one takes the lock, signals and gives the lock
back; then the first one goes on to the end of its wait. -/
def exchange : List Move :=
  List.replicate 8 (.go ⟨0, 0⟩) ++
    .call ⟨1, 0⟩ (.acquire ⟨⟨1⟩, ⟨0⟩⟩) :: List.replicate 3 (.go ⟨1, 0⟩) ++
    .call ⟨1, 0⟩ (.signal ⟨0⟩ ⟨⟨1⟩, ⟨0⟩⟩) :: List.replicate 6 (.go ⟨1, 0⟩) ++
    .call ⟨1, 0⟩ (.release ⟨⟨1⟩, ⟨0⟩⟩) :: List.replicate 5 (.go ⟨1, 0⟩) ++
    List.replicate 7 (.go ⟨0, 0⟩)

/-- Allows what `exitsIdle` allows, as long as the first thread is in a call. -/
def duringCall : Rule := fun s move => exitsIdle s move ∧ (s.activity ⟨0, 0⟩).frames ≠ []

instance (s : System) (move : Move) : Decidable (duringCall s move) :=
  inferInstanceAs (Decidable (_ ∧ _))

/-- The wait registers, gets past its semaphore once, and ends with the lock. -/
theorem exchange_is_exact : ∃ earlier called registers later s w,
    Path (start 2 .priorityDonation) (earlier ++ called :: registers :: later) s ∧
      registers.Registers ⟨0⟩ ⟨⟨1⟩, ⟨0⟩⟩ w ∧ later.countP (Made.passes w) = 1 ∧
      s.table.holder? ⟨1⟩ = some w.thread := by
  have plays : (play exitsIdle overture (start 2 .priorityDonation)).bind (fun s =>
      (play duringCall exchange (perform callsWait s).state).map fun s' =>
        decide (s.Allowed callsWait ∧ (s'.activity ⟨0, 0⟩).frames = [])) = some true := by
    decide +kernel
  obtain ⟨s, first, plays⟩ := Option.bind_eq_some_iff.mp plays
  obtain ⟨s', second, facts⟩ := Option.map_eq_some_iff.mp plays
  obtain ⟨allowed, ended⟩ := of_decide_eq_true facts
  obtain ⟨earlier, leads, -, obeyed⟩ := exists_path_of_play first
  obtain ⟨during, goesOn, moves, obeys⟩ := exists_path_of_play second
  have whole : Path (start 2 .priorityDonation)
      (earlier ++ ⟨s, callsWait, (perform callsWait s).state⟩ :: during) s' :=
    leads.append (.move allowed rfl goesOn)
  have idle : ∀ made ∈ earlier ++ ⟨s, callsWait, (perform callsWait s).state⟩ :: during,
      exitsIdle made.before made.move := by
    intro made mem
    rcases List.mem_append.mp mem with before | here
    · exact obeyed made before
    rcases List.mem_cons.mp here with rfl | after
    · trivial
    · exact (obeys made after).1
  obtain ⟨registers, -, -, -, followed, ends⟩ := signals_exact (by decide) whole idle
  have held : s'.table.holder? ⟨1⟩ = some ⟨0, 0⟩ :=
    ((ends earlier _ during ⟨0, 0⟩ ⟨0⟩ ⟨⟨1⟩, ⟨0⟩⟩ rfl rfl fun m mem => (obeys m mem).2).2 ended).2
  cases during with
  | nil => exact nomatch moves
  | cons made later =>
    obtain ⟨is, -⟩ := List.cons.inj moves
    have before : made.before = (perform callsWait s).state := by cases goesOn; rfl
    have registered := registers made (by simp) ⟨0, 0⟩ ⟨0⟩ ⟨⟨1⟩, ⟨0⟩⟩ is (by rw [before]; rfl)
    refine ⟨earlier, _, made, later, s', _, whole, registered, ?_, held⟩
    obtain ⟨stage, standing, -, passages⟩ :=
      (followed (earlier ++ [⟨s, callsWait, (perform callsWait s).state⟩]) made later _ _ _
        (by simp) registered).standing
    have past := standing.passing ⟨0, 0⟩
    rw [← passages]
    cases stage with
    | past => rfl
    | registered | signaled | granted => simp [tally, ended, Stage.passages] at past

end System

end KernelSync
