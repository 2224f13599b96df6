import KernelSync.Proofs.Mirror

/-!
Turns as moves. Whatever the running thread does up to a switch, the system can do in at most two
moves (`Mirrors.turn`).
-/

namespace KernelSync

open Stretch hiding pure bind

/-! ### What moves leave -/

/-- Whoever wakes another thread has more to do. -/
theorem Advances.frames_of_unblock {me woken : ThreadId} {k k' : Kernel} {frame : Frame}
    {progress : Progress} (advances : Advances me k frame k' progress)
    (wakes : progress.request = .unblock woken) : progress.frames ≠ [] := by
  cases advances with
  | wakes => exact List.cons_ne_nil _ _
  | _ => cases wakes

/-- A move that neither makes nor removes a thread. -/
def Move.keepsThreads : Move → Prop
  | .spawn _ _ | .remove _ => False
  | _ => True

namespace System

variable {s s' : System} {move : Move} {u : ThreadId}

theorem Moved.live (moved : Moved s move s') (orderly : Orderly s) (allowed : s.Allowed move)
    (keeps : move.keepsThreads) : s'.Live u ↔ s.Live u := by
  cases moved with
  | spawned | full | removed => exact keeps.elim
  | newSemaphore | newLock | newCondvar | interrupt | called => exact Iff.rfl
  | @rebased t base =>
    exact iff_of_eq (congrArg (· = true)
      ((Donation.changeBase_sameGraph orderly.sound.accounted).contains u))
  | reranked => exact iff_of_eq (congrArg (· = true) ThreadTable.contains_modify)
  | answered answers =>
    cases answers with
    | takes | refuses | denies | looks => exact Iff.rfl
    | acquires notMine permit claims =>
      exact (change_of_grant orderly allowed.1 allowed.2.1 allowed.2.2 permit).contains
        orderly.sound u
  | went busy advances => exact live_after orderly busy allowed.1 allowed.2.1 advances u

end System

namespace Simulation

open KernelSync.System (Reachable Moved)

variable {settings : Settings} {s s₁ : Simulation} {σ σ' : System} {how : Option Switch}
  {u : ThreadId} {move : Move} {events : List Event}

theorem Stocked.moved (stocked : Stocked settings σ) (moved : Moved σ move σ') :
    Stocked settings σ' := by
  cases moved with
  | newSemaphore =>
    exact stocked.more (fun _ => List.mem_append_left _) (fun _ => id) (Nat.le_refl _)
  | newLock => exact stocked.more (fun _ => id) (fun _ => List.mem_append_left _) (Nat.le_refl _)
  | newCondvar =>
    exact stocked.more (fun _ => id) (fun _ => id) (by simp)
  | answered answers =>
    exact stocked.more (fun _ => id) (fun _ => id) (Nat.le_of_eq answers.condvars_length.symm)
  | went busy advances =>
    exact stocked.more (fun _ => id) (fun _ => id) (Nat.le_of_eq advances.condvars_length.symm)
  | spawned | full | removed | rebased | reranked | interrupt | called =>
    exact stocked.more (fun _ => id) (fun _ => id) (Nat.le_refl _)

/-- The simulation is at a state that the system can come to. -/
def Mirrored (settings : Settings) (how : Option Switch) (s : Simulation) : Prop :=
  ∃ σ, Reachable scheduled σ ∧ Mirrors settings how s σ

/-- Of what is pending only some calls concern the system, and it has what they name. -/
theorem Mirrors.call_of_unrolls (mirrors : Mirrors settings how s σ) {pending : Pending}
    {new : List Pending} {frames : List Frame} (unrolls : Unrolls s pending new frames)
    (admitted : pending.Admitted settings σ.standalone) :
    frames = [] ∨ ∃ made, frames = [.call made] ∧ σ.Names made := by
  cases unrolls with
  | calls => exact Or.inr ⟨_, rfl, mirrors.stocked.names admitted.1⟩
  | joins mem => exact Or.inr ⟨_, rfl, mirrors.joinable _ mem⟩
  | waits => 
    exact Or.inr ⟨_, rfl, mirrors.stocked.names (show settings.Offers (.wait _ _) from admitted)⟩
  | _ => exact Or.inl rfl

/-! ### Between calls -/

section Between

variable (mirrors : Mirrors settings none s σ) (reachable : Reachable scheduled σ)
include mirrors reachable

/-- A turn of which the system knows nothing. -/
theorem mirrored_of_shifts {t' : SimThread} {kernel : Kernel} {depth : Nat}
    (shifts : Shifts s s₁ t' kernel s.queue) (stays : how = none ∨ how = some .yield)
    (same : kernel = { s.kernel with depth }) (frames : (σ.activity s.current).frames = [])
    (follows : Follows t'.call []) (scripts : ∀ p ∈ t'.script, p.Admitted settings σ.standalone) :
    Mirrored settings how s₁ := by
  refine ⟨σ, reachable, mirrors.between shifts stays ?_ mirrors.stocked rfl (fun _ => Iff.rfl)
    (fun _ => rfl) (fun _ _ => rfl) (frames ▸ follows) scripts (mirrors.free frames)⟩
  rw [same]
  exact mirrors.kernel

/-- A turn that is one move between calls. -/
theorem mirrored_of_move {t' : SimThread} {kernel : Kernel}
    (shifts : Shifts s s₁ t' kernel s.queue) (allowed : σ.Allowed move) (obeys : scheduled σ move)
    (ends : System.perform move σ = ⟨.ok (), σ', events⟩) (keeps : move.keepsThreads)
    (same : σ'.kernel = { kernel with depth := σ'.kernel.depth })
    (spares : σ'.standalone = σ.standalone) (free : σ'.phase = .free)
    (activity : ∀ u, σ'.activity u = if u = s.current then
      { σ.activity u with frames := (σ'.activity u).frames } else σ.activity u)
    (follows : Follows t'.call (σ'.activity s.current).frames)
    (scripts : ∀ p ∈ t'.script, p.Admitted settings σ.standalone) :
    Mirrored settings none s₁ := by
  have moved := reachable.moved allowed ends
  refine ⟨σ', reachable.move allowed obeys ends, mirrors.between shifts (Or.inl rfl) same
    (mirrors.stocked.moved moved) spares (fun u => moved.live reachable.orderly allowed keeps)
    (fun u => ?_) (fun u other => ?_) follows scripts free⟩
  · rw [activity u]
    split <;> rfl
  · rw [activity u, if_neg other]

/-- A call is made. -/
theorem mirrored_of_calls {t' : SimThread} {made : Call} {depth : Nat}
    (idle : s.currentThread.call = []) (shifts : Shifts s s₁ t' { s.kernel with depth } s.queue)
    (call : t'.call = [.call made]) (names : σ.Names made)
    (scripts : ∀ p ∈ t'.script, p.Admitted settings σ.standalone) :
    Mirrored settings none s₁ := by
  have free := mirrors.free (mirrors.frames_of_idle idle)
  have allowed : σ.Allowed (.call s.current made) := ⟨free, mirrors.idle idle, names⟩
  refine mirrored_of_move mirrors reachable shifts allowed ⟨trivial, trivial⟩ rfl trivial
    mirrors.kernel rfl free (fun u => ?_) ?_ scripts
  · by_cases here : u = s.current
    · subst here
      simp [System.become]
    · simp [System.become, here]
  · rw [call]
    simpa [System.become] using Follows.alike (.refl [.call made])

theorem mirrored_of_thinks {pending : Pending} {rest new : List Pending} {frames : List Frame}
    (idle : s.currentThread.call = []) (due : s.currentThread.script = pending :: rest)
    (unrolls : Unrolls s pending new frames)
    (shifts : Shifts s s₁ { s.currentThread with call := frames, script := new ++ rest }
      s.kernel s.queue) : Mirrored settings none s₁ := by
  have admitted : ∀ p ∈ pending :: rest, p.Admitted settings σ.standalone :=
    due ▸ mirrors.scripts s.current
  have scripts : ∀ p ∈ new ++ rest, p.Admitted settings σ.standalone := by
    intro p mem
    rcases List.mem_append.mp mem with mem | mem
    · exact unrolls.admitted (admitted pending List.mem_cons_self) p mem
    · exact admitted p (List.mem_cons_of_mem _ mem)
  rcases mirrors.call_of_unrolls unrolls (admitted pending List.mem_cons_self) with
    rfl | ⟨made, rfl, names⟩
  · exact mirrored_of_shifts mirrors reachable shifts (Or.inl rfl) rfl
      (mirrors.frames_of_idle idle) .nil scripts
  · exact mirrored_of_calls mirrors reachable idle shifts rfl names scripts

theorem mirrored_of_answers {made : ShortCall} {actions : List Action} {rest : List Pending}
    {answer : Bool} {kernel : Kernel} (idle : s.currentThread.call = [])
    (due : s.currentThread.script = .actions (.short made :: actions) :: rest)
    (asks : made.run s.current s.kernel = ⟨.ok answer, kernel, events⟩)
    (shifts : Shifts s s₁
      { s.currentThread with script := .actions actions :: rest, last := answer }
      kernel s.queue) : Mirrored settings none s₁ := by
  have frames := mirrors.frames_of_idle idle
  have admitted : ∀ p ∈ .actions (.short made :: actions) :: rest,
      p.Admitted settings σ.standalone := due ▸ mirrors.scripts s.current
  obtain ⟨offered, goesOn⟩ : settings.OffersShort made ∧ settings.Admits actions :=
    admitted _ List.mem_cons_self
  obtain ⟨events', there⟩ := (level_run made).eq_ok asks (σ.activity s.current).depth
  have ends : System.perform (.short s.current made) σ =
      ⟨.ok (), { σ with kernel := { kernel with depth := (σ.activity s.current).depth } },
        events'⟩ := by
    rw [System.short_run, mirrors.kernelAt, there]
    rfl
  have allowed : σ.Allowed (.short s.current made) :=
    ⟨mirrors.free frames, mirrors.idle idle, mirrors.stocked.namesShort offered⟩
  refine mirrored_of_move mirrors reachable shifts allowed ⟨trivial, trivial⟩ ends trivial rfl rfl
    (mirrors.free frames) (fun u => ?_) ?_ ?_
  · split <;> rfl
  · show Follows s.currentThread.call (σ.activity s.current).frames
    rw [idle, frames]
    exact .nil
  · rintro p (_ | ⟨_, mem⟩)
    · exact goesOn
    · exact admitted p (List.mem_cons_of_mem _ mem)

/-- A lock that a thread finds free and takes without a wait is claimed. -/
theorem Mirrors.change_of_tryAcquire {lock : Lock} {actions : List Action} {rest : List Pending}
    (idle : s.currentThread.call = [])
    (due : s.currentThread.script = .actions (.short (.tryAcquire lock) :: actions) :: rest)
    (permit : 0 < (s.kernel.semaphore lock.semaphore).count) :
    Change s.kernel.mode s.kernel.table (.claim lock.id s.current)
      (Lock.takeOwnership lock.id s.current s.kernel.mode.donates s.kernel.table).state := by
  have frames := mirrors.frames_of_idle idle
  have admitted : Pending.Admitted settings σ.standalone
      (.actions (.short (.tryAcquire lock) :: actions)) :=
    mirrors.scripts s.current _ (List.mem_of_mem_head? (congrArg List.head? due))
  have there : 0 < (σ.kernel.semaphore lock.semaphore).count := by
    rw [mirrors.kernel]
    exact permit
  have claimed := System.change_of_grant reachable.orderly (mirrors.free frames)
    (mirrors.idle idle) (mirrors.stocked.lock admitted.1) there
  rw [mirrors.mode, mirrors.table] at claimed
  exact claimed

theorem mirrored_of_rebases {level : Nat} {priority effective : Priority} {actions : List Action}
    {rest : List Pending} {table : ThreadTable} (idle : s.currentThread.call = [])
    (due : s.currentThread.script = .actions (.setPriority level :: actions) :: rest)
    (changes : Donation.changeBasePriority s.current priority s.kernel.mode s.kernel.table =
      ⟨.ok effective, table, events⟩)
    (shifts : Shifts s s₁
      { s.currentThread with
        call := [.check, .leave s.kernel.depth]
        script := .over "set_priority" .done :: .actions actions :: rest }
      { s.kernel.setTable table with depth := s.kernel.depth + 1 } s.queue) :
    Mirrored settings none s₁ := by
  have frames := mirrors.frames_of_idle idle
  have free := mirrors.free frames
  have admitted : ∀ p ∈ .actions (.setPriority level :: actions) :: rest,
      p.Admitted settings σ.standalone := due ▸ mirrors.scripts s.current
  rw [← mirrors.table, ← mirrors.mode] at changes
  obtain ⟨events', ends⟩ : ∃ events', System.perform (.setBase s.current priority) σ =
      ⟨.ok (), σ.withTable table, events'⟩ := by
    rw [System.setBase_run reachable.orderly.quiet, changes]
    exact ⟨_, rfl⟩
  have allowed : σ.Allowed (.setBase s.current priority) := free
  refine mirrored_of_move mirrors reachable shifts allowed
    ⟨reachable.orderly.placed.waits_of_idle frames, trivial⟩ ends trivial ?_ rfl free
    (fun u => ?_) ?_ ?_
  · show σ.kernel.setTable table = _
    rw [mirrors.kernel]
    rfl
  · split <;> rfl
  · show Follows _ (σ.activity s.current).frames
    rw [frames]
    exact .checks
  · rintro p (_ | ⟨_, _ | ⟨_, mem⟩⟩)
    · trivial
    · exact (admitted _ List.mem_cons_self).2
    · exact admitted p (List.mem_cons_of_mem _ mem)

/-- A handler begins or ends. -/
theorem mirrored_of_flag {t' : SimThread} {depth : Nat} {on : Bool}
    (idle : s.currentThread.call = []) (call : t'.call = [])
    (shifts : Shifts s s₁ t' { s.kernel with depth, inInterrupt := on } s.queue)
    (scripts : ∀ p ∈ t'.script, p.Admitted settings σ.standalone) :
    Mirrored settings none s₁ := by
  have frames := mirrors.frames_of_idle idle
  have free := mirrors.free frames
  have allowed : σ.Allowed (.interrupt on) := free
  refine mirrored_of_move mirrors reachable shifts allowed ⟨trivial, trivial⟩ rfl trivial ?_ rfl
    free (fun u => ?_) ?_ scripts
  · show ({ σ.kernel with inInterrupt := on } : Kernel) = _
    rw [mirrors.kernel]
  · split <;> rfl
  · show Follows t'.call (σ.activity s.current).frames
    rw [frames, call]
    exact .nil

end Between

/-! ### Threads that come and go -/

/-- A thread that is made ready contends with those that did. -/
theorem contenders_joined {id : ThreadId}
    (queue : s₁.queue = { s.queue with ready := s.queue.ready ++ [id] })
    (current : s₁.current = s.current) :
    (s₁.contenders none).Perm (id :: s.contenders none) := by
  have listed : s₁.contenders none = (s.queue.ready ++ [id]) ++ [s.current] := by
    unfold contenders
    rw [queue, current]
  rw [listed, List.append_assoc]
  exact List.perm_middle

/-- A thread that the table has room for can be made. -/
theorem reachable_spawn {name : String} {priority : Priority} {id : ThreadId} {table : ThreadTable}
    (reachable : Reachable scheduled σ) (free : σ.phase = .free)
    (adds : ThreadTable.spawn name priority σ.table = ⟨.ok (.ok id), table, events⟩) :
    Reachable scheduled { σ.withTable table with issued := σ.issued ++ [id] } := by
  have asks : System.onTable (ThreadTable.spawn name priority) σ = _ :=
    System.onTable_run reachable.orderly.quiet _
  rw [adds] at asks
  have allowed : σ.Allowed (.spawn name priority) := free
  exact reachable.move allowed ⟨trivial, trivial⟩ (bind_run_ok asks _)

theorem admitted_fresh {id : ThreadId} {name : String} {script : List Action}
    {disguise : Option Disguise} {exited : SemaphoreId} {spare : List SemaphoreId}
    (offered : settings.Admits script) (mem : exited ∈ spare) :
    ∀ p ∈ (SimThread.fresh id name script disguise exited).script,
      p.Admitted settings spare := by
  cases disguise with
  | none =>
    rintro p (_ | ⟨_, _ | ⟨_, _ | ⟨_, ⟨⟩⟩⟩⟩)
    · trivial
    · exact offered
    · exact mem
  | some disguise =>
    rintro p (_ | ⟨_, _ | ⟨_, _ | ⟨_, _ | ⟨_, ⟨⟩⟩⟩⟩⟩)
    · trivial
    · exact offered
    · trivial
    · exact mem

section Threads

variable (mirrors : Mirrors settings none s σ) (reachable : Reachable scheduled σ)
include mirrors reachable

theorem mirrored_of_spawns {name : String} {level : Nat} {script actions : List Action}
    {disguise : Option Disguise} {rest : List Pending} {priority : Priority} {id : ThreadId}
    {table : ThreadTable} (idle : s.currentThread.call = [])
    (due : s.currentThread.script =
      .actions (.spawn name level script disguise :: actions) :: rest)
    (adds : ThreadTable.spawn name priority s.kernel.table = ⟨.ok (.ok id), table, events⟩)
    (kernel : s₁.kernel = { (s.kernel.setTable table).addSemaphore 0 with
      depth := s.kernel.depth + 1 })
    (queue : s₁.queue = { s.queue with ready := s.queue.ready ++ [id] })
    (current : s₁.current = s.current)
    (thread : ∀ u, s₁.thread u =
      if u = s.current then
        { s.currentThread with
          call := [.check, .leave s.kernel.depth]
          script := .known name id s.kernel.nextSemaphore :: .over "spawn" (.created id name) ::
            .actions actions :: rest }
      else if s.Has u then s.thread u
      else if u = id then .fresh id name script disguise s.kernel.nextSemaphore
      else .absent)
    (has : ∀ u, s₁.Has u ↔ s.Has u ∨ u = id) (joinable : s₁.joinable = s.joinable) :
    Mirrored settings none s₁ := by
  have frames := mirrors.frames_of_idle idle
  have free := mirrors.free frames
  have orderly := reachable.orderly
  have admitted : ∀ p ∈ .actions (.spawn name level script disguise :: actions) :: rest,
      p.Admitted settings σ.standalone := due ▸ mirrors.scripts s.current
  obtain ⟨offered, goesOn⟩ : settings.Admits script ∧ settings.Admits actions :=
    admitted _ List.mem_cons_self
  rw [← mirrors.table] at adds
  obtain ⟨-, full, -⟩ | ⟨_, ⟨⟩, gains⟩ := ThreadTable.spawn_eq_ok orderly.sound.arena adds
  · cases full
  -- the thread is made first, and then the semaphore for its end
  let made : System := { σ.withTable table with issued := σ.issued ++ [id] }
  have reachable₁ : Reachable scheduled made := reachable_spawn reachable free adds
  have ends : System.perform (.newSemaphore 0) made = ⟨.ok (),
    { made with
      kernel := made.kernel.addSemaphore 0
      standalone := made.standalone ++ [made.kernel.nextSemaphore] }, []⟩ := rfl
  have allowed : made.Allowed (.newSemaphore 0) := ⟨free, Nat.zero_le _⟩
  have reachable₂ := reachable₁.move allowed ⟨trivial, trivial⟩ ends
  have next : made.kernel.nextSemaphore = s.kernel.nextSemaphore := by
    show (σ.kernel.setTable table).nextSemaphore = _
    rw [mirrors.kernel]
    rfl
  have gone : ¬ σ.Live id := fun live => nomatch gains.absent.symm.trans live
  have fresh : σ.activity id = {} := orderly.placed.absent id gone
  have joined := contenders_joined queue current
  refine ⟨_, reachable₂,
    { kernel := ?_
      stocked := (mirrors.stocked.moved (.spawned gains)).moved .newSemaphore
      running := by rw [queue, current, mirrors.running]
      present := by
        rw [current, has]
        exact Or.inl mirrors.present
      nodup := joined.nodup_iff.mpr (List.nodup_cons.mpr
        ⟨fun mem => gone ((mirrors.contends id).mp mem).1, mirrors.nodup⟩)
      contends := fun u => ?_
      has := fun u alive => (has u).mpr ?_
      follows := fun u => ?_
      scripts := fun u => ?_
      joinable := fun handle mem => List.mem_append_left _ (mirrors.joinable handle (joinable ▸ mem))
      phase := .inl free }⟩
  · show (σ.kernel.setTable table).addSemaphore 0 = _
    rw [kernel, mirrors.kernel]
    rfl
  · rw [joined.mem_iff, List.mem_cons, mirrors.contends]
    show _ ↔ table.contains u = true ∧ (σ.activity u).blocked = false
    rw [gains.contains]
    constructor
    · rintro (rfl | ⟨alive, awake⟩)
      · exact ⟨Or.inl rfl, by rw [fresh]⟩
      · exact ⟨Or.inr alive, awake⟩
    · rintro ⟨rfl | alive, awake⟩
      · exact Or.inl rfl
      · exact Or.inr ⟨alive, awake⟩
  · rcases gains.contains.mp alive with rfl | alive
    · exact Or.inr rfl
    · exact Or.inl (mirrors.has u alive)
  · show Follows (s₁.thread u).call (σ.activity u).frames
    rw [thread]
    by_cases here : u = s.current
    · rw [if_pos here, here, frames]
      exact .checks
    rw [if_neg here]
    by_cases old : s.Has u
    · rw [if_pos old]
      exact mirrors.follows u
    have idle : (σ.activity u).frames = [] := by
      rw [orderly.placed.absent u fun alive => old (mirrors.has u alive)]
    rw [if_neg old, idle]
    split <;> exact .nil
  · have more : ∀ x ∈ σ.standalone, x ∈ made.standalone ++ [made.kernel.nextSemaphore] :=
      fun _ => List.mem_append_left _
    have last : s.kernel.nextSemaphore ∈ made.standalone ++ [made.kernel.nextSemaphore] :=
      List.mem_append_right _ (List.mem_singleton.mpr next.symm)
    rw [thread]
    by_cases here : u = s.current
    · rw [if_pos here]
      rintro p (_ | ⟨_, _ | ⟨_, _ | ⟨_, mem⟩⟩⟩)
      · exact last
      · trivial
      · exact goesOn
      · exact (admitted p (List.mem_cons_of_mem _ mem)).mono more
    rw [if_neg here]
    by_cases old : s.Has u
    · rw [if_pos old]
      exact fun p mem => (mirrors.scripts u p mem).mono more
    rw [if_neg old]
    split
    · exact admitted_fresh offered last
    · nofun

omit reachable in
/-- The ready threads are those that are awake but for the one that runs. -/
theorem Mirrors.mem_ready :
    u ∈ s.queue.ready ↔ u ≠ s.current ∧ σ.Live u ∧ (σ.activity u).blocked = false := by
  rw [← mirrors.contends]
  have nodup := mirrors.nodup
  unfold contenders at nodup ⊢
  rw [List.mem_append, List.mem_singleton]
  have apart : s.current ∉ s.queue.ready := fun mem =>
    (List.nodup_append.mp nodup).2.2 _ mem _ (List.mem_singleton.mpr rfl) rfl
  constructor
  · intro mem
    exact ⟨fun here => apart (here ▸ mem), Or.inl mem⟩
  · rintro ⟨other, mem | here⟩
    · exact mem
    · exact absurd here other

omit reachable in
theorem Mirrors.nodup_ready : s.queue.ready.Nodup := (List.nodup_append.mp mirrors.nodup).1

theorem mirrored_of_exits {r : ThreadRecord} {table : ThreadTable} (idle : s.currentThread.call = [])
    (removes : ThreadTable.remove s.current s.kernel.table = ⟨.ok r, table, events⟩)
    (shifts : Shifts s s₁ { s.currentThread with script := [] } (s.kernel.setTable table)
      s.queue) : Mirrored settings (some .exit) s₁ := by
  have frames := mirrors.frames_of_idle idle
  have free := mirrors.free frames
  rw [← mirrors.table] at removes
  obtain ⟨-, -, -, loses⟩ := ThreadTable.remove_eq_ok reachable.orderly.sound.arena removes
  obtain ⟨events', ends⟩ : ∃ events', System.perform (.remove s.current) σ =
      ⟨.ok (), (σ.withTable table).become s.current {}, events'⟩ := by
    have asks : System.onTable (ThreadTable.remove s.current) σ = _ :=
      System.onTable_run reachable.orderly.quiet _
    rw [removes] at asks
    exact ⟨_, bind_run_ok asks _⟩
  have allowed : σ.Allowed (.remove s.current) := free
  have moved := reachable.moved allowed ends
  have live : ∀ u, ((σ.withTable table).become s.current {}).Live u ↔ u ≠ s.current ∧ σ.Live u :=
    fun u => loses.contains
  have awake : ∀ u, u ≠ s.current →
      (((σ.withTable table).become s.current {}).activity u) = σ.activity u :=
    fun u other => if_neg other
  have contenders : s₁.contenders (some .exit) = s.queue.ready :=
    congrArg RunQueue.ready shifts.queue_eq
  refine ⟨_, reachable.move allowed ⟨trivial, frames⟩ ends,
    { kernel := ?_
      stocked := mirrors.stocked.moved moved
      running := by rw [shifts.queue_eq, shifts.current, mirrors.running]
      present := by
        rw [shifts.current]
        exact (shifts.has _).mpr mirrors.present
      nodup := contenders ▸ mirrors.nodup_ready
      contends := fun u => ?_
      has := fun u alive => (shifts.has u).mpr (mirrors.has u ((live u).mp alive).2)
      follows := fun u => ?_
      scripts := fun u => ?_
      joinable := fun handle mem => ?_
      phase := .inl free }⟩
  · show σ.kernel.setTable table = _
    rw [shifts.kernel_eq, mirrors.kernel]
    rfl
  · rw [contenders, mirrors.mem_ready, live, and_assoc]
    refine and_congr_right fun other => ?_
    rw [awake u other]
  · rw [shifts.thread]
    by_cases here : u = s.current
    · rw [if_pos here, here]
      show Follows s.currentThread.call _
      rw [idle, show ((σ.withTable table).become s.current {}).activity s.current = {} from
        if_pos rfl]
      exact .nil
    · rw [if_neg here, awake u here]
      exact mirrors.follows u
  · rw [shifts.thread]
    split
    · nofun
    · exact mirrors.scripts u
  · rcases shifts.joinable handle mem with old | known
    · exact mirrors.joinable handle old
    · exact mirrors.scripts s.current _ known

end Threads

/-! ### Within a call -/

theorem Follows.of_busy {head : Frame} {rest frames : List Frame}
    (follows : Follows (head :: rest) frames) :
    (∃ head' rest', frames = head' :: rest' ∧ head.plain = head'.plain ∧ Alike rest rest') ∨
      frames = [] ∧ ∃ saved, head = .check ∧ rest = [.leave saved] ∨
        head = .leave saved ∧ rest = [] := by
  cases follows with
  | alike alike =>
    obtain ⟨head', rest', is, same, below⟩ := alike.cons_inv
    exact Or.inl ⟨head', rest', is, same, below⟩
  | checks => exact Or.inr ⟨rfl, _, Or.inl ⟨rfl, rfl⟩⟩
  | closes => exact Or.inr ⟨rfl, _, Or.inr ⟨rfl, rfl⟩⟩

section Stretches

open KernelSync.System (after)

variable {head : Frame} {rest : List Frame} {kernel kernel' : Kernel} {queue : RunQueue}
  {progress : Progress} {t' : SimThread} (mirrors : Mirrors settings none s σ)
  (reachable : Reachable scheduled σ) (busy : (σ.activity s.current).frames = head :: rest)
  (advances : Advances s.current (σ.kernelAt s.current) head kernel' progress)
  (shifts : Shifts s s₁ t' kernel queue)
include mirrors reachable busy advances shifts

/-- The thread that runs has gone through a stretch, and the contenders are those who are awake
after it. -/
theorem Mirrors.stretch (same : kernel' = { kernel with depth := kernel'.depth })
    (running : queue.running = s.queue.running)
    (alike : Alike t'.call (progress.frames ++ rest)) (script : t'.script = s.currentThread.script)
    (nodup : (s₁.contenders how).Nodup)
    (contends : ∀ u, u ∈ s₁.contenders how ↔
      σ.Live u ∧ ((after σ s.current rest kernel' progress).activity u).blocked = false)
    (phase : (after σ s.current rest kernel' progress).phase = .free ∨
      how = none ∧ ((after σ s.current rest kernel' progress).activity s.current).frames ≠ [] ∧
        ((after σ s.current rest kernel' progress).phase = .within s.current ∨
          (after σ s.current rest kernel' progress).phase = .calling s.current)) :
    Mirrors settings how s₁ (after σ s.current rest kernel' progress) := by
  have live := System.live_after reachable.orderly busy mirrors.mayGo mirrors.awake.1 advances
  refine
    { kernel := by rw [shifts.kernel_eq]; exact same
      stocked := mirrors.stocked.moved (.went busy advances)
      running := by rw [shifts.queue_eq, shifts.current, running, mirrors.running]
      present := by
        rw [shifts.current]
        exact (shifts.has _).mpr mirrors.present
      nodup
      contends := fun u => (contends u).trans (and_congr_left fun _ => (live u).symm)
      has := fun u alive => (shifts.has u).mpr (mirrors.has u ((live u).mp alive))
      follows := fun u => ?_
      scripts := fun u => ?_
      joinable := fun handle mem => ?_
      phase := by rwa [shifts.current] }
  · rw [shifts.thread]
    by_cases here : u = s.current
    · rw [if_pos here, here, System.frames_after_self]
      exact .alike alike
    · rw [if_neg here, System.frames_after_of_ne here]
      exact mirrors.follows u
  · rw [shifts.thread]
    by_cases here : u = s.current
    · rw [if_pos here, script]
      exact mirrors.scripts s.current
    · rw [if_neg here]
      exact mirrors.scripts u
  · rcases shifts.joinable handle mem with old | known
    · exact mirrors.joinable handle old
    · exact mirrors.scripts s.current _ known

omit mirrors shifts in
/-- Whoever is woken is live, and was blocked. -/
theorem blocked_of_unblock {woken : ThreadId} (wakes : progress.request = .unblock woken) :
    σ.Live woken ∧ (σ.activity woken).blocked = true := by
  have attended := (exitsIdle_of_scheduled reachable).attended
  cases System.stirs_of_advances reachable.orderly busy advances with
  | still _ _ noWake => exact absurd wakes (noWake woken)
  | joins _ _ blocks => exact nomatch blocks.symm.trans wakes
  | @wakes x u unblocks perm others =>
    cases unblocks.symm.trans wakes
    have mem : woken ∈ σ.kernel.queue x := perm.mem_iff.mp List.mem_cons_self
    exact ⟨attended.live x woken mem, (attended.blocked x woken mem).1⟩

omit mirrors reachable busy advances shifts in
/-- Who is awake after a stretch: the thread itself unless it blocks, and whom it unblocks. -/
theorem awake_after : ((after σ s.current rest kernel' progress).activity u).blocked = false ↔
    if u = s.current then progress.request ≠ .block
    else (σ.activity u).blocked = false ∨ progress.request = .unblock u := by
  rw [← Bool.not_eq_true]
  by_cases here : u = s.current
  · rw [if_pos here, here, System.blocked_after_self]
  · rw [if_neg here, System.blocked_after_of_ne here, ← Bool.not_eq_true]
    tauto

omit mirrors reachable busy advances shifts in
theorem phase_after_check (checks : progress.request = .check ∨ progress.request = .block) :
    (after σ s.current rest kernel' progress).phase = .free := by
  show System.phaseAfter _ _ = _
  unfold System.phaseAfter
  rcases checks with is | is <;> simp [is]

omit mirrors reachable busy advances shifts in
theorem phase_after_proceed (proceeds : progress.request = .proceed) :
    (after σ s.current rest kernel' progress).phase = .free ∨
      ((after σ s.current rest kernel' progress).activity s.current).frames ≠ [] ∧
        (after σ s.current rest kernel' progress).phase = .within s.current := by
  by_cases inside : ∃ saved, Frame.leave saved ∈ progress.frames ++ rest
  · refine Or.inr ⟨?_, System.phase_after proceeds inside⟩
    obtain ⟨saved, mem⟩ := inside
    rw [System.frames_after_self]
    exact List.ne_nil_of_mem mem
  · left
    show System.phaseAfter _ _ = _
    unfold System.phaseAfter
    rw [proceeds]
    refine if_neg fun any => inside ?_
    obtain ⟨frame, mem, closes⟩ := List.any_eq_true.mp any
    cases frame with
    | leave saved => exact ⟨saved, mem⟩
    | _ => cases closes

/-- A request that nobody else has to do with leaves the contenders. -/
theorem Mirrors.goesOn {flag : Bool} {frames : List Frame}
    (same : kernel' = { kernel with depth := kernel'.depth }) (queued : queue = s.queue)
    (alike : Alike frames (progress.frames ++ rest))
    (becomes : t' = { s.currentThread with call := frames, yieldOnReturn := flag })
    (stays : how = none ∨ how = some .yield)
    (request : progress.request = .check ∨ progress.request = .proceed ∧ how = none) :
    Mirrors settings how s₁ (after σ s.current rest kernel' progress) := by
  subst queued
  subst becomes
  have contenders := contenders_of_shifts shifts stays
  refine mirrors.stretch reachable busy advances shifts same rfl alike rfl
    (contenders ▸ mirrors.nodup) (fun u => ?_) ?_
  · rw [contenders, mirrors.contends, awake_after]
    refine and_congr_right fun _ => ?_
    by_cases here : u = s.current
    · rw [if_pos here, here, mirrors.awake.2]
      rcases request with is | ⟨is, -⟩ <;> simp [is]
    · rw [if_neg here]
      rcases request with is | ⟨is, -⟩ <;> simp [is]
  · rcases request with is | ⟨is, nothing⟩
    · exact Or.inl (phase_after_check (Or.inl is))
    · rcases phase_after_proceed is with free | ⟨more, inside⟩
      · exact Or.inl free
      · exact Or.inr ⟨nothing, more, Or.inl inside⟩

/-- What the scheduler makes of the request keeps the run queue in step with who is awake. -/
theorem Mirrors.heeds {flag : Bool} {frames : List Frame}
    (same : kernel' = { kernel with depth := kernel'.depth })
    (heeds : Heeds s kernel progress.request queue flag how)
    (alike : Alike frames (progress.frames ++ rest))
    (becomes : t' = { s.currentThread with call := frames, yieldOnReturn := flag }) :
    Mirrors settings how s₁ (after σ s.current rest kernel' progress) := by
  have goesOn := fun queued (stays : how = none ∨ how = some .yield) =>
    mirrors.goesOn reachable busy advances shifts same queued alike becomes stays
  generalize requested : progress.request = request at heeds goesOn
  cases heeds with
  | proceeds => exact goesOn rfl (Or.inl rfl) (Or.inr ⟨rfl, rfl⟩)
  | calm | defers => exact goesOn rfl (Or.inl rfl) (Or.inl rfl)
  | preempts => exact goesOn rfl (Or.inr rfl) (Or.inl rfl)
  | blocks =>
    subst becomes
    have contenders : s₁.contenders (some .block) = s.queue.ready :=
      congrArg RunQueue.ready shifts.queue_eq
    refine mirrors.stretch reachable busy advances shifts same rfl alike rfl
      (contenders ▸ mirrors.nodup_ready) (fun u => ?_)
      (Or.inl (phase_after_check (Or.inr requested)))
    rw [contenders, mirrors.mem_ready, awake_after, requested]
    by_cases here : u = s.current
    · simp [here]
    · simp [here]
  | @wakes id notReady =>
    subst becomes
    obtain ⟨live, asleep⟩ := blocked_of_unblock reachable busy advances requested
    have joined := contenders_joined shifts.queue_eq shifts.current
    have apart : id ≠ s.current := by
      rintro rfl
      exact nomatch mirrors.awake.2.symm.trans asleep
    refine mirrors.stretch reachable busy advances shifts same rfl alike rfl
      (joined.nodup_iff.mpr (List.nodup_cons.mpr ⟨?_, mirrors.nodup⟩))
      (fun u => ?_) (Or.inr ⟨rfl, ?_, Or.inr ?_⟩)
    · exact fun mem => nomatch asleep.symm.trans ((mirrors.contends id).mp mem).2
    · rw [joined.mem_iff, List.mem_cons, mirrors.contends, awake_after, requested]
      by_cases here : u = s.current
      · rw [if_pos here, here]
        simp [mirrors.awake, apart.symm]
      · rw [if_neg here]
        constructor
        · rintro (rfl | ⟨alive, awake⟩)
          · exact ⟨live, Or.inr rfl⟩
          · exact ⟨alive, Or.inl awake⟩
        · rintro ⟨alive, awake | is⟩
          · exact Or.inr ⟨alive, awake⟩
          · cases is
            exact Or.inl rfl
    · rw [System.frames_after_self]
      exact List.append_ne_nil_of_left_ne_nil (advances.frames_of_unblock requested) _
    · show System.phaseAfter _ _ = _
      unfold System.phaseAfter
      rw [requested]

end Stretches

/-- A step of a call is a stretch in the system, or it belongs to the end of a section of which the
system knows nothing. -/
inductive Goes (s : Simulation) (σ : System) (kernel : Kernel) (progress : Progress) : Prop where
  | stretch {head : Frame} {rest : List Frame} {kernel' : Kernel} {progress' : Progress}
      (busy : (σ.activity s.current).frames = head :: rest)
      (advances : Advances s.current (σ.kernelAt s.current) head kernel' progress')
      (same : kernel' = { kernel with depth := kernel'.depth })
      (request : progress'.request = progress.request)
      (alike : Alike progress.frames (progress'.frames ++ rest))
      (reachable : Reachable scheduled (System.after σ s.current rest kernel' progress'))
  | checks {saved : Nat} (idle : (σ.activity s.current).frames = []) (same : kernel = s.kernel)
      (is : progress = ⟨[.leave saved], .check⟩)
  | closes {depth : Nat} (idle : (σ.activity s.current).frames = [])
      (same : kernel = { s.kernel with depth }) (is : progress = ⟨[], .proceed⟩)

theorem Mirrors.goes {progress : Progress} {kernel : Kernel}
    (mirrors : Mirrors settings none s σ) (reachable : Reachable scheduled σ)
    (busy : s.currentThread.call ≠ [])
    (steps : Frame.step s.current s.currentThread.call s.kernel =
      ⟨.ok progress, kernel, events⟩) : Goes s σ kernel progress := by
  cases frames : s.currentThread.call with
  | nil => exact absurd frames busy
  | cons head rest =>
  rw [frames] at steps
  obtain ⟨advance, advances, rfl⟩ := step_eq_ok steps
  have follows : Follows (head :: rest) (σ.activity s.current).frames :=
    frames ▸ mirrors.follows s.current
  rcases follows.of_busy with ⟨head', rest', busy', same, below⟩ | ⟨idle, saved, here⟩
  · obtain ⟨progress', depth', events', there, request, alike⟩ :=
      advance_at same advances (σ.activity s.current).depth
    rw [← mirrors.kernelAt] at there
    have ends : System.perform (.go s.current) σ = ⟨.ok (),
        System.after σ s.current rest' { kernel with depth := depth' } progress', events'⟩ := by
      rw [System.go_run busy']
      unfold onFault
      rw [there]
      rfl
    have allowed : σ.Allowed (.go s.current) :=
      ⟨mirrors.mayGo, mirrors.awake.1, by simp [busy'], mirrors.awake.2⟩
    exact .stretch busy' (advances_of_ok (reachable.orderly.quiet.withDepth _) there) rfl request
      (Alike.append alike.symm below) (reachable.move allowed ⟨trivial, trivial⟩ ends)
  · rcases here with ⟨rfl, rfl⟩ | ⟨rfl, rfl⟩
    · cases advances
      exact .checks idle rfl rfl
    · cases advances
      exact .closes idle rfl rfl

/-- A thread inside a call goes on with it. -/
theorem mirrored_of_goes {progress : Progress} {kernel : Kernel} {queue : RunQueue} {flag : Bool}
    (mirrors : Mirrors settings none s σ) (reachable : Reachable scheduled σ)
    (busy : s.currentThread.call ≠ [])
    (steps : Frame.step s.current s.currentThread.call s.kernel = ⟨.ok progress, kernel, events⟩)
    (heeds : Heeds s kernel progress.request queue flag how)
    (shifts : Shifts s s₁
      { s.currentThread with call := progress.frames, yieldOnReturn := flag } kernel queue) :
    Mirrored settings how s₁ := by
  cases mirrors.goes reachable busy steps with
  | stretch busy' advances same request alike reachable' =>
    exact ⟨_, reachable',
      mirrors.heeds reachable busy' advances shifts same (request ▸ heeds) alike rfl⟩
  | @checks saved idle same is =>
    subst same
    subst is
    have tail : Follows [.leave saved] [] := .closes
    cases heeds with
    | calm | defers =>
      exact mirrored_of_shifts mirrors reachable shifts (Or.inl rfl) rfl idle tail
        (mirrors.scripts s.current)
    | preempts =>
      exact mirrored_of_shifts mirrors reachable shifts (Or.inr rfl) rfl idle tail
        (mirrors.scripts s.current)
  | closes idle same is =>
    subst is
    cases heeds
    exact mirrored_of_shifts mirrors reachable shifts (Or.inl rfl) same idle .nil
      (mirrors.scripts s.current)

/-! ### All turns -/

/-- Every turn is a run of moves. -/
theorem Mirrored.turn (mirrored : Mirrored settings none s) (turn : Turn s s₁ how) :
    Mirrored settings how s₁ := by
  obtain ⟨σ, reachable, mirrors⟩ := mirrored
  have first : ∀ {pending rest}, s.currentThread.script = pending :: rest →
      pending.Admitted settings σ.standalone := fun due =>
    mirrors.scripts s.current _ (List.mem_of_mem_head? (congrArg List.head? due))
  have scripts : ∀ {pending rest}, s.currentThread.script = pending :: rest →
      ∀ p ∈ rest, p.Admitted settings σ.standalone := fun due p mem =>
    mirrors.scripts s.current p (List.mem_of_mem_tail (congrArg List.tail due ▸ mem))
  cases turn with
  | rests => exact ⟨σ, reachable, mirrors⟩
  | thinks idle due unrolls shifts =>
    exact mirrored_of_thinks mirrors reachable idle due unrolls shifts
  | answers idle due asks shifts => exact mirrored_of_answers mirrors reachable idle due asks shifts
  | spawns idle due adds notReady kernel queue current main thread has joinable =>
    exact mirrored_of_spawns mirrors reachable idle due adds kernel queue current thread has joinable
  | rebases idle due changes shifts =>
    exact mirrored_of_rebases mirrors reachable idle due changes shifts
  | interrupts idle due outside shifts =>
    refine mirrored_of_flag mirrors reachable idle ?_ shifts ?_
    · exact idle
    · rintro p (_ | ⟨_, _ | ⟨_, _ | ⟨_, _ | ⟨_, _ | ⟨_, mem⟩⟩⟩⟩⟩)
      · exact (first due).1
      · trivial
      · trivial
      · trivial
      · exact (first due).2
      · exact scripts due p mem
  | handled idle due shifts =>
    refine mirrored_of_flag mirrors reachable idle ?_ shifts (scripts due)
    exact idle
  | returns idle due unasked shifts =>
    exact mirrored_of_shifts mirrors reachable shifts (Or.inl rfl) rfl
      (mirrors.frames_of_idle idle) (idle ▸ .nil) (scripts due)
  | yieldsOnReturn idle due asked shifts =>
    exact mirrored_of_shifts mirrors reachable shifts (Or.inr rfl) rfl
      (mirrors.frames_of_idle idle) .closes (scripts due)
  | yields idle due shifts =>
    refine mirrored_of_shifts mirrors reachable shifts (Or.inr rfl) rfl
      (mirrors.frames_of_idle idle) .closes ?_
    rintro p (_ | ⟨_, _ | ⟨_, mem⟩⟩)
    · trivial
    · exact (first due).2
    · exact scripts due p mem
  | finishes idle due shifts =>
    refine mirrored_of_calls mirrors reachable idle shifts rfl
      (show σ.Names (.up _) from first due) ?_
    rintro p (_ | ⟨_, mem⟩)
    · trivial
    · exact scripts due p mem
  | exits idle due removes shifts => exact mirrored_of_exits mirrors reachable idle removes shifts
  | goes busy steps heeds shifts => exact mirrored_of_goes mirrors reachable busy steps heeds shifts

end Simulation

end KernelSync
