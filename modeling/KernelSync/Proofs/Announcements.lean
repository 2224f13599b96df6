import KernelSync.Proofs.Endings

/-!
How the end of a thread is told. A thread adds the permit for its end when its script is over and it
has yet to leave the table; nobody else adds one (`Announced`), so where there is a permit the
thread is past it (`Past`). Every thread that may be joined is announced so, from when it is made
(`Reached.heralded`).
-/

namespace KernelSync.Simulation

open Stretch hiding pure bind
open Kernel
open KernelSync.System (Reachable)

variable {settings : Settings} {script : List Action} {s s₁ : Simulation} {σ : System}
  {how : Option Switch} {u next : ThreadId} {x : SemaphoreId}

/-! ### Past the permit -/

/-- The rest of the section in which a thread adds the permit for its end. -/
inductive Closing : List Frame → Prop where
  | checks {saved : Nat} : Closing [.check, .leave saved]
  | closes {saved : Nat} : Closing [.leave saved]
  | closed : Closing []

/-- The thread has added the permit for its end. What is left to it is to remove itself from the
table; or it has left the table, and its handle is not live unless it has been issued again. -/
inductive Past (s : Simulation) (u : ThreadId) : Prop where
  | leaves {saved : Nat} (script : (s.thread u).script = [.remove saved])
      (call : Closing (s.thread u).call) (live : s.kernel.table.contains u = true)
  | left (script : (s.thread u).script = []) (call : (s.thread u).call = [])
      (gone : s.ids.count u = 1 → s.kernel.table.contains u = false)

/-! ### Up to the permit -/

/-- The call in which a thread adds the permit for its end, up to that. -/
inductive Raising (x : SemaphoreId) : List Frame → Prop where
  | begins : Raising x [.call (.up x)]
  | adds {saved : Nat} : Raising x [.up x, .leave saved]

/-- How far a thread is on its way to the permit that tells of its end. A thread whose handle had
been issued before never sets out. -/
inductive Life (s : Simulation) (u : ThreadId) (x : SemaphoreId) : Prop where
  | silent (mute : (s.thread u).Mute x) (unraised : s.kernel.permits x = 0)
  | runs {before : List Pending} (script : (s.thread u).script = before ++ [.finish x])
      (goesOn : ∀ p ∈ before, p.ends = false) (call : ∀ f ∈ (s.thread u).call, f.raises? ≠ some x)
      (unraised : s.kernel.permits x = 0) (live : s.kernel.table.contains u = true)
  | raises {saved : Nat} (script : (s.thread u).script = [.remove saved])
      (call : Raising x (s.thread u).call) (unraised : s.kernel.permits x = 0)
      (live : s.kernel.table.contains u = true)
  | past (past : Past s u)

/-- The end of `u` is told by a permit of `x`, which nobody else adds. -/
structure Announced (settings : Settings) (s : Simulation) (u : ThreadId) (x : SemaphoreId) :
    Prop where
  reserves : settings.Reserves s.kernel x
  has : s.Has u
  slot : u.slot.toNat < s.kernel.table.slots.length
  others : ∀ t, t ≠ u → (s.thread t).Mute x
  life : Life s u x

section Turns

variable (turn : Turn s s₁ how) (mirrors : Mirrors settings none s σ)
  (reachable : Reachable scheduled σ)
include turn mirrors reachable

/-- In its own turn a thread past the permit comes closer to being gone. -/
theorem Past.turned_self (past : Past s s.current) : Past s₁ s.current := by
  have quiet := mirrors.quiet reachable
  cases past with
  | leaves script call live =>
    replace script : s.currentThread.script = _ := script
    replace call : Closing s.currentThread.call := call
    generalize frames : s.currentThread.call = f at call
    cases call with
    | checks =>
      obtain ⟨progress, advances, call, same, stays, -⟩ := turn.stretch quiet frames
      generalize s₁.kernel = after at advances
      cases advances
      exact .leaves (same.trans script) (call ▸ .closes)
        (turn.live mirrors reachable (fun _ => stays) live)
    | closes =>
      obtain ⟨progress, advances, call, same, stays, -⟩ := turn.stretch quiet frames
      generalize s₁.kernel = after at advances
      cases advances
      exact .leaves (same.trans script) (call ▸ .closed)
        (turn.live mirrors reachable (fun _ => stays) live)
    | closed =>
      cases turn.fares mirrors reachable with
      | calls same rests => exact nomatch script.symm.trans (rests frames)
      | works idle due more goesOn =>
        obtain ⟨rfl, -⟩ := List.cons.inj (due.symm.trans script)
        cases goesOn
      | finishes idle due => exact nomatch due.symm.trans script
      | exits idle due same call exits =>
        subst exits
        exact .left same call fun _ => turn.gone_of_exit mirrors reachable
  | left script call gone =>
    rw [turn.eq_of_done call script]
    exact .left script call gone

theorem Past.turned (past : Past s u) (has : s.Has u) : Past s₁ u := by
  by_cases here : u = s.current
  · subst here
    exact past.turned_self turn mirrors reachable
  have same := turn.retains.thread_eq here has
  cases past with
  | leaves script call live =>
    exact .leaves (same ▸ script) (same ▸ call)
      (turn.live mirrors reachable (fun is => absurd is here) live)
  | left script call gone =>
    exact .left (same ▸ script) (same ▸ call) (turn.gone mirrors reachable has gone)

/-- A thread whose script is not over goes on with it, or comes to its end. -/
theorem life_of_running {before : List Pending} (reserves : settings.Reserves s.kernel x)
    (script : s.currentThread.script = before ++ [.finish x])
    (goesOn : ∀ p ∈ before, p.ends = false)
    (call : ∀ f ∈ s.currentThread.call, f.raises? ≠ some x) (unraised : s.kernel.permits x = 0)
    (live : s.kernel.table.contains s.current = true) : Life s₁ s.current x := by
  have kept := turn.permits_le (mirrors.quiet reachable) fun below is =>
    call (.up x) (is ▸ List.mem_cons_self) rfl
  rw [unraised, Nat.le_zero] at kept
  have alive : how ≠ some .exit → s₁.kernel.table.contains s.current = true :=
    fun stays => turn.live mirrors reachable (fun _ => stays) live
  cases turn.fares mirrors reachable with
  | calls same rests stays raises =>
    refine .runs (same.trans script) goesOn (fun f mem is => ?_) kept (alive stays)
    rcases raises f mem x is with ⟨g, old, before⟩ | ⟨c, w, mem, registered⟩
    · exact call g old before
    · exact reserves.unregistered c w mem registered
  | @works pending new rest idle due same ends more stays raises =>
    cases before with
    | nil =>
      obtain ⟨rfl, -⟩ := List.cons.inj (due.symm.trans script)
      cases ends
    | cons first before =>
      obtain ⟨rfl, rfl⟩ := List.cons.inj (due.symm.trans script)
      refine .runs (same.trans (List.append_assoc ..).symm) (fun p mem => ?_)
        (fun f mem is => ?_) kept (alive stays)
      · exact (List.mem_append.mp mem).elim (more p)
          fun later => goesOn p (List.mem_cons_of_mem _ later)
      · exact absurd (raises f mem x is) (Nat.not_lt_of_le reserves.beyond)
  | finishes idle due same call' stays =>
    cases before with
    | nil =>
      obtain ⟨is, rfl⟩ := List.cons.inj (due.symm.trans script)
      obtain rfl := Pending.finish.inj is
      exact .raises same (call' ▸ .begins) kept (alive stays)
    | cons first before =>
      obtain ⟨rfl, -⟩ := List.cons.inj (due.symm.trans script)
      exact nomatch goesOn _ List.mem_cons_self
  | exits idle due =>
    cases before with
    | nil => exact nomatch due.symm.trans script
    | cons first before =>
      obtain ⟨rfl, -⟩ := List.cons.inj (due.symm.trans script)
      exact nomatch goesOn _ List.mem_cons_self

/-- A thread whose script is over adds the permit, and then is past it. -/
theorem life_of_raising {saved : Nat} (script : s.currentThread.script = [.remove saved])
    (call : Raising x s.currentThread.call) (unraised : s.kernel.permits x = 0)
    (live : s.kernel.table.contains s.current = true) : Life s₁ s.current x := by
  have quiet := mirrors.quiet reachable
  generalize frames : s.currentThread.call = f at call
  cases call with
  | begins =>
    obtain ⟨progress, advances, call, same, stays, -⟩ := turn.stretch quiet frames
    have alive := turn.live mirrors reachable (fun _ => stays) live
    have kept := turn.permits_le (x := x) quiet fun below is => nomatch frames.symm.trans is
    rw [unraised, Nat.le_zero] at kept
    generalize s₁.kernel = after at advances
    cases advances with
    | opens opening allowed =>
      cases opening
      exact .raises (same.trans script) (call ▸ .adds) kept alive
  | adds =>
    obtain ⟨progress, advances, call, same, stays, -⟩ := turn.stretch quiet frames
    have alive := turn.live mirrors reachable (fun _ => stays) live
    generalize s₁.kernel = after at advances
    cases advances with
    | raises | wakes => exact .past (.leaves (same.trans script) (call ▸ .checks) alive)

/-- In its own turn a thread comes closer to the permit, or adds it. -/
theorem Life.turned_self (life : Life s s.current x) (reserves : settings.Reserves s.kernel x) :
    Life s₁ s.current x := by
  cases life with
  | silent mute unraised =>
    have kept := turn.permits_le (mirrors.quiet reachable) fun below call =>
      mute.call (.up x) (call ▸ List.mem_cons_self) rfl
    rw [unraised, Nat.le_zero] at kept
    exact .silent (turn.mute mirrors reachable reserves mute) kept
  | runs script goesOn call unraised live =>
    exact life_of_running turn mirrors reachable reserves script goesOn call unraised live
  | raises script call unraised live =>
    exact life_of_raising turn mirrors reachable script call unraised live
  | past past => exact .past (past.turned_self turn mirrors reachable)

theorem Announced.turned (announced : Announced settings s u x) : Announced settings s₁ u x where
  reserves := announced.reserves.grows (turn.grows (mirrors.quiet reachable))
  has := turn.retains.has u announced.has
  slot := Nat.lt_of_lt_of_le announced.slot (turn.slots_le mirrors reachable)
  others := fun t apart => turn.mute mirrors reachable announced.reserves (announced.others t apart)
  life := by
    by_cases here : u = s.current
    · subst here
      exact announced.life.turned_self turn mirrors reachable announced.reserves
    have same := turn.retains.thread_eq here announced.has
    have kept : s.kernel.permits x = 0 → s₁.kernel.permits x = 0 := by
      intro unraised
      have mute := announced.others s.current (Ne.symm here)
      have kept := turn.permits_le (mirrors.quiet reachable) fun below call =>
        mute.call (.up x) (call ▸ List.mem_cons_self) rfl
      rwa [unraised, Nat.le_zero] at kept
    have stays : s.kernel.table.contains u = true → s₁.kernel.table.contains u = true :=
      turn.live mirrors reachable fun is => absurd is here
    cases announced.life with
    | silent mute unraised => exact .silent (same ▸ mute) (kept unraised)
    | runs script goesOn call unraised live =>
      exact .runs (same ▸ script) goesOn (same ▸ call) (kept unraised) (stays live)
    | raises script call unraised live =>
      exact .raises (same ▸ script) (same ▸ call) (kept unraised) (stays live)
    | past past => exact .past (past.turned turn mirrors reachable announced.has)

end Turns

/-! ### Switches -/

section Switched

variable {how : Switch} (present : s.Has s.current)

theorem ids_switched : (s.switched how next).ids = s.ids :=
  ids_modifyThread (s := s) (f := fun t => { t with registers := _ }) fun _ => rfl

include present

theorem SimThread.Mute.switched (mute : (s.thread u).Mute x) :
    ((s.switched how next).thread u).Mute x :=
  ⟨call_switched present ▸ mute.call, script_switched present ▸ mute.script⟩

theorem Past.switched (past : Past s u) : Past (s.switched how next) u := by
  have call : ((s.switched how next).thread u).call = (s.thread u).call := call_switched present
  have script : ((s.switched how next).thread u).script = (s.thread u).script :=
    script_switched present
  cases past with
  | leaves is closing live => exact .leaves (script.trans is) (call ▸ closing) live
  | left is idle gone =>
    refine .left (script.trans is) (call.trans idle) fun once => gone ?_
    rwa [ids_switched] at once

theorem Announced.switched (announced : Announced settings s u x) :
    Announced settings (s.switched how next) u x where
  reserves := ⟨announced.reserves.beyond, announced.reserves.present,
    announced.reserves.unregistered⟩
  has := has_switched.mpr announced.has
  slot := announced.slot
  others := fun t apart => (announced.others t apart).switched present
  life := by
    have call : ((s.switched how next).thread u).call = (s.thread u).call := call_switched present
    have script : ((s.switched how next).thread u).script = (s.thread u).script :=
      script_switched present
    cases announced.life with
    | silent mute unraised => exact .silent (mute.switched present) unraised
    | runs is goesOn raises unraised live =>
      exact .runs (script.trans is) goesOn (call ▸ raises) unraised live
    | raises is raising unraised live =>
      exact .raises (script.trans is) (call ▸ raising) unraised live
    | past past => exact .past (past.switched present)

end Switched

/-! ### Runs -/

/-- The ends of all threads that may be joined, now or later, are announced. -/
structure Heralded (settings : Settings) (s : Simulation) : Prop where
  joinable : ∀ handle ∈ s.joinable, Announced settings s handle.thread handle.exited
  known : ∀ t name id x, .known name id x ∈ (s.thread t).script → Announced settings s id x

/-- The end of a new thread is announced by the semaphore that is made with it. -/
theorem announced_of_spawns (mirrors : Mirrors settings none s σ)
    (reachable : Reachable scheduled σ) {name : String} {level : Nat}
    {script actions : List Action} {disguise : Option Disguise} {rest : List Pending}
    {priority : Priority} {id : ThreadId} {table : ThreadTable} {reported : List Event}
    (due : s.currentThread.script =
      .actions (.spawn name level script disguise :: actions) :: rest)
    (adds : ThreadTable.spawn name priority s.kernel.table = ⟨.ok (.ok id), table, reported⟩)
    (kernel : s₁.kernel = { (s.kernel.setTable table).addSemaphore 0 with
      depth := s.kernel.depth + 1 })
    (thread : ∀ u, s₁.thread u =
      if u = s.current then
        { s.currentThread with
          call := [.check, .leave s.kernel.depth]
          script := .known name id s.kernel.nextSemaphore :: .over "spawn" (.created id name) ::
            .actions actions :: rest }
      else if s.Has u then s.thread u
      else if u = id then .fresh id name script disguise s.kernel.nextSemaphore
      else .absent)
    (has : ∀ u, s₁.Has u ↔ s.Has u ∨ u = id) :
    Announced settings s₁ id s.kernel.nextSemaphore := by
  have mute := mirrors.mute_next reachable
  have reserves := mirrors.reserves_next reachable
  rw [← mirrors.table] at adds
  obtain ⟨-, full, -⟩ | ⟨_, ⟨⟩, gains⟩ :=
    ThreadTable.spawn_eq_ok reachable.orderly.sound.arena adds
  · cases full
  have live : table.contains id = true := gains.contains.mpr (Or.inl rfl)
  have apart : id ≠ s.current := by
    rintro rfl
    exact nomatch gains.absent.symm.trans mirrors.awake.1
  refine ⟨?_, (has id).mpr (Or.inr rfl), ?_, ?_, ?_⟩
  · rw [kernel]
    exact ⟨reserves.beyond, reserves.present, reserves.unregistered⟩
  · rw [kernel]
    obtain ⟨r, found⟩ := ThreadTable.contains_iff.mp live
    exact (List.getElem?_eq_some_iff.mp (ThreadTable.slot_of_get? found)).1
  · intro t other
    rw [thread]
    split
    · refine ⟨?_, ?_⟩
      · rintro f (_ | ⟨_, _ | ⟨_, ⟨⟩⟩⟩) raises <;> cases raises
      · rintro (_ | ⟨_, _ | ⟨_, _ | ⟨_, mem⟩⟩⟩)
        exact (mute s.current).script ((show s.currentThread.script = _ from due) ▸
          List.mem_cons_of_mem _ mem)
    split
    · exact mute t
    exact ⟨List.forall_mem_nil _, List.not_mem_nil⟩
  · have unraised : s₁.kernel.permits s.kernel.nextSemaphore = 0 := by
      rw [kernel]
      exact permits_next (k := s.kernel.setTable table)
    have here := thread id
    rw [if_neg apart] at here
    by_cases known : s.Has id
    · rw [if_pos known] at here
      exact .silent (here ▸ mute id) unraised
    · rw [if_neg known, if_pos rfl] at here
      refine .runs (congrArg SimThread.script here) ?_ ?_ unraised ?_
      · cases disguise <;> simp [Pending.ends]
      · rw [here]
        exact List.forall_mem_nil _
      · rw [kernel]
        exact live

section Heralds

variable (turn : Turn s s₁ how) (mirrors : Mirrors settings none s σ)
  (reachable : Reachable scheduled σ)
include turn mirrors reachable

/-- In the turn in which a thread is spawned, or in an earlier one, it becomes known by its name. -/
theorem Turn.announces {t : ThreadId} {name : String}
    (known : .known name u x ∈ (s₁.thread t).script) :
    .known name u x ∈ (s.thread t).script ∨ Announced settings s₁ u x := by
  by_cases here : t = s.current
  case neg =>
    rcases turn.retains.others t here with same | ⟨-, name, script, disguise, fresh⟩
    · exact Or.inl (same ▸ known)
    · rw [fresh] at known
      simp [SimThread.fresh] at known
  subst here
  have old : ∀ {pending rest}, s.currentThread.script = pending :: rest →
      .known name u x ∈ rest → .known name u x ∈ (s.thread s.current).script :=
    fun due mem => (show s.currentThread.script = _ from due) ▸ List.mem_cons_of_mem _ mem
  cases turn with
  | rests => exact Or.inl known
  | thinks idle due unrolls shifts =>
    rw [shifts.thread_current] at known
    rcases List.mem_append.mp known with mem | mem
    · cases unrolls <;> simp at mem
    · exact Or.inl (old due mem)
  | spawns idle due adds notReady kernel queue current main thread has joinable ids =>
    rw [thread, if_pos rfl] at known
    rcases known with _ | ⟨_, _ | ⟨_, _ | ⟨_, mem⟩⟩⟩
    · exact Or.inr (announced_of_spawns mirrors reachable due adds kernel thread has)
    · exact Or.inl (old due mem)
  | answers idle due asks shifts | finishes idle due shifts =>
    rw [shifts.thread_current] at known
    rcases known with _ | ⟨_, mem⟩
    exact Or.inl (old due mem)
  | rebases idle due changes shifts | yields idle due shifts =>
    rw [shifts.thread_current] at known
    rcases known with _ | ⟨_, _ | ⟨_, mem⟩⟩
    exact Or.inl (old due mem)
  | interrupts idle due outside shifts =>
    rw [shifts.thread_current] at known
    rcases known with _ | ⟨_, _ | ⟨_, _ | ⟨_, _ | ⟨_, _ | ⟨_, mem⟩⟩⟩⟩⟩
    exact Or.inl (old due mem)
  | handled idle due shifts | returns idle due unasked shifts
  | yieldsOnReturn idle due asked shifts =>
    rw [shifts.thread_current] at known
    exact Or.inl (old due known)
  | exits idle due removes shifts =>
    rw [shifts.thread_current] at known
    cases known
  | goes busy steps heeds shifts =>
    rw [shifts.thread_current] at known
    exact Or.inl known

theorem Heralded.turned (heralded : Heralded settings s) : Heralded settings s₁ where
  joinable := by
    intro handle mem
    rcases turn.retains.joinable handle mem with old | known
    · exact (heralded.joinable handle old).turned turn mirrors reachable
    · exact (heralded.known s.current _ _ _ known).turned turn mirrors reachable
  known := by
    intro t name id x mem
    rcases turn.announces mirrors reachable mem with old | fresh
    · exact (heralded.known t name id x old).turned turn mirrors reachable
    · exact fresh

end Heralds

theorem Heralded.switched {how : Switch} (heralded : Heralded settings s)
    (present : s.Has s.current) : Heralded settings (s.switched how next) where
  joinable := fun handle mem => (heralded.joinable handle mem).switched present
  known := by
    intro t name id x mem
    rw [script_switched present] at mem
    exact (heralded.known t name id x mem).switched present

theorem Reached.heralded (fits : settings.Fits script) (reached : Reached settings script s) :
    Heralded settings s := by
  induction reached with
  | start boots =>
    refine ⟨fun handle mem => absurd mem List.not_mem_nil, fun t name id x mem => ?_⟩
    rw [thread_start] at mem
    split at mem
    · simp at mem
    · exact absurd mem List.not_mem_nil
  | step before sound ih =>
    have mirrored := before.mirrored fits
    have stepped := mirrored.stepped sound
    generalize (Simulation.step _).state = s' at stepped ⊢
    cases stepped with
    | goesOn run =>
      have turn := mirrored.turn_of_run run
      obtain ⟨σ, reachable, mirrors⟩ := mirrored
      exact ih.turned turn mirrors reachable
    | switches run foremost =>
      have turn := mirrored.turn_of_run run
      have present := (mirrored.turn turn).has
      obtain ⟨σ, reachable, mirrors⟩ := mirrored
      exact (ih.turned turn mirrors reachable).switched present

end KernelSync.Simulation
