import KernelSync.Proofs.Atomicity
import KernelSync.Proofs.Interrupts

/-!
How far the running thread of a simulation is in its call. It is about to begin it, or in the section
that it has just opened for it, or in a call that is committed (`Reached.calling`). Nobody else runs
before a call is committed, since what comes before asks nothing of the scheduler; and no handler is
in a call that waits.
-/

namespace KernelSync

/-- Whoever begins a call that may wait is in no handler. -/
theorem Call.outside_of_unrefused {me : ThreadId} {k : Kernel} {c : Call}
    (unrefused : (Frame.call c).refusal? me k = none) (waits : c.mayWait = true) :
    k.inInterrupt = false := by
  cases c with
  | down | acquire => exact Kernel.barsWait_eq_none.mp unrefused
  | wait => exact Kernel.barsWait_eq_none.mp (Option.or_eq_none_iff.mp unrefused).1
  | up | release | signal | broadcast => cases waits

/-- In front of the end of a section what is alike is the same. -/
theorem Alike.append_leave {front frames : List Frame} {saved : Nat}
    (alike : Alike (front ++ [.leave saved]) frames) (goesOn : ∀ f ∈ front, f.closes = false) :
    ∃ saved', frames = front ++ [.leave saved'] := by
  induction front generalizing frames with
  | nil =>
    obtain ⟨last, rest, rfl, is, alike⟩ := alike.cons_inv
    cases rest with
    | cons => cases alike
    | nil =>
      rcases Frame.eq_of_plain is with rfl | ⟨_, saved', -, rfl⟩
      · exact ⟨saved, rfl⟩
      · exact ⟨saved', rfl⟩
  | cons first front ih =>
    obtain ⟨_, rest, rfl, is, alike⟩ := alike.cons_inv
    obtain ⟨here, later⟩ := List.forall_mem_cons.mp goesOn
    obtain ⟨saved', rfl⟩ := ih alike later
    rcases Frame.eq_of_plain is with rfl | ⟨_, _, rfl, -⟩
    · exact ⟨saved', rfl⟩
    · cases here

theorem Call.goesOn_of_opening {c : Call} {frames : List Frame} (opens : c.opening = some frames) :
    ∀ f ∈ frames, f.closes = false := by
  cases c with
  | wait => cases opens
  | down | up | acquire | release | signal | broadcast =>
    cases opens
    simp [Frame.closes]

namespace System

variable {s : System} {t : ThreadId} {mayWait : Bool}

/-- A call that waits shows it at every place, but for the call that takes its lock again. -/
theorem Committed.unwaiting (committed : Committed s t mayWait)
    (prompt : ∀ f ∈ (s.activity t).frames, f.blocking = false)
    (parked : ∀ c, (s.activity t).frames ≠ [.call c]) : Committed s t false := by
  have nowhere : ∀ {l frames}, (s.activity t).frames = frames → Frame.signaled l ∉ frames := by
    intro l frames is mem
    cases prompt _ (is ▸ mem)
  have waits : false = true → false = true := id
  cases committed with
  | @settled inWait above below _ frames settled returns =>
    cases returns with
    | ends => exact .settled waits frames settled .ends
    | lock => exact absurd (List.mem_append_right _ List.mem_cons_self) (nowhere frames)
  | @raises inWait x above below _ frames settled returns inside empty =>
    cases returns with
    | ends => exact .raises waits frames settled .ends inside empty
    | lock =>
      exact absurd (List.mem_cons_of_mem _ (List.mem_append_right _ List.mem_cons_self))
        (nowhere frames)
  | tries frames unheld => exact .tries frames unheld
  | registered _ frames => exact absurd (List.mem_of_getLast? rfl) (nowhere frames)
  | releases _ frames => exact absurd (List.mem_of_getLast? rfl) (nowhere frames)
  | returns _ frames => exact absurd frames (parked _)

end System

namespace Simulation

open Stretch hiding pure bind
open KernelSync.System (Reachable Committed Course anyMove)

variable {settings : Settings} {script : List Action} {s s₁ r : Simulation} {σ : System}
  {how : Option Switch} {u : ThreadId} {c : Call} {head : Frame} {below : List Frame}
  {mayWait : Bool}

/-! ### Turns between calls -/

/-- What is pending gives way to at most one call. -/
theorem Unrolls.frames {pending : Pending} {new : List Pending} {frames : List Frame}
    (unrolls : Unrolls s pending new frames) : frames = [] ∨ ∃ c, frames = [.call c] := by
  cases unrolls with
  | calls | joins | waits => exact Or.inr ⟨_, rfl⟩
  | start | ended | waitsWhile | repeats | chooses | branches | attempts | acts | timesOver
  | timesAgain | waited | reports | known | attempt | disguise | returned => exact Or.inl rfl

/-- A turn between calls leads to the end of a section, or to a call, and then it does nothing else to
the kernel than that a thread that exits enters a section. -/
theorem Turn.call_of_idle (turn : Turn s s₁ how) (idle : s.currentThread.call = []) :
    Closing (s₁.thread s.current).call ∨ ∃ c, how = none ∧
      (s₁.thread s.current).call = [.call c] ∧
      s₁.kernel = { s.kernel with depth := s₁.kernel.depth } ∧ s₁.queue = s.queue := by
  have still : Closing s.currentThread.call := idle ▸ .closed
  cases turn with
  | rests => exact Or.inl still
  | thinks _ due unrolls shifts =>
    rw [shifts.thread_current, shifts.kernel_eq, shifts.queue_eq]
    rcases unrolls.frames with rfl | ⟨c, rfl⟩
    · exact Or.inl .closed
    · exact Or.inr ⟨c, rfl, rfl, rfl, rfl⟩
  | answers _ due asks shifts | interrupts _ due outside shifts | handled _ due shifts
  | returns _ due unasked shifts | exits _ due removes shifts =>
    rw [shifts.thread_current]
    exact Or.inl still
  | spawns _ due adds notReady kernel queue current main thread =>
    rw [thread, if_pos rfl]
    exact Or.inl .checks
  | rebases _ due changes shifts =>
    rw [shifts.thread_current]
    exact Or.inl .checks
  | yieldsOnReturn _ due asked shifts | yields _ due shifts =>
    rw [shifts.thread_current]
    exact Or.inl .closes
  | finishes _ due shifts =>
    rw [shifts.thread_current, shifts.kernel_eq, shifts.queue_eq]
    exact Or.inr ⟨_, rfl, rfl, rfl, rfl⟩
  | goes busy => exact absurd idle busy

/-! ### Threads that do not run -/

/-- The thread is not about to begin a call. -/
def Parked (s : Simulation) (u : ThreadId) : Prop := ∀ c, (s.thread u).call ≠ [.call c]

/-- In a handler the thread is in no call that waits. -/
def Prompt (s : Simulation) (u : ThreadId) : Prop :=
  s.inHandler u = true → ∀ f ∈ (s.thread u).call, f.blocking = false

theorem Closing.prompt {call : List Frame} (closing : Closing call) :
    ∀ f ∈ call, f.blocking = false := by
  cases closing <;> simp [Frame.blocking]

theorem Closing.settled {call : List Frame} (closing : Closing call) :
    ∀ f ∈ call, f.settled false = true := by
  cases closing <;> simp [Frame.settled]

theorem Closing.not_call {call : List Frame} (closing : Closing call) : call ≠ [.call c] := by
  cases closing <;> simp

/-- Whoever gives up the processor is not about to begin a call. -/
theorem parked_of_switches {how : Switch} (mirrored : Mirrored settings none s)
    (turn : Turn s s₁ (some how)) : s₁.Parked s.current := by
  intro c begins
  cases call : s.currentThread.call with
  | nil =>
    rcases turn.call_of_idle call with closing | ⟨_, ⟨⟩, -⟩
    exact closing.not_call begins
  | cons head below =>
    obtain ⟨progress, advances, frames, -, -, proceeds⟩ := turn.stretch mirrored.quiet call
    rw [frames] at begins
    generalize s₁.kernel = after at advances
    cases advances with
    | queues | registers | wakes => cases begins
    | checks =>
      -- a check is inside a section
      obtain rfl : below = _ := begins
      obtain ⟨σ, reachable, mirrors⟩ := mirrored
      have follows := mirrors.follows s.current
      rw [show (s.thread s.current).call = _ from call] at follows
      generalize now : (σ.activity s.current).frames = frames at follows
      cases follows with
      | alike alike =>
        obtain ⟨first, rest, rfl, is, alike⟩ := alike.cons_inv
        obtain ⟨second, rest, rfl, is', alike⟩ := alike.cons_inv
        rcases Frame.eq_of_plain is with rfl | ⟨_, _, ⟨⟩, -⟩
        rcases Frame.eq_of_plain is' with rfl | ⟨_, _, ⟨⟩, -⟩
        exact (System.fine_of_busy reachable.orderly now rfl).2
    | opens | waits | takes | retries | acquires | reacquires | raises | givesUp | holds
    | signalsNobody | signals | broadcastsNobody | broadcasts | returns | leaves =>
      cases proceeds rfl

/-- A turn leaves those that do not run where they are, or adds one that has yet to run. -/
theorem Retains.call_of_ne (retains : Retains s s₁) (apart : u ≠ s.current) :
    (s₁.thread u).call = (s.thread u).call ∨ (s₁.thread u).call = [] := by
  rcases retains.others u apart with same | ⟨-, _, _, _, fresh⟩
  · exact Or.inl (congrArg SimThread.call same)
  · exact Or.inr (congrArg SimThread.call fresh)

theorem parked_of_turn (parked : ∀ u, u ≠ s.current → s.Parked u) (turn : Turn s s₁ how)
    (apart : u ≠ s.current) : s₁.Parked u := by
  intro c
  rcases turn.retains.call_of_ne apart with same | idle
  · exact same ▸ parked u apart c
  · simp [idle]

/-- When the processor is given up nobody is about to begin a call. -/
theorem parked_at_switch {how : Switch} (mirrored : Mirrored settings none s)
    (parked : ∀ u, u ≠ s.current → s.Parked u) (turn : Turn s s₁ (some how)) (u : ThreadId) :
    s₁.Parked u := by
  by_cases here : u = s.current
  · exact here ▸ parked_of_switches mirrored turn
  · exact parked_of_turn parked turn here

theorem prompt_of_turn (prompt : ∀ u, s.Prompt u) (quiet : s.kernel.Quiet) (turn : Turn s s₁ how)
    (u : ThreadId) : s₁.Prompt u := by
  have retains := turn.retains
  intro inside
  by_cases here : u = s.current
  case neg =>
    rcases retains.others u here with same | ⟨-, _, _, _, fresh⟩
    · rw [inHandler_of_ne retains here same] at inside
      rw [same]
      exact prompt u inside
    · rw [fresh]
      exact List.forall_mem_nil _
  subst here
  cases call : s.currentThread.call with
  | nil =>
    rcases turn.call_of_idle call with closing | ⟨c, -, begins, -⟩
    · exact closing.prompt
    · rw [begins]
      exact List.forall_mem_cons.mpr ⟨rfl, List.forall_mem_nil _⟩
  | cons head below =>
    obtain ⟨progress, advances, frames, -⟩ := turn.stretch quiet call
    have before : s.inHandler s.current = true := by
      rw [inHandler_current, ← advances.inInterrupt, ← inHandler_current, retains.current]
      exact inside
    have earlier := prompt s.current before
    rw [show (s.thread s.current).call = _ from call] at earlier
    obtain ⟨here, others⟩ := List.forall_mem_cons.mp earlier
    rw [frames]
    exact List.forall_mem_append.mpr
      ⟨(advances.prompt (inHandler_current ▸ before) here).2, others⟩

section Reached

variable (fits : settings.Fits script)
include fits

theorem Reached.prompt (reached : Reached settings script s) (u : ThreadId) : s.Prompt u := by
  induction reached generalizing u with
  | start boots =>
    intro _
    rw [thread_start]
    split <;> exact List.forall_mem_nil _
  | @step s before sound ih =>
    have mirrored := before.mirrored fits
    have stepped := mirrored.stepped sound
    generalize (Simulation.step s).state = s' at stepped ⊢
    cases stepped with
    | goesOn run => exact prompt_of_turn ih mirrored.quiet (mirrored.turn_of_run run) u
    | switches run foremost =>
      have turn := mirrored.turn_of_run run
      have present := (mirrored.turn turn).has
      have after := prompt_of_turn ih mirrored.quiet turn u
      unfold Prompt at after ⊢
      rw [inHandler_switched present, call_switched present]
      exact after

/-- Nobody but the thread that runs is about to begin a call. -/
theorem Reached.parked (reached : Reached settings script s) (apart : u ≠ s.current) :
    s.Parked u := by
  induction reached generalizing u with
  | start boots =>
    intro c
    rw [thread_start]
    split <;> simp [SimThread.absent]
  | @step s before sound ih =>
    have mirrored := before.mirrored fits
    have stepped := mirrored.stepped sound
    generalize (Simulation.step s).state = s' at stepped apart ⊢
    cases stepped with
    | goesOn run =>
      have turn := mirrored.turn_of_run run
      exact parked_of_turn (fun _ => ih) turn (turn.retains.current ▸ apart)
    | switches run foremost =>
      have turn := mirrored.turn_of_run run
      intro c
      rw [call_switched (mirrored.turn turn).has]
      exact parked_at_switch mirrored (fun _ => ih) turn u c

end Reached

/-! ### Steps in a call -/

/-- The simulation with another call of the running thread. -/
def withCall (s : Simulation) (frames : List Frame) : Simulation :=
  s.modifyCurrent ({ · with call := frames })

/-- The simulation when the running thread has opened the section of its call. -/
def inside (s : Simulation) (frames : List Frame) : Simulation :=
  { s.withCall (frames ++ [.leave s.kernel.depth]) with
    kernel := { s.kernel with depth := s.kernel.depth + 1 } }

theorem withCall_withCall {frames frames' : List Frame} :
    (s.withCall frames).withCall frames' = s.withCall frames' :=
  modifyThread_modifyThread (s := s) (f := fun t => { t with call := frames }) fun _ => rfl

/-- To leave the section that was opened is to be where one was before. -/
theorem leave_inside {frames : List Frame} :
    { (s.inside frames).withCall [] with
      kernel := { (s.inside frames).kernel with depth := s.kernel.depth } } = s.withCall [] := by
  show { (s.withCall (frames ++ [.leave s.kernel.depth])).withCall [] with kernel := s.kernel } = _
  rw [withCall_withCall]
  rfl

/-- What the scheduler does at a request. -/
def answer (me : ThreadId) : Request → Stretch Simulation Unit
  | .proceed => return ()
  | .block => do
      log (.blocks me)
      switch .block
  | .unblock id => unblock id
  | .check => checkPreemption

section Busy

variable (has : s.Has s.current)
include has

theorem call_inside {frames : List Frame} :
    (s.inside frames).currentThread.call = frames ++ [.leave s.kernel.depth] := by
  have opened := thread_modifyThread (u := s.current)
    (f := fun t : SimThread => { t with call := frames ++ [.leave s.kernel.depth] })
    (fun _ => rfl) has
  exact congrArg SimThread.call (opened.trans (if_pos rfl))

theorem advance_of_busy (busy : s.currentThread.call = head :: below) : advance s =
    (inKernel (Frame.step s.current (head :: below)) >>= fun progress => do
      setCall progress.frames
      answer s.current progress.request) (s.withCall []) := by
  have is : s.currentThread.id = s.current := thread_id has
  unfold advance
  rw [bind_run_ok (read_run _ _), busy, is]
  rfl

/-- A stretch that is refused ends the call, and leaves the sections that are open. -/
theorem advance_refused (quiet : s.kernel.Quiet) {fault : Fault} {depth : Nat}
    {events : List Event} (busy : s.currentThread.call = head :: below)
    (refused : head.refusal? s.current s.kernel = some fault)
    (unwinds : Frame.unwind below s.kernel = ⟨.ok (), { s.kernel with depth }, events⟩) :
    ∃ events, advance s =
      ⟨.error fault, { s.withCall [] with kernel := { s.kernel with depth } }, events⟩ := by
  obtain ⟨reported, run⟩ := Frame.advance_refused quiet refused
  have cut : onFault (head.advance s.current) (Frame.unwind below) s.kernel =
      ⟨.error fault, { s.kernel with depth }, reported ++ events⟩ := by
    unfold onFault
    rw [run]
    simp only [unwinds]
  have asks : inKernel (Frame.step s.current (head :: below)) (s.withCall []) =
      ⟨.error fault, { s.withCall [] with kernel := { s.kernel with depth } },
        reported ++ events⟩ :=
    inKernel_run (bind_run_error cut _)
  rw [advance_of_busy has busy, bind_run_error asks]
  exact ⟨_, rfl⟩

/-- In its first stretch a call is refused as it is found. -/
theorem advance_refuses_call (quiet : s.kernel.Quiet) {fault : Fault}
    (busy : s.currentThread.call = [.call c])
    (refused : (Frame.call c).refusal? s.current s.kernel = some fault) :
    ∃ events, advance s = ⟨.error fault, s.withCall [], events⟩ := by
  have unwinds : Frame.unwind [] s.kernel =
    ⟨.ok (), { s.kernel with depth := s.kernel.depth }, []⟩ := rfl
  exact advance_refused has quiet busy refused unwinds

/-- A call that is not refused at once opens its section. -/
theorem advance_opens {frames : List Frame} (busy : s.currentThread.call = [.call c])
    (opens : c.opening = some frames)
    (unrefused : (Frame.call c).refusal? s.current s.kernel = none) :
    ∃ events, advance s = ⟨.ok (), s.inside frames, events⟩ := by
  have begins : onFault ((Frame.call c).advance s.current) (Frame.unwind []) s.kernel =
      ⟨.ok ⟨frames ++ [.leave s.kernel.depth], .proceed⟩,
        { s.kernel with depth := s.kernel.depth + 1 }, [.entered s.kernel.depth]⟩ := by
    unfold onFault
    rw [show (Frame.call c).advance s.current s.kernel = _ from Frame.begin_opens opens unrefused]
  have asks : inKernel (Frame.step s.current [.call c]) (s.withCall []) =
      ⟨.ok ⟨(frames ++ [.leave s.kernel.depth]) ++ [], .proceed⟩,
        { s.withCall [] with kernel := { s.kernel with depth := s.kernel.depth + 1 } },
        [.entered s.kernel.depth] ++ []⟩ :=
    inKernel_run (bind_run_ok begins _)
  rw [List.append_nil] at asks
  have same : (s.withCall []).withCall (frames ++ [.leave s.kernel.depth]) =
      s.withCall (frames ++ [.leave s.kernel.depth]) := withCall_withCall
  rw [advance_of_busy has busy, bind_run_ok asks]
  refine ⟨_, congrArg (Run.mk _ · _) ?_⟩
  unfold inside
  rw [← same]
  rfl

end Busy

/-! ### How far a call is -/

/-- In the next step the running thread, which is between calls, comes to `c`. That does nothing else
to the kernel than that a thread that exits enters a section, and nothing to the run queue. -/
structure Begins (r : Simulation) (c : Call) : Prop where
  sound : (advance r).outcome = .ok ()
  idle : r.currentThread.call = []
  current : (step r).state.current = r.current
  call : (step r).state.currentThread.call = [.call c]
  kernel : (step r).state.kernel = { r.kernel with depth := (step r).state.kernel.depth }
  queue : (step r).state.queue = r.queue

/-- How far the running thread is in its call: about to begin it, or in the section that it has
just opened for it, or in a call that is committed; if that may wait, no handler has made it. Between
calls a thread is committed to nothing. -/
inductive Calling (settings : Settings) (script : List Action) (s : Simulation) : Prop where
  | begins {r : Simulation} {c : Call} (reached : Reached settings script r) (begins : r.Begins c)
      (is : s = (step r).state)
  | opened {r : Simulation} {c : Call} {head : Frame} {below : List Frame}
      (reached : Reached settings script r) (begins : r.Begins c)
      (opens : c.opening = some (head :: below))
      (unrefused : (Frame.call c).refusal? r.current (step r).state.kernel = none)
      (sound : (advance (step r).state).outcome = .ok ()) (is : s = (step (step r).state).state)
      (inside : s = (step r).state.inside (head :: below))
  | committed {σ : System} {mayWait : Bool} (reachable : Reachable scheduled σ)
      (mirrors : Mirrors settings none s σ) (committed : Committed σ s.current mayWait)
      (outside : mayWait = true → s.kernel.inInterrupt = false)

/-- At the end of a section a call is committed. -/
theorem calling_of_closing (mirrored : Mirrored settings none s)
    (closing : Closing s.currentThread.call) : Calling settings script s := by
  obtain ⟨σ, reachable, mirrors⟩ := mirrored
  have settled : (σ.activity s.current).frames.all (Frame.settled false) = true := by
    have follows := mirrors.follows s.current
    replace closing : Closing (s.thread s.current).call := closing
    generalize (s.thread s.current).call = call at closing follows
    generalize (σ.activity s.current).frames = frames at follows
    cases follows with
    | checks | closes => rfl
    | alike alike =>
      have back : Alike frames call := alike.symm
      refine List.all_eq_true.mpr fun f mem => ?_
      rcases back.mem mem with mem | ⟨_, rfl⟩
      · exact closing.settled f mem
      · rfl
  have waits : false = true → s.kernel.inInterrupt = false := nofun
  exact .committed reachable mirrors (System.committed_of_all rfl settled) waits

/-- A call that is not refused opens its section in the step after. -/
theorem Begins.opens (begins : r.Begins c) (reached : Reached settings script r)
    (mirrored : Mirrored settings none (step r).state)
    (sound : (advance (step r).state).outcome = .ok ())
    (opens : c.opening = some (head :: below)) :
    Calling settings script (step (step r).state).state := by
  have unrefused : (Frame.call c).refusal? (step r).state.current (step r).state.kernel = none := by
    by_contra refused
    obtain ⟨fault, refused⟩ := Option.ne_none_iff_exists'.mp refused
    obtain ⟨events, fails⟩ :=
      advance_refuses_call mirrored.has mirrored.quiet begins.call refused
    rw [fails] at sound
    cases sound
  obtain ⟨events, run⟩ := advance_opens mirrored.has begins.call opens unrefused
  refine .opened reached begins opens (begins.current ▸ unrefused) sound rfl ?_
  rw [step_of_sound sound, run]

/-- A call that has yet to begin is there in the system too. -/
theorem Mirrors.frames_eq_call (mirrors : Mirrors settings how s σ) :
    (σ.activity u).frames = [.call c] ↔ (s.thread u).call = [.call c] := by
  have same : ∀ {frames frames'}, Alike frames frames' → frames = [.call c] →
      frames' = [.call c] := by
    rintro _ frames' alike rfl
    obtain ⟨_, rest, rfl, is, alike⟩ := alike.cons_inv
    cases rest with
    | cons => cases alike
    | nil =>
      rcases Frame.eq_of_plain is with rfl | ⟨_, _, ⟨⟩, -⟩
      rfl
  have follows := mirrors.follows u
  generalize (s.thread u).call = call at follows
  generalize (σ.activity u).frames = frames at follows
  cases follows with
  | alike alike => exact ⟨same alike.symm, same alike⟩
  | checks | closes => simp

/-- A stretch after which the call is committed. -/
theorem Mirrors.calling_of_commits (mirrors : Mirrors settings none s σ)
    (reachable : Reachable scheduled σ) (busy : s.currentThread.call = head :: below)
    (turn : Turn s s₁ none) (outside : mayWait = true → s.kernel.inInterrupt = false)
    (commits : ∀ {first rest kernel progress}, (σ.activity s.current).frames = first :: rest →
      Advances s.current (σ.kernelAt s.current) first kernel progress →
        σ.Allowed (.go s.current) →
          Committed (System.after σ s.current rest kernel progress) s.current mayWait) :
    Calling settings script s₁ := by
  have current := turn.retains.current
  have mirrored : Mirrored settings none s₁ := Mirrored.turn ⟨σ, reachable, mirrors⟩ turn
  obtain ⟨_, advances, -⟩ := turn.stretch (mirrors.quiet reachable) busy
  have outside' : mayWait = true → s₁.kernel.inInterrupt = false := fun waits =>
    advances.inInterrupt.trans (outside waits)
  cases turn with
  | goes inCall steps heeds shifts =>
    have closes : Closing (Progress.frames _) → Calling settings script s₁ := fun closing =>
      calling_of_closing mirrored (shifts.currentThread ▸ closing)
    cases mirrors.goes reachable inCall steps with
    | stretch busy' advances same request alike reachable' =>
      have mirrors' :=
        mirrors.heeds reachable busy' advances shifts same (request ▸ heeds) alike rfl
      have allowed : σ.Allowed (.go s.current) :=
        ⟨mirrors.mayGo, mirrors.awake.1, by simp [busy'], mirrors.awake.2⟩
      exact .committed reachable' mirrors' (current ▸ commits busy' advances allowed) outside'
    | checks _ _ is => exact closes (is ▸ .closes)
    | closes _ _ is => exact closes (is ▸ .closed)
  | rests idle | thinks idle | answers idle | spawns idle | rebases idle | interrupts idle
  | handled idle | returns idle | finishes idle =>
    exact nomatch busy.symm.trans idle

theorem Mirrors.not_blocking (mirrors : Mirrors settings how s σ)
    (prompt : ∀ f ∈ (s.thread u).call, f.blocking = false) :
    ∀ f ∈ (σ.activity u).frames, f.blocking = false := by
  have follows := mirrors.follows u
  generalize (s.thread u).call = call at prompt follows
  generalize (σ.activity u).frames = frames at follows
  cases follows with
  | checks | closes => exact List.forall_mem_nil _
  | alike alike =>
    intro f mem
    have back : Alike frames call := alike.symm
    rcases back.mem mem with mem | ⟨_, rfl⟩
    · exact prompt f mem
    · rfl

/-- The first stretch of a wait commits it. -/
theorem calling_of_wait {d : CondvarId} {l : Lock} (mirrored : Mirrored settings none s)
    (call : s.currentThread.call = [.call (.wait d l)]) (turn : Turn s s₁ none) :
    Calling settings script s₁ := by
  obtain ⟨_, here, -⟩ := turn.stretch mirrored.quiet call
  have outside : (Call.wait d l).mayWait = true → s.kernel.inInterrupt = false := by
    generalize s₁.kernel = after at here
    cases here with
    | opens opening => cases opening
    | waits held outside => exact fun _ => outside
  obtain ⟨σ, reachable, mirrors⟩ := mirrored
  refine mirrors.calling_of_commits reachable call turn outside fun busy advances allowed => ?_
  have frames := mirrors.frames_eq_call.mpr call
  cases frames.symm.trans busy
  have reachable' : Reachable anyMove σ := reachable.mono fun _ _ _ => trivial
  rcases (System.opened_or_committed reachable' frames advances).2 with ⟨_, _, ⟨⟩, -⟩ | committed
  exact committed

/-- What the running thread does in the section that it has opened commits the call. -/
theorem calling_of_opened (mirrored : Mirrored settings none (r.inside (head :: below)))
    (has : r.Has r.current) (opens : c.opening = some (head :: below))
    (unrefused : (Frame.call c).refusal? r.current r.kernel = none)
    (turn : Turn (r.inside (head :: below)) s₁ none) : Calling settings script s₁ := by
  have call : (r.inside (head :: below)).currentThread.call =
      (head :: below) ++ [.leave r.kernel.depth] := call_inside has
  obtain ⟨σ, reachable, mirrors⟩ := mirrored
  obtain ⟨saved, frames⟩ :
      ∃ saved, (σ.activity r.current).frames = (head :: below) ++ [.leave saved] := by
    have follows := mirrors.follows r.current
    have goesOn := Call.goesOn_of_opening opens
    rw [show ((r.inside (head :: below)).thread r.current).call = _ from call] at follows
    generalize (σ.activity r.current).frames = frames at follows
    generalize is : (head :: below) ++ [Frame.leave r.kernel.depth] = call at follows
    cases follows with
    | alike alike => exact Alike.append_leave (is ▸ alike) goesOn
    | checks | closes =>
      obtain ⟨rfl, -⟩ := List.cons.inj is
      cases c <;> cases opens
  refine mirrors.calling_of_commits reachable call turn (Call.outside_of_unrefused unrefused)
    fun busy advances allowed => ?_
  cases frames.symm.trans busy
  have reachable' : Reachable anyMove σ := reachable.mono fun _ _ _ => trivial
  exact System.committed_of_opened reachable' allowed opens frames advances

/-- Whoever is given the processor is in a call that is committed. -/
theorem calling_of_switched {how : Switch} {next : ThreadId}
    (mirrored : Mirrored settings (some how) s) (mem : next ∈ s.contenders (some how))
    (parked : s.Parked next) (prompt : (s.switched how next).Prompt next) :
    Calling settings script (s.switched how next) := by
  obtain ⟨σ, reachable, mirrors⟩ := mirrored
  obtain ⟨σ', reachable', mirrors', free⟩ := mirrors.switched reachable mem
  have apart : ∀ c, (σ'.activity next).frames ≠ [.call c] := fun c begins =>
    parked c ((call_switched mirrors.present).symm.trans (mirrors'.frames_eq_call.mp begins))
  have anywhere : Reachable anyMove σ' := reachable'.mono fun _ _ _ => trivial
  cases anywhere.course next with
  | about frames => exact absurd frames (apart _)
  | opened _ _ alone => cases free.symm.trans alone
  | committed committed =>
    cases inside : (s.switched how next).kernel.inInterrupt with
    | false => exact .committed reachable' mirrors' committed fun _ => inside
    | true =>
      have calm := mirrors'.not_blocking (prompt (inHandler_current.trans inside))
      have waits : false = true → (s.switched how next).kernel.inInterrupt = false := nofun
      exact .committed reachable' mirrors' (committed.unwaiting calm apart) waits

/-- So far is the running thread always. -/
theorem Reached.calling (fits : settings.Fits script) (reached : Reached settings script s) :
    Calling settings script s := by
  induction reached with
  | start boots =>
    refine calling_of_closing (mirrored_start fits boots) ?_
    unfold currentThread
    rw [thread_start]
    split <;> exact .closed
  | @step s before sound ih =>
    have mirrored := before.mirrored fits
    have mirrored' := mirrored.step sound
    have stepped := mirrored.stepped sound
    generalize after : (Simulation.step s).state = s' at stepped mirrored' ⊢
    cases stepped with
    | goesOn run =>
      have turn := mirrored.turn_of_run run
      have current := turn.retains.current
      cases call : s.currentThread.call with
      | nil =>
        rcases turn.call_of_idle call with closing | ⟨c, -, begins, kernel, queue⟩
        · rw [← current] at closing
          exact calling_of_closing mirrored' closing
        · rw [← current] at begins
          exact .begins before
            { sound, idle := call, current := after ▸ current, call := after ▸ begins
              kernel := after ▸ kernel, queue := after ▸ queue } after.symm
      | cons head below =>
        cases ih with
        | @begins r c reached begins is =>
          subst is
          rcases c.exists_opening with ⟨d, l, rfl⟩ | ⟨first, others, opens⟩
          · exact calling_of_wait mirrored begins.call turn
          · exact after ▸ begins.opens reached mirrored sound opens
        | @opened r c first others reached begins opens unrefused _ _ inside =>
          subst inside
          have there := (reached.step begins.sound).mirrored fits
          exact calling_of_opened mirrored there.has opens (begins.current ▸ unrefused) turn
        | committed reachable mirrors committed outside =>
          refine mirrors.calling_of_commits reachable call turn outside fun busy advances allowed =>
            ?_
          exact System.committed_after reachable allowed busy advances committed
    | switches run foremost =>
      have turn := mirrored.turn_of_run run
      have parked := parked_at_switch mirrored (fun _ => before.parked fits) turn
      have prompt := (before.step sound).prompt fits
      rw [after] at prompt
      exact calling_of_switched (mirrored.turn turn) foremost.mem (parked _) (prompt _)

end Simulation

end KernelSync
