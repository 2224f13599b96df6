import KernelSync.Proofs.Joins

/-!
Interrupt handlers. A handler runs in the thread that it interrupts, and no other thread runs before
it is over: what would make the thread wait is refused, and a check that finds a more urgent thread
only leaves a note. At the return of the handler the thread yields, once, if there is a note; and
then nobody outranks the thread that runs (`handler_defers_switch`).
-/

namespace KernelSync

/-- Whether a frame is inside a call that waits. -/
def Frame.blocking : Frame → Bool
  | .down _ | .downQueued _ | .acquire _ | .acquireQueued _ | .signaled _ => true
  | .call _ | .up _ | .check | .giveUp _ | .claim _ _ | .signal _ | .broadcast _ | .leave _ => false

section Advances

variable {me : ThreadId} {k k' : Kernel} {frame : Frame} {progress : Progress}
  (advances : Advances me k frame k' progress)
include advances

/-- In interrupt context no stretch waits, and none leads to where the next one might. -/
theorem Advances.prompt (inside : k.inInterrupt = true) (prompt : frame.blocking = false) :
    progress.request ≠ .block ∧ ∀ f ∈ progress.frames, f.blocking = false := by
  cases advances with
  | @opens call frames opening allowed =>
    refine ⟨nofun, ?_⟩
    cases call with
    | wait => cases opening
    | down | acquire => exact nomatch (allowed rfl).symm.trans inside
    | up | release | signal | broadcast =>
      cases opening
      simp [Frame.blocking]
  | waits held allowed => exact nomatch allowed.symm.trans inside
  | takes | queues | retries | acquires | registers | reacquires | returns => cases prompt
  | raises | wakes | checks | givesUp | holds | signalsNobody | signals | broadcastsNobody
  | broadcasts | leaves => simp [Frame.blocking]

end Advances

namespace Simulation

open Donation

variable {settings : Settings} {script : List Action} {s s₁ s' : Simulation}
  {how : Option Switch} {me u next : ThreadId} {handler : List Action} {below : List Pending}
  {path : List Simulation}

/-! ### What is pending in a handler -/

mutual

/-- The action does not yield; what a new thread does is not meant. -/
def Action.Unyielding : Action → Prop
  | .yield => False
  | .times _ script => Unyielding script
  | .ifLast yes no => Unyielding yes ∧ Unyielding no
  | .branch _ yes no => Unyielding yes ∧ Unyielding no
  | .attempt script => Unyielding script
  | _ => True

def Unyielding : List Action → Prop
  | [] => True
  | action :: actions => action.Unyielding ∧ Unyielding actions

end

/-- What can be pending in a handler that does not yield. -/
def Pending.Unyielding : Pending → Prop
  | .actions script | .times _ script => Simulation.Unyielding script
  | .handler _ | .handlerReturned | .finish _ | .remove _ => False
  | .start | .waiting .. | .over .. | .known .. | .attempt | .disguise _ | .returned => True

/-- What comes in the place of something that does not yield does not yield, and makes at most a
call that has yet to begin. -/
theorem Unrolls.unyielding {pending : Pending} {new : List Pending} {frames : List Frame}
    (unrolls : Unrolls s pending new frames) (mild : pending.Unyielding) :
    (∀ p ∈ new, p.Unyielding) ∧ ∀ f ∈ frames, f.blocking = false := by
  cases unrolls with
  | start | ended | timesOver | waited | reports | known | attempt | disguise | returned =>
    exact ⟨List.forall_mem_nil _, List.forall_mem_nil _⟩
  | calls | waitsWhile | joins | waits =>
    simp_all [Pending.Unyielding, Simulation.Unyielding, Frame.blocking]
  | acts | timesAgain | repeats | attempts =>
    simp_all [Pending.Unyielding, Simulation.Unyielding, Action.Unyielding]
  | chooses which | branches which =>
    cases which <;> simp_all [Pending.Unyielding, Simulation.Unyielding, Action.Unyielding]

/-! ### Notes -/

/-- Between handlers and their returns no thread has a note. -/
def Noted (s : Simulation) (u : ThreadId) : Prop :=
  (s.thread u).yieldOnReturn = true → s.inHandler u = true ∨
    (s.thread u).call = [] ∧ atReturn (s.thread u).script = true

theorem inHandler_current : s.inHandler s.current = s.kernel.inInterrupt := if_pos rfl

/-- Whether a thread that does not run is in a handler is as it was. -/
theorem inHandler_of_ne (retains : Retains s s₁) (apart : u ≠ s.current)
    (same : s₁.thread u = s.thread u) : s₁.inHandler u = s.inHandler u := by
  unfold inHandler
  rw [retains.current, if_neg apart, if_neg apart, same]

/-- A switch leaves the notes alone. -/
theorem yieldOnReturn_switched {how : Switch} (present : s.Has s.current) :
    ((s.switched how next).thread u).yieldOnReturn = (s.thread u).yieldOnReturn := by
  rw [thread_switched present]
  split
  · rename_i here
    rw [here]
    rfl
  · rfl

/-- A thread with a note that has something else to do than to return from its handler is in it. -/
theorem Noted.inside (noted : s.Noted s.current) {pending : Pending} {rest : List Pending}
    (due : s.currentThread.script = pending :: rest) (other : pending ≠ .handlerReturned)
    (asked : s.currentThread.yieldOnReturn = true) : s.kernel.inInterrupt = true := by
  refine (noted asked).elim inHandler_current.symm.trans fun ⟨_, ends⟩ => ?_
  rw [show (s.thread s.current).script = _ from due] at ends
  cases pending with
  | handlerReturned => exact absurd rfl other
  | _ => cases ends

theorem Noted.inside_of_busy (noted : s.Noted s.current) (busy : s.currentThread.call ≠ [])
    (asked : s.currentThread.yieldOnReturn = true) : s.kernel.inInterrupt = true :=
  (noted asked).elim inHandler_current.symm.trans fun ⟨idle, _⟩ => absurd idle busy

/-- The thread that runs keeps its note in a handler and at its return. -/
theorem noted_of_shifts {t : SimThread} {kernel : Kernel} {queue : RunQueue}
    (shifts : Shifts s s₁ t kernel queue)
    (asks : t.yieldOnReturn = true →
      kernel.inInterrupt = true ∨ t.call = [] ∧ atReturn t.script = true) :
    s₁.Noted s.current := by
  intro asked
  rw [shifts.thread_current] at asked ⊢
  refine (asks asked).imp_left fun inside => ?_
  rw [← shifts.current, inHandler_current, shifts.kernel_eq]
  exact inside

theorem noted_of_turn (own : s.Noted u) (paired : ∀ u, Paired (s.thread u).script)
    (quiet : s.kernel.Quiet) (turn : Turn s s₁ how) : s₁.Noted u := by
  have retains := turn.retains
  by_cases here : u = s.current
  case neg =>
    rcases retains.others u here with same | ⟨-, name, script, disguise, fresh⟩
    · unfold Noted
      rw [inHandler_of_ne retains here same, same]
      exact own
    · intro asked
      rw [fresh] at asked
      cases asked
  subst here
  cases turn with
  | rests => exact own
  | thinks idle due unrolls shifts =>
    exact noted_of_shifts shifts fun asked =>
      Or.inl (own.inside due (by rintro rfl; cases unrolls) asked)
  | answers idle due asks shifts =>
    exact noted_of_shifts shifts fun asked =>
      Or.inl ((answers_of_ok quiet asks).inInterrupt.trans (own.inside due nofun asked))
  | spawns idle due adds notReady kernel queue current main thread has joinable =>
    intro asked
    rw [thread, if_pos rfl] at asked
    refine Or.inl ?_
    rw [← current, inHandler_current, kernel]
    exact own.inside due nofun asked
  | rebases idle due changes shifts | yields idle due shifts | finishes idle due shifts
  | exits idle due removes shifts =>
    exact noted_of_shifts shifts fun asked => Or.inl (own.inside due nofun asked)
  | interrupts idle due outside shifts => exact noted_of_shifts shifts fun _ => Or.inl rfl
  | handled idle due shifts =>
    have after := paired s.current
    rw [show (s.thread s.current).script = _ :: _ from due] at after
    obtain ⟨rest, rfl⟩ := after.1 ⟨_, rfl⟩
    exact noted_of_shifts shifts fun _ => Or.inr ⟨idle, rfl⟩
  | returns idle due unasked shifts =>
    exact noted_of_shifts shifts fun asked => nomatch unasked.symm.trans asked
  | yieldsOnReturn idle due asked shifts => exact noted_of_shifts shifts nofun
  | goes busy steps heeds shifts =>
    refine noted_of_shifts shifts fun asked => Or.inl ?_
    obtain ⟨head, below, call⟩ := List.exists_cons_of_ne_nil busy
    rw [call] at steps
    obtain ⟨progress, advanced, -⟩ := step_eq_ok steps
    have still := (advances_of_ok quiet advanced).inInterrupt
    generalize Progress.request _ = request at heeds
    cases heeds with
    | proceeds | blocks | wakes | calm | preempts =>
      exact still.trans (own.inside_of_busy busy asked)
    | defers here => exact here

/-- No thread has a note but in a handler, or at the return of one. -/
theorem Reached.noted (fits : settings.Fits script) (reached : Reached settings script s)
    (u : ThreadId) : s.Noted u := by
  induction reached generalizing u with
  | start boots =>
    intro asked
    rw [thread_start] at asked
    split at asked <;> cases asked
  | @step s before sound ih =>
    have mirrored := before.mirrored fits
    have paired := (before.urgent fits).paired
    have stepped := mirrored.stepped sound
    generalize (Simulation.step s).state = s' at stepped ⊢
    cases stepped with
    | goesOn run => exact noted_of_turn (ih u) paired mirrored.quiet (mirrored.turn_of_run run)
    | switches run foremost =>
      have turn := mirrored.turn_of_run run
      have present := (mirrored.turn turn).has
      have after := noted_of_turn (ih u) paired mirrored.quiet turn
      unfold Noted at after ⊢
      rw [inHandler_switched present, call_switched present, script_switched present,
        yieldOnReturn_switched present]
      exact after

theorem Reached.has_step (fits : settings.Fits script) (reached : Reached settings script s)
    (sound : (advance s).outcome = .ok ()) (has : s.Has u) : (Simulation.step s).state.Has u := by
  have mirrored := reached.mirrored fits
  have stepped := mirrored.stepped sound
  generalize (Simulation.step s).state = s' at stepped ⊢
  cases stepped with
  | goesOn run => exact (mirrored.turn_of_run run).retains.has u has
  | switches run => exact has_switched.mpr ((mirrored.turn_of_run run).retains.has u has)

/-! ### Stages of an interrupt -/

/-- In its handler `me` checks for a more urgent thread, and there is one. -/
structure Finds (s : Simulation) (me : ThreadId) : Prop where
  runs : s.current = me
  inside : s.kernel.inInterrupt = true
  checks : s.currentThread.call.head? = some .check
  outranked : s.Outranked

instance : Decidable (s.Finds me) :=
  decidable_of_iff (s.current = me ∧ s.kernel.inInterrupt = true ∧
      s.currentThread.call.head? = some .check ∧ ∃ u ∈ s.queue.ready,
        rank s.kernel.table s.current < rank s.kernel.table u)
    ⟨fun finds => ⟨finds.1, finds.2.1, finds.2.2.1, finds.2.2.2⟩,
      fun finds => ⟨finds.runs, finds.inside, finds.checks, finds.outranked⟩⟩

theorem Finds.busy (finds : s.Finds me) : s.currentThread.call ≠ [] := by
  intro idle
  have checks := finds.checks
  rw [idle] at checks
  cases checks

/-- In the next step `me` yields. -/
def Yields (s : Simulation) (me : ThreadId) : Prop :=
  s.current = me ∧ (untilSwitch s).outcome = .ok (some .yield)

instance : Decidable (s.Yields me) := inferInstanceAs (Decidable (_ ∧ _))

/-- The script of a handler that does not yield, with `below` still to do when it has returned. -/
inductive HandlerScript (below : List Pending) : List Pending → Prop where
  | ends {saved : Nat} : HandlerScript below (.handler saved :: .handlerReturned :: below)
  | next {pending : Pending} {rest : List Pending} (mild : pending.Unyielding)
      (goesOn : HandlerScript below rest) : HandlerScript below (pending :: rest)

theorem HandlerScript.append {new rest : List Pending} (mild : ∀ p ∈ new, p.Unyielding)
    (goesOn : HandlerScript below rest) : HandlerScript below (new ++ rest) := by
  induction new with
  | nil => exact goesOn
  | cons p new ih =>
    exact .next (mild p List.mem_cons_self) (ih fun q mem => mild q (List.mem_cons_of_mem _ mem))

theorem HandlerScript.length_lt {script : List Pending} (handles : HandlerScript below script) :
    below.length + 1 < script.length := by
  induction handles with
  | ends => exact Nat.lt_succ_self _
  | next _ _ ih => exact Nat.lt_succ_of_lt ih

/-- The thread `me` runs a handler, and `noted` says if that has found a more urgent thread. -/
structure Handling (s : Simulation) (me : ThreadId) (below : List Pending) (noted : Prop) :
    Prop where
  runs : s.current = me
  inside : s.kernel.inInterrupt = true
  script : HandlerScript below s.currentThread.script
  prompt : ∀ f ∈ s.currentThread.call, f.blocking = false
  flag : s.currentThread.yieldOnReturn = true ↔ noted

/-- The handler has returned to `me`, which has `below` still to do. -/
structure AtReturn (s : Simulation) (me : ThreadId) (below : List Pending) : Prop where
  runs : s.current = me
  idle : s.currentThread.call = []
  script : s.currentThread.script = .handlerReturned :: below

/-- The interrupt is over. -/
structure Back (s : Simulation) (me : ThreadId) (below : List Pending) : Prop where
  runs : s.current = me
  idle : s.currentThread.call = []
  script : s.currentThread.script = below

/-- Where an interrupt of `me` has come to, and how often `me` has yielded since its beginning. -/
inductive Interruption (s : Simulation) (me : ThreadId) (below : List Pending) (noted : Prop) :
    Nat → Prop where
  | handles (handling : s.Handling me below noted) : Interruption s me below noted 0
  | returns (at_ : s.AtReturn me below) (outside : s.kernel.inInterrupt = false)
      (flag : s.currentThread.yieldOnReturn = true ↔ noted) : Interruption s me below noted 0
  | yielded {saved : Nat} (found : noted) (outside : s.inHandler me = false)
      (call : (s.thread me).call = [.leave saved]) (script : (s.thread me).script = below) :
      Interruption s me below noted 1
  | back {yields : Nat} (back : s.Back me below) (outside : s.kernel.inInterrupt = false)
      (once : noted → yields = 1) (never : ¬ noted → yields = 0) :
      Interruption s me below noted yields

section Handling

variable {noted : Prop}

theorem handling_of_thread {t : SimThread} (runs : s₁.current = me) (now : s₁.thread me = t)
    (inside : s₁.kernel.inInterrupt = true) (script : HandlerScript below t.script)
    (prompt : ∀ f ∈ t.call, f.blocking = false) (flag : t.yieldOnReturn = true ↔ noted) :
    s₁.Handling me below noted := by
  subst runs now
  exact ⟨rfl, inside, script, prompt, flag⟩

/-- But at a check nothing is found. -/
theorem Handling.unfound (handling : s.Handling me below noted)
    (other : s.currentThread.call.head? ≠ some .check) :
    s.currentThread.yieldOnReturn = true ↔ noted ∨ s.Finds me :=
  handling.flag.trans ⟨Or.inl, fun now => now.resolve_right fun finds => other finds.checks⟩

/-- A stretch in a handler asks for no switch, and leaves a note if it finds a more urgent thread. -/
theorem Handling.heeds {frame : Frame} {rest : List Frame} {kernel : Kernel}
    {progress : Progress} {queue : RunQueue} {flag : Bool} (handling : s.Handling me below noted)
    (call : s.currentThread.call = frame :: rest)
    (advances : Advances s.current s.kernel frame kernel progress)
    (heeds : Heeds s kernel progress.request queue flag how) :
    how = none ∧ (flag = true ↔ noted ∨ s.Finds me) := by
  have prompt := handling.prompt frame (call ▸ List.mem_cons_self)
  have wakeful := (advances.prompt handling.inside prompt).1
  generalize requested : progress.request = request at heeds
  cases heeds with
  | proceeds | wakes =>
    refine ⟨rfl, handling.unfound fun here => ?_⟩
    rw [call] at here
    have checks := advances.request_eq_check.mpr (Option.some.inj here)
    exact nomatch checks.symm.trans requested
  | blocks => exact absurd requested wakeful
  | calm top =>
    obtain rfl := advances.request_eq_check.mp requested
    refine ⟨rfl, handling.flag.trans ⟨Or.inl, fun now => now.resolve_right ?_⟩⟩
    rintro ⟨-, -, -, u, ready, above⟩
    rw [← advances.eq_of_check requested] at above
    exact absurd (top u ready) (Nat.not_le_of_lt above)
  | defers _ outranked =>
    obtain rfl := advances.request_eq_check.mp requested
    rw [advances.eq_of_check requested] at outranked
    have finds : s.Finds me := ⟨handling.runs, handling.inside, by rw [call]; rfl, outranked⟩
    exact ⟨rfl, fun _ => Or.inr finds, fun _ => rfl⟩
  | preempts outside =>
    exact nomatch outside.symm.trans (advances.inInterrupt.trans handling.inside)

end Handling

section Turn

variable {noted : Prop} (turn : Turn s s₁ how) (quiet : s.kernel.Quiet)
include turn quiet

/-- A turn in a handler ends without a switch, and leads on in the handler or to its return. A check
that finds a more urgent thread is noted. -/
theorem Handling.turned (handling : s.Handling me below noted) :
    how = none ∧ (s₁.Handling me below (noted ∨ s.Finds me) ∨
      s₁.AtReturn me below ∧ s₁.kernel.inInterrupt = false ∧
        (s₁.currentThread.yieldOnReturn = true ↔ noted ∨ s.Finds me)) := by
  obtain rfl := handling.runs
  have current := turn.retains.current
  have script := handling.script
  have calm : s.currentThread.call = [] →
      (s.currentThread.yieldOnReturn = true ↔ noted ∨ s.Finds s.current) := fun idle =>
    handling.unfound (by rw [idle]; exact nofun)
  have silent : ∀ f ∈ ([] : List Frame), f.blocking = false := List.forall_mem_nil _
  have opens : ∀ f ∈ [Frame.check, .leave s.kernel.depth], f.blocking = false := by
    simp [Frame.blocking]
  cases turn with
  | rests idle empty => exact nomatch (empty ▸ script)
  | thinks idle due unrolls shifts =>
    rw [due] at script
    cases script with
    | ends => cases unrolls
    | next mild rest =>
      obtain ⟨mild, prompt⟩ := unrolls.unyielding mild
      exact ⟨rfl, Or.inl (handling_of_thread current shifts.thread_current
        (shifts.kernel_eq ▸ handling.inside) (rest.append mild) prompt (calm idle))⟩
  | answers idle due asks shifts =>
    rw [due] at script
    cases script with
    | next mild rest =>
      have still := (answers_of_ok quiet asks).inInterrupt.trans handling.inside
      exact ⟨rfl, Or.inl (handling_of_thread current shifts.thread_current
        (shifts.kernel_eq ▸ still) (.next mild.2 rest) (idle ▸ silent) (calm idle))⟩
  | spawns idle due adds notReady kernel queue _ main thread has joinable =>
    rw [due] at script
    cases script with
    | next mild rest =>
      exact ⟨rfl, Or.inl (handling_of_thread current ((thread _).trans (if_pos rfl))
        (kernel ▸ handling.inside) (.next trivial (.next trivial (.next mild.2 rest))) opens
        (calm idle))⟩
  | rebases idle due changes shifts =>
    rw [due] at script
    cases script with
    | next mild rest =>
      exact ⟨rfl, Or.inl (handling_of_thread current shifts.thread_current
        (shifts.kernel_eq ▸ handling.inside) (.next trivial (.next mild.2 rest)) opens
        (calm idle))⟩
  | interrupts idle due outside shifts => exact nomatch outside.symm.trans handling.inside
  | handled idle due shifts =>
    rw [due] at script
    cases script with
    | next mild rest => cases mild
    | ends =>
      refine ⟨rfl, Or.inr ⟨⟨current, ?_, ?_⟩, ?_, ?_⟩⟩
      · rw [shifts.currentThread]
        exact idle
      · rw [shifts.currentThread]
      · rw [shifts.kernel_eq]
      · rw [shifts.currentThread]
        exact calm idle
  | returns idle due | yieldsOnReturn idle due | yields idle due | finishes idle due
  | exits idle due =>
    rw [due] at script
    cases script with
    | next mild rest =>
      simp [Pending.Unyielding, Simulation.Unyielding, Action.Unyielding] at mild
  | goes busy steps heeds shifts =>
    obtain ⟨frame, rest, call⟩ := List.exists_cons_of_ne_nil busy
    rw [call] at steps
    obtain ⟨progress, advanced, rfl⟩ := step_eq_ok steps
    have advances := advances_of_ok quiet advanced
    obtain ⟨rfl, flag⟩ := handling.heeds call advances heeds
    have still := advances.inInterrupt.trans handling.inside
    rw [← shifts.kernel_eq] at still
    have before := handling.prompt
    rw [call] at before
    have onward := (advances.prompt handling.inside (before frame List.mem_cons_self)).2
    have prompt : ∀ f ∈ progress.frames ++ rest, f.blocking = false := fun f mem =>
      (List.mem_append.mp mem).elim (onward f) fun old => before f (List.mem_cons_of_mem _ old)
    exact ⟨rfl, Or.inl (handling_of_thread current shifts.thread_current still script prompt flag)⟩

omit quiet in
/-- At the return of a handler the thread yields if the handler has found a more urgent one, and goes
on if it has not. -/
theorem AtReturn.turned (at_ : s.AtReturn me below)
    (flag : s.currentThread.yieldOnReturn = true ↔ noted) :
    s₁.kernel.inInterrupt = s.kernel.inInterrupt ∧
      (how = none ∧ ¬ noted ∧ s₁.Back me below ∧ s₁.queue = s.queue ∧ s₁.kernel = s.kernel ∨
        how = some .yield ∧ noted ∧ (s₁.thread me).call = [.leave s.kernel.depth] ∧
          (s₁.thread me).script = below) := by
  obtain ⟨rfl, idle, script⟩ := at_
  cases turn with
  | rests _ due | answers _ due | spawns _ due | rebases _ due | interrupts _ due | handled _ due
  | yields _ due | finishes _ due | exits _ due => exact nomatch script.symm.trans due
  | thinks _ due unrolls =>
    cases script.symm.trans due
    cases unrolls
  | goes busy => exact absurd idle busy
  | returns _ due unasked shifts =>
    cases script.symm.trans due
    refine ⟨congrArg _ shifts.kernel_eq, Or.inl ⟨rfl, ?_, ⟨shifts.current, ?_, ?_⟩,
      shifts.queue_eq, shifts.kernel_eq⟩⟩
    · exact fun found => nomatch unasked.symm.trans (flag.mpr found)
    · rw [shifts.currentThread]
      exact idle
    · rw [shifts.currentThread]
  | yieldsOnReturn _ due asked shifts =>
    cases script.symm.trans due
    refine ⟨by rw [shifts.kernel_eq], Or.inr ⟨rfl, flag.mp asked, ?_, ?_⟩⟩ <;>
      rw [shifts.thread_current]

/-- The section in which the thread has yielded is closed when the thread runs again; until then
nothing happens to it. -/
theorem yielded_turned {saved : Nat} (has : s.Has me) (outside : s.inHandler me = false)
    (call : (s.thread me).call = [.leave saved]) (script : (s.thread me).script = below) :
    s₁.inHandler me = false ∧
      (s.current ≠ me ∧ (s₁.thread me).call = [.leave saved] ∧ (s₁.thread me).script = below ∨
        s.current = me ∧ how = none ∧ s₁.Back me below) := by
  have retains := turn.retains
  by_cases here : me = s.current
  · subst here
    obtain ⟨progress, advances, frames, same, -, goesOn⟩ := turn.stretch quiet call
    have still : s₁.inHandler s.current = s₁.kernel.inInterrupt := by
      rw [← retains.current, inHandler_current]
    rw [inHandler_current, ← advances.inInterrupt, ← still] at outside
    generalize s₁.kernel = kernel at advances
    cases advances
    refine ⟨outside, Or.inr ⟨rfl, goesOn rfl, retains.current, ?_, ?_⟩⟩
    · rw [currentThread, retains.current]
      exact frames
    · rw [currentThread, retains.current]
      exact same.trans script
  · have same := retains.thread_eq here has
    rw [inHandler_of_ne retains here same, same]
    exact ⟨outside, Or.inl ⟨Ne.symm here, call, script⟩⟩

end Turn

/-- Between calls with as much left to do as after the interrupt the thread is back from it. -/
theorem Interruption.ended {noted : Prop} {yields : Nat}
    (stage : Interruption s me below noted yields) (runs : s.current = me)
    (idle : s.currentThread.call = []) (length : s.currentThread.script.length = below.length) :
    s.Back me below ∧ s.kernel.inInterrupt = false ∧ (noted → yields = 1) := by
  cases stage with
  | handles handling =>
    have longer := handling.script.length_lt
    omega
  | returns at_ =>
    rw [at_.script, List.length_cons] at length
    omega
  | yielded found outside call =>
    rw [← runs] at call
    exact nomatch idle.symm.trans call
  | back back outside once => exact ⟨back, outside, once⟩

theorem yields_iff {events : List Event} (run : untilSwitch s = ⟨.ok how, s₁, events⟩) :
    s.Yields me ↔ s.current = me ∧ how = some .yield := by
  unfold Yields
  rw [run]
  simp

theorem not_yields {events : List Event} (run : untilSwitch s = ⟨.ok none, s₁, events⟩) :
    ¬ s.Yields me := fun yields => nomatch ((yields_iff run).mp yields).2

section Step

variable {noted : Prop} {yields : Nat} (fits : settings.Fits script)
  (reached : Reached settings script s) (sound : (advance s).outcome = .ok ())
include fits reached sound

/-- A step of an interrupt that is not over leads on to its end. -/
theorem Interruption.step (stage : Interruption s me below noted yields) (has : s.Has me)
    (unfinished : ¬ s.Back me below) :
    Interruption (step s).state me below (noted ∨ s.Finds me)
      (yields + if s.Yields me then 1 else 0) := by
  have mirrored := reached.mirrored fits
  have quiet := mirrored.quiet
  have stepped := mirrored.stepped sound
  generalize (Simulation.step s).state = s' at stepped ⊢
  cases stage with
  | handles handling =>
    cases stepped with
    | goesOn run =>
      rw [if_neg (not_yields run)]
      obtain ⟨-, goesOn | ⟨at_, outside, flag⟩⟩ := handling.turned (mirrored.turn_of_run run) quiet
      · exact .handles goesOn
      · exact .returns at_ outside flag
    | switches run => exact nomatch (handling.turned (mirrored.turn_of_run run) quiet).1
  | returns at_ outside flag =>
    -- between calls nothing is found
    have calm : ¬ s.Finds me := fun finds => finds.busy at_.idle
    have same : (noted ∨ s.Finds me) = noted := propext (or_iff_left calm)
    rw [same]
    cases stepped with
    | goesOn run =>
      rw [if_neg (not_yields run)]
      obtain ⟨still, ⟨-, unfound, back, -⟩ | ⟨yields, -⟩⟩ :=
        at_.turned (mirrored.turn_of_run run) flag
      · exact .back back (still.trans outside) (fun found => absurd found unfound) fun _ => rfl
      · cases yields
    | switches run foremost =>
      have turn := mirrored.turn_of_run run
      have present := (mirrored.turn turn).has
      obtain ⟨still, ⟨gives, -⟩ | ⟨yields, found, call, script⟩⟩ := at_.turned turn flag
      · cases gives
      cases yields
      rw [if_pos ((yields_iff run).mpr ⟨at_.runs, rfl⟩)]
      refine .yielded found ?_ ((call_switched present).trans call)
        ((script_switched present).trans script)
      rw [inHandler_switched present, ← at_.runs, ← turn.retains.current, inHandler_current]
      exact still.trans outside
  | yielded found outside call script =>
    have same : (noted ∨ s.Finds me) = True := propext (iff_true_intro (Or.inl found))
    rw [same]
    cases stepped with
    | goesOn run =>
      have turn := mirrored.turn_of_run run
      rw [if_neg (not_yields run)]
      obtain ⟨outside, ⟨-, call, script⟩ | ⟨-, -, back⟩⟩ :=
        yielded_turned turn quiet has outside call script
      · exact .yielded trivial outside call script
      · rw [← back.runs, inHandler_current] at outside
        exact .back back outside (fun _ => rfl) (absurd trivial)
    | switches run foremost =>
      have turn := mirrored.turn_of_run run
      have present := (mirrored.turn turn).has
      obtain ⟨outside, ⟨other, call, script⟩ | ⟨-, gives, -⟩⟩ :=
        yielded_turned turn quiet has outside call script
      · rw [if_neg fun yields => other yields.1]
        exact .yielded trivial ((inHandler_switched present).trans outside)
          ((call_switched present).trans call) ((script_switched present).trans script)
      · cases gives
  | back back => exact absurd back unfinished

end Step

/-- The simulation runs, and `me` is interrupted: the states up to the end of the interrupt, each
with those from which the steps since its beginning have started. No step ends in a fault, caught or
not, neither before the interrupt nor in it. -/
inductive Interrupted (settings : Settings) (script : List Action) (me : ThreadId)
    (handler : List Action) (below : List Pending) : List Simulation → Simulation → Prop where
  | begins {s : Simulation} {actions : List Action} {rest : List Pending}
      (before : Reached settings script s) (runs : s.current = me)
      (idle : s.currentThread.call = [])
      (due : s.currentThread.script = .actions (.interrupt handler :: actions) :: rest)
      (leaves : below = .over "interrupt" .done :: .actions actions :: rest)
      (sound : (advance s).outcome = .ok ()) :
      Interrupted settings script me handler below [] (step s).state
  | goesOn {path : List Simulation} {s : Simulation}
      (before : Interrupted settings script me handler below path s)
      (unfinished : ¬ s.Back me below) (sound : (advance s).outcome = .ok ()) :
      Interrupted settings script me handler below (path ++ [s]) (step s).state

section Interrupted

variable (interrupted : Interrupted settings script me handler below path s)
include interrupted

theorem Interrupted.reached : Reached settings script s := by
  induction interrupted with
  | begins before runs idle due leaves sound => exact before.step sound
  | goesOn before unfinished sound ih => exact ih.step sound

theorem Interrupted.not_atReturn : atReturn below = false := by
  induction interrupted with
  | begins before runs idle due leaves sound =>
    rw [leaves]
    rfl
  | goesOn before unfinished sound ih => exact ih

variable (fits : settings.Fits script) (mild : Unyielding handler)
include fits mild

/-- From its beginning up to its end an interrupt is at one of its stages. -/
theorem Interrupted.interruption : s.Has me ∧
    Interruption s me below (∃ r ∈ path, r.Finds me) (path.countP (·.Yields me)) := by
  induction interrupted with
  | @begins s actions rest before runs idle due leaves sound =>
    subst runs
    have mirrored := before.mirrored fits
    have handles : ∀ {how s₁ events}, untilSwitch s = ⟨.ok how, s₁, events⟩ → how = none ∧
        s₁.Has s.current ∧ s₁.Handling s.current below (∃ r ∈ [], Finds r s.current) := by
      intro how s₁ events run
      obtain ⟨rfl, mid, _, acted, -, interrupts⟩ :=
        performs_of_untilSwitch mirrored.has idle due nofun run
      obtain ⟨outside, shifts⟩ := shifts_of_interrupt mirrored.has acted interrupts
      have unasked : ¬ s.currentThread.yieldOnReturn = true := by
        intro asked
        rcases before.noted fits s.current asked with inside | ⟨-, ends⟩
        · rw [inHandler_current] at inside
          exact nomatch inside.symm.trans outside
        · rw [show (s.thread s.current).script = _ from due] at ends
          cases ends
      refine ⟨rfl, (shifts.has _).mpr mirrored.has, shifts.current, ?_, ?_, ?_, ?_⟩
      · rw [shifts.kernel_eq]
      · rw [shifts.currentThread, leaves]
        exact .next mild .ends
      · rw [shifts.currentThread, idle]
        exact List.forall_mem_nil _
      · rw [shifts.currentThread]
        exact ⟨fun asked => absurd asked unasked, fun ⟨_, mem, _⟩ => absurd mem List.not_mem_nil⟩
    have stepped := mirrored.stepped sound
    generalize (Simulation.step s).state = s' at stepped ⊢
    cases stepped with
    | goesOn run => exact ⟨(handles run).2.1, .handles (handles run).2.2⟩
    | switches run => exact nomatch (handles run).1
  | @goesOn path s before unfinished sound ih =>
    obtain ⟨has, stage⟩ := ih
    have reached := before.reached
    have next := stage.step fits reached sound has unfinished
    have found : (∃ r ∈ path ++ [s], r.Finds me) ↔ (∃ r ∈ path, r.Finds me) ∨ s.Finds me := by
      simp [or_and_right, exists_or]
    rw [List.countP_append, List.countP_singleton, propext found]
    exact ⟨reached.has_step fits sound has, by simpa using next⟩

/-- Until the thread yields it runs. -/
theorem Interrupted.runs (unyielding : path.countP (·.Yields me) = 0) : s.current = me := by
  obtain ⟨-, stage⟩ := interrupted.interruption fits mild
  rw [unyielding] at stage
  cases stage with
  | handles handling => exact handling.runs
  | returns at_ | back at_ => exact at_.runs

/-- In its handler the thread has not yielded, and does not give up the processor in the next step. -/
theorem Interrupted.keeps_of_inHandler (inside : s.inHandler me = true) :
    path.countP (·.Yields me) = 0 ∧ ∀ how s₁, ¬ s.Switches how s₁ := by
  have mirrored := interrupted.reached.mirrored fits
  obtain ⟨-, stage⟩ := interrupted.interruption fits mild
  generalize List.countP _ path = yields at stage
  cases stage with
  | handles handling =>
    refine ⟨rfl, fun how s₁ ⟨events, run⟩ => ?_⟩
    exact nomatch (handling.turned (mirrored.turn_of_run run) mirrored.quiet).1
  | returns at_ outside | back at_ outside =>
    rw [← at_.runs, inHandler_current] at inside
    exact nomatch inside.symm.trans outside
  | yielded found outside => exact nomatch inside.symm.trans outside

/-- Unless something has been found the thread does not yield. -/
theorem Interrupted.yields_of_unfound (unfound : ∀ r ∈ path, ¬ r.Finds me) :
    path.countP (·.Yields me) = 0 := by
  have nothing : ¬ ∃ r ∈ path, r.Finds me := fun ⟨r, mem, finds⟩ => unfound r mem finds
  obtain ⟨-, stage⟩ := interrupted.interruption fits mild
  generalize List.countP _ path = yields at stage ⊢
  cases stage with
  | handles | returns => rfl
  | yielded found => exact absurd found nothing
  | back back outside once never => exact never nothing

/-- At its end the interrupt has been followed by one yield, if anything has been found, and nobody
outranks the thread. -/
theorem Interrupted.yields_of_back (back : s.Back me below) :
    ((∃ r ∈ path, r.Finds me) → path.countP (·.Yields me) = 1) ∧ ¬ s.Outranked := by
  obtain ⟨-, stage⟩ := interrupted.interruption fits mild
  obtain ⟨-, outside, once⟩ :=
    stage.ended back.runs back.idle (congrArg List.length back.script)
  have own : s.RunsOwnCode := ⟨back.idle, outside, back.script ▸ interrupted.not_atReturn⟩
  exact ⟨once, fun outranked => own.not_due ((interrupted.reached.urgent fits).due outranked)⟩

/-- The step with which the handler returns leaves nobody who outranks the thread that runs. -/
theorem Interrupted.not_outranked_step (at_ : s.AtReturn me below)
    (sound : (advance s).outcome = .ok ()) : ¬ (Simulation.step s).state.Outranked := by
  have mirrored := interrupted.reached.mirrored fits
  have urgent := interrupted.reached.urgent fits
  have flag : s.currentThread.yieldOnReturn = true ↔ ∃ r ∈ path, r.Finds me := by
    obtain ⟨-, stage⟩ := interrupted.interruption fits mild
    generalize List.countP _ path = yields at stage
    have length := congrArg List.length at_.script
    rw [List.length_cons] at length
    cases stage with
    | handles handling => exact handling.flag
    | returns _ _ flag => exact flag
    | yielded found outside call =>
      rw [← at_.runs] at call
      exact nomatch at_.idle.symm.trans call
    | back back =>
      rw [back.script] at length
      omega
  have stepped := mirrored.stepped sound
  generalize (Simulation.step s).state = s' at stepped ⊢
  cases stepped with
  | goesOn run =>
    obtain ⟨-, ⟨-, unfound, back, queue, kernel⟩ | ⟨yields, -⟩⟩ :=
      at_.turned (mirrored.turn_of_run run) flag
    · rintro ⟨u, ready, above⟩
      rw [queue] at ready
      rw [kernel, back.runs, ← at_.runs] at above
      exact unfound (flag.mp ((urgent.due ⟨u, ready, above⟩).of_idle at_.idle).1)
    · cases yields
  | switches run foremost => exact not_outranked_switched foremost

end Interrupted

/-- Handlers never switch threads, and a switch that they put off is made once, on every run on which
no step ends in a fault, caught or not. As long as a thread is in a handler that does not yield it
gives up the processor in no step, and no other thread runs before it has yielded. When the interrupt
is over it has yielded once, if a check in the handler has found a ready thread of higher effective
priority; and if none has, it has not. No ready thread outranks the one that runs, neither after the
step with which the handler returns nor when the interrupt is over. -/
theorem handler_defers_switch (fits : settings.Fits script) (mild : Unyielding handler)
    (interrupted : Interrupted settings script me handler below path s) :
    (s.inHandler me = true →
      path.countP (·.Yields me) = 0 ∧ ∀ how s₁, ¬ s.Switches how s₁) ∧
    (path.countP (·.Yields me) = 0 → s.current = me ∧ s.queue.running = some me) ∧
    ((∀ r ∈ path, ¬ r.Finds me) → path.countP (·.Yields me) = 0) ∧
    (s.Back me below →
      ((∃ r ∈ path, r.Finds me) → path.countP (·.Yields me) = 1) ∧ ¬ s.Outranked) ∧
    (s.AtReturn me below → (advance s).outcome = .ok () → ¬ (step s).state.Outranked) := by
  refine ⟨interrupted.keeps_of_inHandler fits mild, fun unyielding => ?_,
    interrupted.yields_of_unfound fits mild, interrupted.yields_of_back fits mild,
    interrupted.not_outranked_step fits mild⟩
  obtain ⟨σ, -, mirrors⟩ := interrupted.reached.mirrored fits
  have runs := interrupted.runs fits mild unyielding
  exact ⟨runs, runs ▸ mirrors.running⟩

/-! ### A handler that makes a more urgent thread -/

/-- As many steps of an interrupt of `me`, which is over when `me` is between calls with `size` things
left to do. -/
def playInterrupt (me : ThreadId) (size : Nat) :
    Nat → List Simulation → Simulation → Option (List Simulation × Simulation)
  | 0, path, s => some (path, s)
  | count + 1, path, s =>
      if s.current = me ∧ s.currentThread.call = [] ∧ s.currentThread.script.length = size then none
      else match (advance s).outcome with
        | .ok () => playInterrupt me size count (path ++ [s]) (step s).state
        | .error _ => none

theorem Interrupted.play {count : Nat} {path' : List Simulation}
    (interrupted : Interrupted settings script me handler below path s)
    (played : playInterrupt me below.length count path s = some (path', s')) :
    Interrupted settings script me handler below path' s' := by
  induction count generalizing path s with
  | zero =>
    cases played
    exact interrupted
  | succ count ih =>
    simp only [playInterrupt] at played
    split at played
    · cases played
    · rename_i unfinished
      split at played
      · rename_i ends
        refine ih (interrupted.goesOn (fun back => unfinished ?_) ends) played
        exact ⟨back.runs, back.idle, congrArg List.length back.script⟩
      · cases played

/-- The main thread is interrupted by a handler that makes a thread of higher priority. -/
def urgentHandler : List Action := [.spawn "urgent" 40 [] none]

theorem urgent_fits : Settings.Fits {} [.interrupt urgentHandler] := by
  refine ⟨nofun, ?_⟩
  simp [urgentHandler, Settings.Admits, Settings.AdmitsAction]

/-- What the main thread does when the interrupt is over. -/
def afterInterrupt : List Pending := [.over "interrupt" .done, .actions [], .returned]

/-- The main thread yields once, at the return of the handler. -/
theorem urgent_handler_yields_once : ∃ path s,
    Interrupted {} [.interrupt urgentHandler] ⟨0, 0⟩ urgentHandler afterInterrupt path s ∧
      s.Back ⟨0, 0⟩ afterInterrupt ∧ path.countP (·.Yields ⟨0, 0⟩) = 1 ∧ ¬ s.Outranked := by
  let start : Simulation :=
    Settings.start {} [.interrupt urgentHandler] (Settings.table {} (.empty 0)).state ⟨0, 0⟩
  have begins : Interrupted {} [.interrupt urgentHandler] ⟨0, 0⟩ urgentHandler afterInterrupt []
      (step start).state := .begins (.start rfl) rfl rfl rfl rfl (by decide +kernel)
  have plays : (playInterrupt ⟨0, 0⟩ afterInterrupt.length 17 [] (step start).state).map
      (fun (path, s) => decide (s.current = ⟨0, 0⟩ ∧ s.currentThread.call = [] ∧
        s.currentThread.script.length = afterInterrupt.length ∧
        ∃ r ∈ path, r.Finds ⟨0, 0⟩)) = some true := by
    decide +kernel
  obtain ⟨⟨path, s⟩, played, facts⟩ := Option.map_eq_some_iff.mp plays
  obtain ⟨runs, idle, length, found⟩ := of_decide_eq_true facts
  have mild : Unyielding urgentHandler := by
    simp [urgentHandler, Unyielding, Action.Unyielding]
  have interrupted := begins.play played
  have back : s.Back ⟨0, 0⟩ afterInterrupt :=
    ((interrupted.interruption urgent_fits mild).2.ended runs idle length).1
  obtain ⟨-, -, -, ends, -⟩ := handler_defers_switch urgent_fits mild interrupted
  exact ⟨path, s, interrupted, back, (ends back).1 found, (ends back).2⟩

/-! ### A caught fault before the interrupt -/

/-- Whether the next thing to do is to begin an interrupt. -/
def beginsInterrupt : List Pending → Bool
  | .actions (.interrupt _ :: _) :: _ => true
  | _ => false

/-- In a run that ends well an interrupt whose handler does nothing begins and ends without a fault. It
finds nothing and the thread does not yield, though a ready thread outranks it when the interrupt is
over. -/
theorem calm_handler_leaves_outranked : (run fraying frayed).outcome = .ok () ∧
    ∃ path s later s', Journey fraying frayed path s ∧ s.current = ⟨0, 0⟩ ∧ s.RunsOwnCode ∧
      beginsInterrupt s.currentThread.script = true ∧
      Journey fraying frayed (path ++ later) s' ∧
      (∀ r ∈ later, (advance r).outcome = .ok () ∧ ¬ r.Finds ⟨0, 0⟩ ∧ ¬ r.Yields ⟨0, 0⟩) ∧
      (∃ r ∈ later, r.inHandler ⟨0, 0⟩ = true) ∧ s'.current = ⟨0, 0⟩ ∧ s'.RunsOwnCode ∧
      s'.queue.failure = none ∧ s'.Outranked := by
  have plays : ((playJourney 118 [] frayingStart).bind fun first =>
      (playJourney 4 [] first.2).map fun second =>
        decide (first.2.current = ⟨0, 0⟩ ∧ first.2.RunsOwnCode ∧
          beginsInterrupt first.2.currentThread.script = true ∧
          (∀ r ∈ second.1, (advance r).outcome = .ok () ∧ ¬ r.Finds ⟨0, 0⟩ ∧ ¬ r.Yields ⟨0, 0⟩) ∧
          (∃ r ∈ second.1, r.inHandler ⟨0, 0⟩ = true) ∧ second.2.current = ⟨0, 0⟩ ∧
          second.2.RunsOwnCode ∧ second.2.queue.failure = none ∧ second.2.Outranked)) =
      some true := by
    decide +kernel
  obtain ⟨⟨path, s⟩, played, goesOn⟩ := Option.bind_eq_some_iff.mp plays
  obtain ⟨⟨later, s'⟩, playedOn, facts⟩ := Option.map_eq_some_iff.mp goesOn
  obtain ⟨current, own, begins, calm, inside, back⟩ := of_decide_eq_true facts
  have journey := journey_fraying played
  exact ⟨by decide +kernel, path, s, later, s', journey, current, own, begins,
    journey.playOn playedOn, calm, inside, back⟩

end Simulation

end KernelSync
