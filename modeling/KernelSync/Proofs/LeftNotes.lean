import KernelSync.Proofs.KeptNotes

/-!
Notes that handlers leave. However a handler ends, it leaves the interrupt context and its section. But
the note that its thread is to yield is taken back at a return and nowhere else: a handler that is left
by a fault leaves its note to the next one that returns (`note_outlives_handler`), which may never have
asked for anything (`left_note_yields_later`).
-/

namespace KernelSync.Simulation

open Stretch hiding pure bind
open Kernel

variable {settings : Settings} {actions : List Action} {path later : List Simulation}
  {s s' s₁ : Simulation} {how : Option Switch} {me u : ThreadId} {P Q : Simulation → Prop}

/-! ### What has happened since -/

/-- On the way `P` has held, and `Q` has not held since. -/
def Since (P Q : Simulation → Prop) (path : List Simulation) : Prop :=
  ∃ before r after, path = before ++ r :: after ∧ P r ∧ ∀ q ∈ after, ¬ Q q

theorem since_append : Since P Q (path ++ [s]) ↔ P s ∨ Since P Q path ∧ ¬ Q s := by
  constructor
  · rintro ⟨before, r, after, is, holds, never⟩
    rcases List.eq_nil_or_concat after with rfl | ⟨after, q, rfl⟩
    · obtain ⟨-, same⟩ := List.append_inj' is rfl
      cases same
      exact Or.inl holds
    · rw [List.concat_eq_append] at is never
      have is : path ++ [s] = (before ++ r :: after) ++ [q] := by simp [is]
      obtain ⟨rfl, same⟩ := List.append_inj' is rfl
      cases same
      refine Or.inr ⟨⟨before, r, after, rfl, holds, fun q mem => never q ?_⟩, never s ?_⟩
      · exact List.mem_append_left _ mem
      · exact List.mem_append_right _ (List.mem_singleton.mpr rfl)
  · rintro (holds | ⟨⟨before, r, after, rfl, holds, never⟩, not⟩)
    · exact ⟨path, s, [], rfl, holds, List.forall_mem_nil _⟩
    · refine ⟨before, r, after ++ [s], by simp, holds, fun q mem => ?_⟩
      rcases List.mem_append.mp mem with old | new
      · exact never q old
      · exact List.mem_singleton.mp new ▸ not

/-! ### Notes in a step -/

/-- The thread that runs is `me`, and its handler returns. -/
def Returns (s : Simulation) (me : ThreadId) : Prop :=
  s.current = me ∧ s.currentThread.call = [] ∧ atReturn s.currentThread.script = true

instance : Decidable (s.Returns me) := inferInstanceAs (Decidable (_ ∧ _ ∧ _))

/-- A check in a handler of `me` has found a more urgent thread, and puts the switch off. -/
def PutsOff (s : Simulation) (me : ThreadId) : Prop :=
  s.Finds me ∧ (advance s).outcome = .ok ()

instance : Decidable (s.PutsOff me) := inferInstanceAs (Decidable (_ ∧ _))

theorem Finds.not_returns (finds : s.Finds me) : ¬ s.Returns u := fun returns =>
  finds.busy returns.2.1

/-- A thread yields at the return of its handler if it has a note. -/
theorem proceedUntil_handlerReturned : (proceedUntil .handlerReturned s).outcome =
    .ok (if s.currentThread.yieldOnReturn then some .yield else none) := by
  have goesOn : (proceedUntil .handlerReturned s).outcome =
      ((if s.currentThread.yieldOnReturn then do
          Stretch.update (·.modifyCurrent ({ · with yieldOnReturn := false }))
          Stretch.log (.yieldsOnReturn s.currentThread.id)
          yieldUntil
        else Pure.pure none : Stretch Simulation (Option Switch)) s).outcome := rfl
  rw [goesOn]
  cases s.currentThread.yieldOnReturn with
  | false => rfl
  | true => rfl

theorem untilSwitch_of_returns (returns : s.Returns me) :
    (untilSwitch s).outcome = .ok (if s.notes me then some .yield else none) := by
  obtain ⟨rfl, idle, ends⟩ := returns
  obtain ⟨rest, due⟩ : ∃ rest, s.currentThread.script = .handlerReturned :: rest := by
    generalize s.currentThread.script = script at ends
    unfold atReturn at ends
    split at ends
    · exact ⟨_, rfl⟩
    · cases ends
  have has : s.Has s.current := by
    by_contra none
    have absent : s.currentThread = .absent := thread_absent none
    rw [absent] at due
    cases due
  let taken : Simulation := s.modifyCurrent ({ · with script := rest })
  have now : taken.currentThread = { s.currentThread with script := rest } :=
    (thread_modifyThread (f := ({ · with script := rest })) (fun _ => rfl) has).trans (if_pos rfl)
  have goesOn : (untilSwitch s).outcome = (proceedUntil .handlerReturned taken).outcome := by
    unfold untilSwitch
    rw [bind_run_ok (read_run _ _)]
    simp only [idle, due]
    rw [bind_run_ok (update_run _ _)]
  rw [goesOn, proceedUntil_handlerReturned, now]
  rfl

theorem not_returns_of_due {pending : Pending} {rest : List Pending}
    (due : s.currentThread.script = pending :: rest) (other : pending ≠ .handlerReturned) :
    ¬ s.Returns me := by
  rintro ⟨-, -, ends⟩
  rw [due] at ends
  cases pending with
  | handlerReturned => exact other rfl
  | _ => cases ends

theorem Shifts.notes {t : SimThread} {kernel : Kernel} {queue : RunQueue}
    (shifts : Shifts s s₁ t kernel queue) : s₁.notes s.current = t.yieldOnReturn :=
  congrArg SimThread.yieldOnReturn shifts.thread_current

/-- A check makes a note where it finds a more urgent thread in a handler, and there is no switch
then. -/
theorem notes_of_heeds {frame : Frame} {rest : List Frame} {kernel : Kernel} {progress : Progress}
    {queue : RunQueue} {flag : Bool} (call : s.currentThread.call = frame :: rest)
    (advances : Advances s.current s.kernel frame kernel progress)
    (heeds : Heeds s kernel progress.request queue flag how) :
    (flag = true ↔ s.Finds s.current ∨ s.notes s.current = true) ∧
      (s.Finds s.current → how = none) := by
  have calm : ¬ s.Finds s.current →
      (s.currentThread.yieldOnReturn = true ↔ s.Finds s.current ∨ s.notes s.current = true) ∧
        (s.Finds s.current → how = none) := fun unfound =>
    ⟨(or_iff_right unfound).symm, fun finds => absurd finds unfound⟩
  have elsewhere : progress.request ≠ .check → ¬ s.Finds s.current := by
    intro apart finds
    have checks := finds.checks
    rw [call] at checks
    exact apart (advances.request_eq_check.mpr (Option.some.inj checks))
  generalize requested : progress.request = request at heeds elsewhere
  cases heeds with
  | proceeds | blocks | wakes => exact calm (elsewhere nofun)
  | calm top =>
    obtain rfl := advances.request_eq_check.mp requested
    apply calm
    rintro ⟨-, -, -, u, ready, above⟩
    rw [← advances.eq_of_check requested] at above
    exact absurd (top u ready) (Nat.not_le_of_lt above)
  | defers inside outranked =>
    obtain rfl := advances.request_eq_check.mp requested
    rw [advances.eq_of_check requested] at inside outranked
    have finds : s.Finds s.current := ⟨rfl, inside, by rw [call]; rfl, outranked⟩
    exact ⟨⟨fun _ => Or.inl finds, fun _ => rfl⟩, fun _ => rfl⟩
  | preempts outside =>
    apply calm
    intro finds
    exact nomatch outside.symm.trans (advances.inInterrupt.trans finds.inside)

theorem Turn.notes_of_ne (turn : Turn s s₁ how) (apart : u ≠ s.current) :
    s₁.notes u = s.notes u := by
  unfold Simulation.notes
  rcases turn.retains.others u apart with same | ⟨none, _, _, _, fresh⟩
  · rw [same]
  · rw [fresh, thread_absent none]
    rfl

/-- A turn makes a note where a switch is put off, and takes it back where a handler returns. -/
theorem Turn.notes (turn : Turn s s₁ how) (quiet : s.kernel.Quiet) :
    (s₁.notes u = true ↔ s.Finds u ∨ s.notes u = true ∧ ¬ s.Returns u) ∧
      (s.Finds u → how = none) := by
  by_cases here : u = s.current
  case neg =>
    have calm : ¬ s.Finds u := fun finds => here finds.runs.symm
    have away : ¬ s.Returns u := fun returns => here returns.1.symm
    simp [turn.notes_of_ne here, calm, away]
  subst here
  have between : s.currentThread.call = [] → ¬ s.Finds s.current := fun idle finds =>
    finds.busy idle
  have still : s.currentThread.call = [] → ¬ s.Returns s.current →
      s₁.notes s.current = s.notes s.current →
      (s₁.notes s.current = true ↔
        s.Finds s.current ∨ s.notes s.current = true ∧ ¬ s.Returns s.current) ∧
      (s.Finds s.current → how = none) := by
    intro idle stays same
    simp [same, between idle, stays]
  cases turn with
  | rests idle empty =>
    refine still idle ?_ rfl
    rintro ⟨-, -, ends⟩
    rw [empty] at ends
    cases ends
  | thinks idle due unrolls shifts =>
    refine still idle (not_returns_of_due due ?_) shifts.notes
    rintro rfl
    cases unrolls
  | spawns idle due adds notReady kernel queue current main thread =>
    refine still idle (not_returns_of_due due nofun) ?_
    unfold Simulation.notes
    rw [thread, if_pos rfl]
    rfl
  | answers idle due asks shifts | rebases idle due changes shifts
  | interrupts idle due outside shifts | handled idle due shifts | yields idle due shifts
  | finishes idle due shifts | exits idle due removes shifts =>
    exact still idle (not_returns_of_due due nofun) shifts.notes
  | returns idle due unasked shifts =>
    have before : s.notes s.current = false := unasked
    simp [shifts.notes, unasked, before, between idle]
  | yieldsOnReturn idle due asked shifts =>
    have returns : s.Returns s.current := ⟨rfl, idle, by rw [due]; rfl⟩
    simp [shifts.notes, between idle, returns]
  | goes busy steps heeds shifts =>
    have stays : ¬ s.Returns s.current := fun returns => busy returns.2.1
    obtain ⟨frame, rest, call⟩ := List.exists_cons_of_ne_nil busy
    rw [call] at steps
    obtain ⟨progress, advanced, rfl⟩ := step_eq_ok steps
    rw [shifts.notes, and_iff_left stays]
    exact notes_of_heeds call (advances_of_ok quiet advanced) heeds

/-! ### Notes on a run -/

/-- A step makes a note where a switch is put off, and takes it back where a handler returns; faults
do neither. -/
theorem Intact.notes_step (intact : Intact s) : (step s).state.notes u = true ↔
    s.PutsOff u ∨ s.notes u = true ∧ ¬ s.Returns u := by
  rcases run : untilSwitch s with ⟨fault | how, s₁, events⟩
  · have fails : (untilSwitch s).outcome = .error fault := by rw [run]
    have unheard : ¬ s.PutsOff u := by
      rintro ⟨-, sound⟩
      rw [advance_eq, bind_run_error run] at sound
      cases sound
    have stays : ¬ s.Returns u := by
      intro returns
      rw [untilSwitch_of_returns returns] at fails
      cases fails
    rw [(sameNotes_of_fails fails).notes]
    simp [unheard, stays]
  · obtain ⟨notes, defers⟩ := (intact.turn_of_run run).notes (u := u) intact.1.quiet
    have heard : s.PutsOff u ↔ s.Finds u := by
      refine and_iff_left_of_imp fun finds => ?_
      cases defers finds
      rw [advance_eq, bind_run_ok run]
      rfl
    rw [(sameNotes_of_turns run).notes, notes, heard]

/-- A thread has a note just where it has put off a switch and no handler of it has returned since. -/
theorem Journey.notes_iff (journey : Journey settings actions path s) :
    s.notes me = true ↔ Since (·.PutsOff me) (·.Returns me) path := by
  induction journey with
  | @start main table events boots =>
    have none : (settings.start actions table main).notes me = false := by
      unfold Simulation.notes
      rw [thread_start]
      split
      · rfl
      · rfl
    rw [none]
    refine ⟨nofun, ?_⟩
    rintro ⟨before, r, after, is, -⟩
    cases before with
    | nil => cases is
    | cons => cases is
  | step before unfinished ih => rw [before.intact.notes_step, since_append, ih]

/-- A step without a fault in a handler goes on to its return. -/
theorem Intact.noted_step (intact : Intact s) (paired : ∀ u, Paired (s.thread u).script)
    (sound : (advance s).outcome = .ok ()) (noted : s.Noted u) : (step s).state.Noted u := by
  rw [step_of_sound sound]
  rcases ends : advance s with ⟨outcome, s', events⟩
  rw [ends] at sound
  cases sound
  rw [advance_eq] at ends
  obtain ⟨how, s₁, _, _, run, dispatches, -⟩ := bind_eq_ok.mp ends
  have turn := intact.turn_of_run run
  have after := noted_of_turn noted paired intact.1.quiet turn
  cases how with
  | none =>
    cases dispatches
    exact after
  | some how =>
    obtain ⟨-, next, -, rfl⟩ := switch_eq_ok (turn.quiet intact.1.quiet) dispatches
    have has : s.Has s.current := by
      rcases intact.2 with idle | standing
      · rw [untilSwitch_of_idle idle] at run
        cases run
      · exact standing.has
    have present : s₁.Has s₁.current := turn.retains.current ▸ turn.retains.has _ has
    unfold Noted at after ⊢
    rw [inHandler_switched present, call_switched present, script_switched present,
      yieldOnReturn_switched present]
    exact after

theorem Intact.paired_step (intact : Intact s) (paired : ∀ u, Paired (s.thread u).script) :
    ∀ u, Paired ((step s).state.thread u).script := by
  rcases run : untilSwitch s with ⟨fault | how, s₁, events⟩
  · exact (sameNotes_of_fails (by rw [run])).paired paired
  · exact (sameNotes_of_turns run).paired (paired_of_turn paired (intact.turn_of_run run))

theorem Journey.paired (journey : Journey settings actions path s) (u : ThreadId) :
    Paired (s.thread u).script := by
  induction journey generalizing u with
  | start boots =>
    rw [thread_start]
    split
    · exact ⟨nofun, nofun, trivial⟩
    · trivial
  | step before unfinished ih => exact before.intact.paired_step ih u

/-- A step has failed while `me` had a note, and no handler of it has returned since. -/
def Kept (path : List Simulation) (me : ThreadId) : Prop :=
  Since (fun r => r.notes me = true ∧ (advance r).outcome ≠ .ok ()) (·.Returns me) path

/-- Without a fault there is no note but in a handler, or at its return. -/
theorem Journey.noted_or_kept (journey : Journey settings actions path s) :
    s.Noted me ∨ Kept path me := by
  induction journey with
  | start boots =>
    refine Or.inl fun asked => ?_
    rw [thread_start] at asked
    split at asked <;> cases asked
  | @step path s before unfinished ih =>
    cases after : (Simulation.step s).state.notes me with
    | false => exact Or.inl fun asked => nomatch after.symm.trans asked
    | true =>
      have made := before.intact.notes_step.mp after
      by_cases sound : (advance s).outcome = .ok ()
      · rcases ih with noted | kept
        · exact Or.inl (before.intact.noted_step before.paired sound noted)
        · refine Or.inr (since_append.mpr (Or.inr ⟨kept, ?_⟩))
          exact made.elim (fun putsOff => putsOff.1.not_returns) And.right
      · have had := made.resolve_left fun putsOff => sound putsOff.2
        exact Or.inr (since_append.mpr (Or.inl ⟨had.1, sound⟩))

/-! ### Outside handlers -/

/-- The thread `me` runs and is between calls, in no handler and not about to leave the table. So it
is where an interrupt begins, and where one is over. -/
structure OutsideHandlers (s : Simulation) (me : ThreadId) : Prop where
  runs : s.current = me
  idle : s.currentThread.call = []
  busy : s.currentThread.script ≠ []
  left : ∀ pending ∈ s.currentThread.script, pending.saved? = none

instance : Decidable (s.OutsideHandlers me) :=
  decidable_of_iff (s.current = me ∧ s.currentThread.call = [] ∧
      s.currentThread.script.isEmpty = false ∧
      ∀ pending ∈ s.currentThread.script, pending.saved? = none)
    ⟨fun ⟨runs, idle, busy, left⟩ => ⟨runs, idle, by simpa using busy, left⟩,
      fun ⟨runs, idle, busy, left⟩ => ⟨runs, idle, by simpa using busy, left⟩⟩

/-- A thread outside handlers is in no section and not in interrupt context. -/
theorem Intact.registers_of_outside (intact : Intact s) (outside : s.OutsideHandlers me) :
    s.kernel.depth = 0 ∧ s.kernel.inInterrupt = false := by
  have standing := intact.2.resolve_left fun idle => outside.busy idle.2
  have sections : s.currentThread.sections = [] := by
    unfold SimThread.sections sectionsOf
    rw [outside.idle]
    exact List.filterMap_eq_nil_iff.mpr outside.left
  have none : handlersOf s.currentThread.script = 0 := by
    refine List.countP_eq_zero.mpr fun pending mem is => ?_
    have left := outside.left pending mem
    cases pending with
    | handler => cases left
    | _ => cases is
  obtain ⟨depth, handlers⟩ := standing.shows
  rw [sections] at depth
  rw [none] at handlers
  refine ⟨depth, ?_⟩
  cases inside : s.kernel.inInterrupt with
  | false => rfl
  | true =>
    have inside : s.registers.inInterrupt = true := inside
    rw [inside] at handlers
    cases handlers

/-- Where an interrupt begins and where it is over the thread is in no section and not in interrupt
context, however its handlers have ended. But its note is taken back at a return and nowhere else: a
thread has a note just where it has put off a switch and no handler of it has returned since. Outside
handlers that is so where a step has failed, and a handler was left without a return; the next handler
that returns then lets the thread yield, whether or not that handler has asked for it. -/
theorem note_outlives_handler (journey : Journey settings actions path s) (me : ThreadId) :
    (s.OutsideHandlers me → s.kernel.depth = 0 ∧ s.kernel.inInterrupt = false) ∧
    (s.notes me = true ↔ Since (·.PutsOff me) (·.Returns me) path) ∧
    (s.OutsideHandlers me → ¬ s.Returns me → s.notes me = true → Kept path me) ∧
    (s.Returns me →
      (s.Yields me ↔ Since (·.PutsOff me) (·.Returns me) path) ∧
        (step s).state.notes me = false) := by
  have intact := journey.intact
  refine ⟨intact.registers_of_outside, journey.notes_iff, fun outside stays note => ?_,
    fun returns => ⟨?_, ?_⟩⟩
  · refine journey.noted_or_kept.resolve_left fun noted => ?_
    rcases noted note with inside | ⟨idle, ends⟩
    · rw [← outside.runs, inHandler_current, (intact.registers_of_outside outside).2] at inside
      cases inside
    · refine stays ⟨outside.runs, outside.idle, ?_⟩
      rw [← outside.runs] at ends
      exact ends
  · rw [← journey.notes_iff]
    unfold Yields
    rw [untilSwitch_of_returns returns]
    simp [returns.1]
  · have unheard : ¬ s.PutsOff me := fun putsOff => putsOff.1.not_returns returns
    have taken := intact.notes_step (u := me)
    simpa [unheard, returns] using taken

/-! ### A note for another handler -/

/-- A handler makes a thread that is more urgent than its own, so that a switch is put off. Then it
raises its own thread above that one, and fails; the fault is caught. The thread takes back the raise,
and is interrupted by a handler that does nothing. -/
def leavesNote : List Action :=
  [.attempt [.interrupt [.spawn "urgent" 40 [] none, .setPriority 50, .raise "stop"]],
    .setPriority 40, .interrupt []]

def leavesNoteStart : Simulation :=
  Settings.start {} leavesNote (Settings.table {} (.empty 0)).state ⟨0, 0⟩

theorem journey_leavesNote {count : Nat} (played : playJourney count [] leavesNoteStart =
    some (path, s)) : Journey {} leavesNote path s :=
  Journey.play (.start rfl) played

/-- Where the fault has been caught the note is still there, and the return of the next handler takes
it. -/
theorem caught_fault_keeps_note :
    (∃ path s, Journey {} leavesNote path s ∧ s.OutsideHandlers ⟨0, 0⟩ ∧ s.kernel.depth = 0 ∧
      s.kernel.inInterrupt = false ∧ s.notes ⟨0, 0⟩ = true ∧ Kept path ⟨0, 0⟩) ∧
    ∃ path s, Journey {} leavesNote path s ∧ s.Returns ⟨0, 0⟩ ∧
      Since (·.PutsOff ⟨0, 0⟩) (·.Returns ⟨0, 0⟩) path ∧ s.Yields ⟨0, 0⟩ ∧
      (step s).state.notes ⟨0, 0⟩ = false := by
  constructor
  · have plays : (playJourney 12 [] leavesNoteStart).map (fun played =>
        decide (played.2.OutsideHandlers ⟨0, 0⟩ ∧ ¬ played.2.Returns ⟨0, 0⟩ ∧
          played.2.notes ⟨0, 0⟩ = true)) = some true := by
      decide +kernel
    obtain ⟨⟨path, s⟩, played, facts⟩ := Option.map_eq_some_iff.mp plays
    obtain ⟨outside, stays, note⟩ := of_decide_eq_true facts
    have journey := journey_leavesNote played
    obtain ⟨clear, -, kept, -⟩ := note_outlives_handler journey ⟨0, 0⟩
    exact ⟨path, s, journey, outside, (clear outside).1, (clear outside).2, note,
      kept outside stays note⟩
  · have plays : (playJourney 19 [] leavesNoteStart).map (fun played =>
        decide (played.2.Returns ⟨0, 0⟩ ∧ played.2.notes ⟨0, 0⟩ = true)) = some true := by
      decide +kernel
    obtain ⟨⟨path, s⟩, played, facts⟩ := Option.map_eq_some_iff.mp plays
    obtain ⟨returns, note⟩ := of_decide_eq_true facts
    have journey := journey_leavesNote played
    obtain ⟨-, owes, -, ends⟩ := note_outlives_handler journey ⟨0, 0⟩
    have since := owes.mp note
    exact ⟨path, s, journey, returns, since, (ends returns).1.mpr since, (ends returns).2⟩

/-- An interrupt begins with the note that an earlier one has left, and the thread yields at the return
of its handler, though that has not put off anything. -/
theorem left_note_yields_later : ∃ path s later s',
    Journey {} leavesNote path s ∧ s.OutsideHandlers ⟨0, 0⟩ ∧
      beginsInterrupt s.currentThread.script = true ∧ s.notes ⟨0, 0⟩ = true ∧
    Journey {} leavesNote (path ++ later) s' ∧ (∀ r ∈ later, ¬ r.PutsOff ⟨0, 0⟩) ∧
      s'.Returns ⟨0, 0⟩ ∧ s'.Yields ⟨0, 0⟩ := by
  have plays : ((playJourney 16 [] leavesNoteStart).bind fun first =>
      (playJourney 3 [] first.2).map fun second =>
        decide (first.2.OutsideHandlers ⟨0, 0⟩ ∧
          beginsInterrupt first.2.currentThread.script = true ∧ first.2.notes ⟨0, 0⟩ = true ∧
          (∀ r ∈ second.1, ¬ r.PutsOff ⟨0, 0⟩) ∧ second.2.Returns ⟨0, 0⟩ ∧
          second.2.Yields ⟨0, 0⟩)) = some true := by
    decide +kernel
  obtain ⟨⟨path, s⟩, played, goesOn⟩ := Option.bind_eq_some_iff.mp plays
  obtain ⟨⟨later, s'⟩, playedOn, facts⟩ := Option.map_eq_some_iff.mp goesOn
  obtain ⟨outside, begins, note, calm, returns, yields⟩ := of_decide_eq_true facts
  have journey := journey_leavesNote played
  exact ⟨path, s, later, s', journey, outside, begins, note, journey.playOn playedOn, calm, returns,
    yields⟩

end KernelSync.Simulation
