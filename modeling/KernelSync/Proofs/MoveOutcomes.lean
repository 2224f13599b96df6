import KernelSync.Proofs.Excluded
import KernelSync.Proofs.Moves

/-!
How moves end, and what they report. A move of a thread within a call ends as the stretch from its
innermost frame does (`go_run`). Moves that neither try a lock nor change a base priority are calm.
-/

namespace KernelSync.System

open Stretch Donation

variable {α : Type} {bad : Event → Prop} {wrong : Fault → Prop}

theorem calm_onTable {x : Stretch ThreadTable α} (calm : Calm x) : Calm (onTable x) := by
  unfold onTable onKernel
  exact avoids_within (Kernel.calm_inSection fun _ => Kernel.calm_withThreads calm)

/-- An access to the thread table is reported as a section around what the computation reports. -/
theorem onTable_run {s : System} (quiet : s.kernel.Quiet) (x : Stretch ThreadTable α) :
    onTable x s = ⟨(x s.table).outcome, s.withTable (x s.table).state,
      .entered s.kernel.depth ::
        ((x s.table).events ++ [.left (s.kernel.depth + 1) s.kernel.depth])⟩ := by
  have deeper : ({ s.kernel with depth := s.kernel.depth + 1 } : Kernel).Quiet :=
    quiet.withDepth _
  unfold onTable onKernel within
  rw [Kernel.inSection_run, Kernel.withThreads_run deeper.threads]
  rfl

/-- To change a base priority is an access to the thread table. -/
theorem setBase_run {s : System} (quiet : s.kernel.Quiet) {t : ThreadId} {base : Priority} :
    perform (.setBase t base) s =
      ⟨(changeBasePriority t base s.kernel.mode s.table).outcome.map fun _ => (),
        s.withTable (changeBasePriority t base s.kernel.mode s.table).state,
        .entered s.kernel.depth ::
          ((changeBasePriority t base s.kernel.mode s.table).events ++
            [.left (s.kernel.depth + 1) s.kernel.depth])⟩ := by
  have changes : perform (.setBase t base) s = (do
      let _ ← onTable (changeBasePriority t base s.kernel.mode)
      return () : Stretch System Unit) s := rfl
  rw [changes, bind_run, onTable_run quiet]
  rcases changeBasePriority t base s.kernel.mode s.table with ⟨fault | priority, table, events⟩
  · rfl
  · simp [Except.map]

/-- A short call is made at the depth of its caller. -/
theorem short_run {s : System} {t : ThreadId} {call : ShortCall} : perform (.short t call) s =
    ⟨(call.run t (s.kernelAt t)).outcome.map fun _ => (),
      { s with kernel := (call.run t (s.kernelAt t)).state },
      (call.run t (s.kernelAt t)).events⟩ := by
  have calls : perform (.short t call) s = (do
      let _ ← onKernel do
        Stretch.update ({ · with depth := (s.activity t).depth })
        call.run t
      return () : Stretch System Unit) s := rfl
  have enters : onKernel (do
      Stretch.update ({ · with depth := (s.activity t).depth })
      call.run t) s = ⟨(call.run t (s.kernelAt t)).outcome,
        { s with kernel := (call.run t (s.kernelAt t)).state },
        (call.run t (s.kernelAt t)).events⟩ := rfl
  rw [calls, bind_run, enters]
  rcases call.run t (s.kernelAt t) with ⟨fault | answer, kernel, events⟩
  · rfl
  · simp [Except.map]

/-- No short call passes a priority on. -/
theorem short_unstopped {t : ThreadId} {call : ShortCall} :
    Unstopped (perform (.short t call)) := by
  refine avoids_bind (avoids_read _) fun activity => avoids_bind ?_ fun _ => avoids_pure ()
  exact avoids_within (avoids_bind (avoids_update _) fun _ => ShortCall.unstopped_run)

/-- Every move is calm but a change of a base priority, a lock that is tried and a stretch. -/
theorem calm_perform {move : Move} (notBase : ∀ t base, move ≠ .setBase t base)
    (notTry : ∀ t lock, move ≠ .short t (.tryAcquire lock)) (notGo : ∀ t, move ≠ .go t) :
    Calm (perform move) := by
  cases move with
  | newSemaphore | newLock | newCondvar | interrupt | call => exact avoids_update _
  | spawn name priority =>
    refine avoids_bind (calm_onTable ThreadTable.calm_spawn) fun made => ?_
    cases made with
    | ok id => exact avoids_update _
    | error full => exact avoids_pure ()
  | remove t =>
    exact avoids_bind (calm_onTable ThreadTable.calm_remove) fun _ => avoids_update _
  | setBase t base => exact absurd rfl (notBase t base)
  | setEffective t priority =>
    exact calm_onTable (ThreadTable.avoids_amend not_handed_staleHandle)
  | short t call =>
    refine avoids_bind (avoids_read _) fun activity => avoids_bind ?_ fun _ => avoids_pure ()
    refine avoids_within (avoids_bind (avoids_update _) fun _ => ShortCall.calm_run ?_)
    rintro lock rfl
    exact notTry t lock rfl
  | go t => exact absurd rfl (notGo t)

variable {s : System} {t : ThreadId} {head : Frame} {rest : List Frame}

/-- A stretch that a thread is taken through is that from its innermost frame. -/
theorem go_run (busy : (s.activity t).frames = head :: rest) : perform (.go t) s =
    match onFault (head.advance t) (Frame.unwind rest) (s.kernelAt t) with
    | ⟨.ok progress, kernel, events⟩ =>
        ⟨.ok (), settle t { progress with frames := progress.frames ++ rest } { s with kernel },
          events⟩
    | ⟨.error fault, kernel, events⟩ => ⟨.error fault, { s with kernel }, events⟩ := by
  have goes : perform (.go t) s = (do
      let progress ← onKernel do
        Stretch.update ({ · with depth := (s.activity t).depth })
        Frame.step t (s.activity t).frames
      Stretch.update (settle t progress) : Stretch System Unit) s := rfl
  have enters : ∀ frames run, Frame.step t frames (s.kernelAt t) = run →
      onKernel (do
        Stretch.update ({ · with depth := (s.activity t).depth })
        Frame.step t frames) s = ⟨run.outcome, { s with kernel := run.state }, run.events⟩ := by
    rintro frames run rfl
    rfl
  rw [goes, busy]
  rcases advances : onFault (head.advance t) (Frame.unwind rest) (s.kernelAt t) with
    ⟨fault | progress, kernel, events⟩
  · have steps : Frame.step t (head :: rest) (s.kernelAt t) = ⟨.error fault, kernel, events⟩ :=
      bind_run_error advances _
    rw [bind_run_error (enters _ _ steps)]
  · have steps : Frame.step t (head :: rest) (s.kernelAt t) =
        ⟨.ok { progress with frames := progress.frames ++ rest }, kernel, events⟩ := by
      refine (bind_run_ok advances _).trans ?_
      simp
    rw [bind_run_ok (enters _ _ steps)]
    simp

theorem go_eq_error_iff {fault : Fault} (busy : (s.activity t).frames = head :: rest) :
    (perform (.go t) s).outcome = .error fault ↔
      (head.advance t (s.kernelAt t)).outcome = .error fault := by
  rw [go_run busy]
  unfold onFault
  rcases head.advance t (s.kernelAt t) with ⟨other | progress, kernel, events⟩
  · simp
  · simp

/-- Besides what the stretch reports there are the sections that a fault leaves. -/
theorem mem_go_events {e : Event} (busy : (s.activity t).frames = head :: rest)
    (mem : e ∈ (perform (.go t) s).events) :
    e ∈ (head.advance t (s.kernelAt t)).events ∨
      ∃ k, e ∈ (Frame.unwind rest k).events := by
  rw [go_run busy] at mem
  unfold onFault at mem
  rcases runs : head.advance t (s.kernelAt t) with ⟨other | progress, kernel, events⟩ <;>
    rw [runs] at mem
  · exact (List.mem_append.mp mem).imp id fun mem => ⟨kernel, mem⟩
  · exact Or.inl mem

/-- Only a stretch that tries a lock can report a walk that was stopped. -/
theorem go_unstopped (busy : (s.activity t).frames = head :: rest)
    (quiet : ∀ e ∈ (head.advance t (s.kernelAt t)).events, ¬ Revisits e) :
    ∀ e ∈ (perform (.go t) s).events, ¬ Revisits e := by
  intro e mem
  rcases mem_go_events busy mem with mem | ⟨k, mem⟩
  · exact quiet e mem
  · exact Frame.calm_unwind.events k e mem

end KernelSync.System
