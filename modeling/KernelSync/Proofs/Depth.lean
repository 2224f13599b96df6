import KernelSync.Proofs.Parts

/-!
Depth. How many atomic sections a thread is in decides nothing: a stretch ends in the same way and
does the same to the kernel in more or fewer sections (`Level`), and frames that differ in the
depths they will restore (`Alike`) go on alike.
-/

namespace KernelSync

open Stretch Kernel

variable {α β : Type} {me : ThreadId} {k k' : Kernel} {progress : Progress} {events : List Event}

/-! ### Stretches that mind no depth -/

/-- From another depth the stretch ends in the same way, and leaves the same kernel at that
depth. -/
def Level (x : Stretch Kernel α) : Prop := ∀ (k : Kernel) (depth : Nat),
  (x { k with depth }).outcome = (x k).outcome ∧
    (x { k with depth }).state = { (x k).state with depth }

theorem Level.eq_ok {x : Stretch Kernel α} (level : Level x) {a : α}
    (run : x k = ⟨.ok a, k', events⟩) (depth : Nat) :
    ∃ events', x { k with depth } = ⟨.ok a, { k' with depth }, events'⟩ := by
  obtain ⟨outcome, state⟩ := level k depth
  rcases there : x { k with depth } with ⟨outcome', state', events'⟩
  rw [there, run] at outcome state
  cases outcome
  cases state
  exact ⟨events', rfl⟩

theorem level_pure (a : α) : Level (Pure.pure a : Stretch Kernel α) := fun _ _ => ⟨rfl, rfl⟩

theorem level_fail (fault : Fault) : Level (fail fault : Stretch Kernel α) := fun _ _ => ⟨rfl, rfl⟩

theorem level_require (condition : Prop) [Decidable condition] (fault : Fault) :
    Level (require condition fault) := by
  unfold require
  split
  · exact level_pure ()
  · exact level_fail fault

theorem level_read {f : Kernel → α} (blind : ∀ (k : Kernel) depth, f { k with depth } = f k) :
    Level (read f) := fun k depth => ⟨congrArg Except.ok (blind k depth), rfl⟩

theorem level_update {f : Kernel → Kernel}
    (blind : ∀ (k : Kernel) depth, f { k with depth } = { f k with depth }) : Level (update f) :=
  fun k depth => ⟨rfl, blind k depth⟩

theorem level_log (entry : LogEntry) : Level (log entry : Stretch Kernel Unit) :=
  fun _ _ => ⟨rfl, rfl⟩

theorem level_bind {x : Stretch Kernel α} {f : α → Stretch Kernel β} (first : Level x)
    (next : ∀ a, Level (f a)) : Level (x >>= f) := by
  intro k depth
  obtain ⟨outcome, state⟩ := first k depth
  rcases here : x k with ⟨result, mid, before⟩
  rcases there : x { k with depth } with ⟨result', mid', before'⟩
  rw [here, there] at outcome state
  cases outcome
  cases state
  rw [bind_run, bind_run, here, there]
  cases result with
  | error fault => exact ⟨rfl, rfl⟩
  | ok a => exact next a mid depth

theorem level_ensuring {x : Stretch Kernel α} {last : Stretch Kernel Unit} (first : Level x)
    (final : Level last) : Level (ensuring x last) := by
  intro k depth
  obtain ⟨outcome, state⟩ := first k depth
  refine ⟨outcome, ?_⟩
  show (last (x { k with depth }).state).state = { (last (x k).state).state with depth }
  rw [state]
  exact (final _ depth).2

theorem level_accessing {cell : CellId} {body : Stretch Kernel α} (level : Level body) :
    Level (accessing cell body) := by
  have flags : ∀ busy, Level (update (·.setBusy busy cell)) := by
    intro busy
    refine level_update fun k depth => ?_
    cases cell <;> rfl
  refine level_bind (level_read fun k depth => ?_) fun _ => ?_
  · cases cell <;> rfl
  · exact level_bind (level_require _ _) fun _ =>
      level_bind (flags true) fun _ => level_ensuring level (flags false)

theorem level_withThreads (body : Stretch ThreadTable α) : Level (withThreads body) :=
  level_accessing fun _ _ => ⟨rfl, rfl⟩

/-- A section restores the depth that it finds. -/
theorem level_inSection {x : Stretch Kernel α} (level : Level x) : Level (inSection fun _ => x) := by
  intro k depth
  rw [inSection_run, inSection_run]
  obtain ⟨outcome, state⟩ := level { k with depth := k.depth + 1 } (depth + 1)
  refine ⟨outcome, ?_⟩
  show ({ (x { k with depth := depth + 1 }).state with depth } : Kernel) = _
  rw [show x { k with depth := depth + 1 } =
    x { ({ k with depth := k.depth + 1 } : Kernel) with depth := depth + 1 } from rfl, state]

theorem composes_level : Composes Level fun _ => True where
  value := level_pure
  bind := level_bind
  read := level_read
  require _ := level_require _ _
  log _ := level_log _
  update writes := level_update writes.depth
  accessing := level_accessing
  inspects _ := level_withThreads _

theorem conveys_level : Conveys Level Level (fun _ => True) fun _ => True :=
  composes_level.conveys (fun _ => level_pure _) level_bind

/-- A call without a wait minds no depth. -/
theorem level_run (call : ShortCall) : Level (call.run me) :=
  conveys_level.run level_inSection fun _ _ => ⟨trivial, fun _ _ => level_withThreads _⟩

/-! ### Frames that are alike -/

/-- The frame without the depth that it will restore. -/
def Frame.plain : Frame → Frame
  | .leave _ => .leave 0
  | frame => frame

/-- Frames that differ at most in the depths that they will restore. -/
def Alike (frames frames' : List Frame) : Prop := frames.map Frame.plain = frames'.map Frame.plain

theorem Alike.refl (frames : List Frame) : Alike frames frames := rfl

theorem Alike.cons_inv {frame : Frame} {frames frames' : List Frame}
    (alike : Alike (frame :: frames) frames') :
    ∃ frame' rest, frames' = frame' :: rest ∧ frame.plain = frame'.plain ∧ Alike frames rest := by
  cases frames' with
  | nil => exact nomatch alike
  | cons frame' rest =>
    obtain ⟨same, alike⟩ := List.cons.inj alike
    exact ⟨frame', rest, rfl, same, alike⟩

theorem Alike.append {frames frames' rest rest' : List Frame} (first : Alike frames frames')
    (next : Alike rest rest') : Alike (frames ++ rest) (frames' ++ rest') := by
  unfold Alike at first next ⊢
  rw [List.map_append, List.map_append, first, next]

/-- A frame is alike to itself alone, unless it ends a section. -/
theorem Frame.eq_of_plain {frame frame' : Frame} (same : frame.plain = frame'.plain) :
    frame = frame' ∨ ∃ saved saved', frame = .leave saved ∧ frame' = .leave saved' := by
  cases frame <;> cases frame' <;> first
    | exact Or.inl same
    | exact Or.inr ⟨_, _, rfl, rfl⟩
    | exact nomatch same

/-- What is in one of two alike lists is in the other, unless it ends a section. -/
theorem Alike.mem {frame : Frame} {frames frames' : List Frame} (alike : Alike frames frames')
    (mem : frame ∈ frames) : frame ∈ frames' ∨ ∃ saved, frame = .leave saved := by
  have plain : frame.plain ∈ frames'.map Frame.plain := alike ▸ List.mem_map_of_mem mem
  obtain ⟨frame', mem', is⟩ := List.mem_map.mp plain
  rcases Frame.eq_of_plain is with rfl | ⟨_, saved, -, rfl⟩
  · exact Or.inl mem'
  · exact Or.inr ⟨saved, rfl⟩

/-- Inside a call a stretch minds no depth, until the section ends. -/
theorem level_advance {frame : Frame} (notCall : ∀ call, frame ≠ .call call)
    (notLeave : ∀ saved, frame ≠ .leave saved) : Level (frame.advance me) := by
  cases frame with
  | call call => exact absurd rfl (notCall call)
  | leave saved => exact absurd rfl (notLeave saved)
  | acquire lock =>
    exact conveys_level.advance fun _ _ => ⟨level_withThreads _, level_withThreads _⟩
  | giveUp lock => exact conveys_level.advance fun _ _ => level_withThreads _
  | up | claim => exact conveys_level.advance (by simp [Frame.Admits])
  | down | downQueued | acquireQueued | check | signal | broadcast | signaled =>
    exact conveys_level.advance trivial

/-- To open a section costs a depth, at any depth. -/
theorem opens_at {call : Call} {frames : List Frame} (opening : call.opening = some frames)
    (run : Frame.begin me call k = ⟨.ok progress, k', events⟩) (depth : Nat) :
    ∃ progress' depth' events', Frame.begin me call { k with depth } =
        ⟨.ok progress', { k' with depth := depth' }, events'⟩ ∧
      progress'.request = progress.request ∧ Alike progress'.frames progress.frames := by
  rw [Frame.begin_of_opening opening] at run ⊢
  obtain ⟨⟨⟩, mid, _, _, first, rest, -⟩ := bind_eq_ok.mp run
  obtain ⟨_, there⟩ := (conveys_level.guard (fun _ => trivial) call).eq_ok first depth
  rw [bind_run_ok there]
  cases rest
  exact ⟨⟨frames ++ [.leave depth], .proceed⟩, depth + 1, _, rfl, rfl,
    (Alike.refl frames).append (show Alike [.leave depth] [.leave _] from rfl)⟩

/-- Frames that are alike go on alike at any depth. -/
theorem advance_at {frame frame' : Frame} (same : frame.plain = frame'.plain)
    (run : frame.advance me k = ⟨.ok progress, k', events⟩) (depth : Nat) :
    ∃ progress' depth' events', frame'.advance me { k with depth } =
        ⟨.ok progress', { k' with depth := depth' }, events'⟩ ∧
      progress'.request = progress.request ∧ Alike progress'.frames progress.frames := by
  rcases Frame.eq_of_plain same with rfl | ⟨saved, saved', rfl, rfl⟩
  · by_cases ends : ∃ saved, frame = .leave saved
    · obtain ⟨saved, rfl⟩ := ends
      cases run
      exact ⟨_, _, _, rfl, rfl, Alike.refl _⟩
    by_cases begins : ∃ call, frame = .call call
    · obtain ⟨call, rfl⟩ := begins
      cases opening : call.opening with
      | some frames => exact opens_at opening run depth
      | none =>
        cases call with
        | wait c lock =>
          have level : Level (Frame.begin me (.wait c lock)) :=
            conveys_level.beginWait trivial (level_inSection (composes_level.register c (by simp)))
          obtain ⟨events', there⟩ := level.eq_ok run depth
          exact ⟨progress, depth, events', there, rfl, Alike.refl _⟩
        | down | up | acquire | release | signal | broadcast => cases opening
    · have level : Level (frame.advance me) :=
        level_advance (fun call is => begins ⟨call, is⟩) fun saved is => ends ⟨saved, is⟩
      obtain ⟨events', there⟩ := level.eq_ok run depth
      exact ⟨progress, depth, events', there, rfl, Alike.refl _⟩
  · cases run
    exact ⟨_, _, _, rfl, rfl, Alike.refl _⟩

end KernelSync
