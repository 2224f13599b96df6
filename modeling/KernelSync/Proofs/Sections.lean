import KernelSync.Nesting
import KernelSync.Proofs.Excluded

/-!
Sections and accesses are well nested. What a computation has entered it leaves before it ends,
innermost first, and what it accesses it gives back, whether it ends or is cut short. `WellNested`
says so of one computation from every state it may start in; it passes from parts to wholes, so it
holds of every body that is built from sections, accesses, calls, faults and catches
(`wellNested_of_body`). A call of a primitive enters and leaves sections over several stretches:
there the frames that are left say which sections are still open (`Follows`).
-/

namespace KernelSync

open Stretch

/-! ### Sections in order -/

/-- How far a list of events has got: the depth, and what the open sections have saved, the
innermost first. -/
structure Openings where
  depth : Nat
  saved : List Nat
  deriving DecidableEq

namespace Openings

/-- Goes past one event. A section is entered at the depth there is, and adds one to it. Only the
section that was entered last can be left; it finds the depth one above what it has saved, and
restores what it has saved. -/
def pass (openings : Openings) : Event → Option Openings
  | .entered depth =>
      if depth = openings.depth then some ⟨depth + 1, depth :: openings.saved⟩ else none
  | .left before restored =>
      match openings.saved with
      | [] => none
      | saved :: rest =>
          if before = openings.depth ∧ before = saved + 1 ∧ restored = saved then
            some ⟨restored, rest⟩
          else none
  | _ => some openings

/-- Goes past events in order, as long as each is in its place. -/
def passAll (openings : Openings) (events : List Event) : Option Openings :=
  events.foldlM pass openings

variable {openings : Openings} {first second : List Event}

@[simp] theorem passAll_nil : openings.passAll [] = some openings := rfl

theorem passAll_append :
    openings.passAll (first ++ second) = (openings.passAll first).bind (·.passAll second) :=
  List.foldlM_append

theorem passAll_singleton {e : Event} : openings.passAll [e] = openings.pass e := by
  unfold passAll
  rw [List.foldlM_cons]
  cases openings.pass e with
  | none => rfl
  | some after => rfl

/-- Events that are no bounds of sections can be passed anywhere. -/
theorem passAll_of_plain
    (plain : ∀ e ∈ first, ∀ openings : Openings, openings.pass e = some openings) :
    openings.passAll first = some openings := by
  induction first with
  | nil => rfl
  | cons e rest ih =>
    unfold passAll
    rw [List.foldlM_cons, plain e List.mem_cons_self]
    exact ih fun other mem => plain other (List.mem_cons_of_mem e mem)

end Openings

/-! ### Computations -/

variable {α β : Type}

/-- A run from `k` has left the depth and the flag of each cell as they were, and the sections it
has reported lie within one another. -/
structure Restores (k : Kernel) (run : Run Kernel α) : Prop where
  depth : run.state.depth = k.depth
  busy : ∀ cell, run.state.busy cell = k.busy cell
  sections : ∀ saved, Openings.passAll ⟨k.depth, saved⟩ run.events = some ⟨k.depth, saved⟩

/-- Wherever the computation starts, and however it ends, it restores what it found. -/
def WellNested (x : Stretch Kernel α) : Prop := ∀ k, Restores k (x k)

theorem restores_refl {k : Kernel} {outcome : Except Fault α} : Restores k ⟨outcome, k, []⟩ :=
  ⟨rfl, fun _ => rfl, fun _ => rfl⟩

theorem wellNested_pure (a : α) : WellNested (Pure.pure a : Stretch Kernel α) := fun _ =>
  restores_refl

theorem wellNested_fail (fault : Fault) : WellNested (fail fault : Stretch Kernel α) := fun _ =>
  restores_refl

theorem wellNested_read (f : Kernel → α) : WellNested (read f) := fun _ => restores_refl

theorem wellNested_require {condition : Prop} [Decidable condition] {fault : Fault} :
    WellNested (require condition fault) := by
  unfold require
  split
  · exact wellNested_pure ()
  · exact wellNested_fail fault

theorem wellNested_report {e : Event}
    (plain : ∀ openings : Openings, openings.pass e = some openings) : WellNested (report e) :=
  fun _ => ⟨rfl, fun _ => rfl, fun _ => Openings.passAll_singleton.trans (plain _)⟩

theorem wellNested_update {f : Kernel → Kernel} (depth : ∀ k, (f k).depth = k.depth)
    (busy : ∀ k cell, (f k).busy cell = k.busy cell) : WellNested (update f) :=
  fun k => ⟨depth k, busy k, fun _ => rfl⟩

theorem wellNested_bind {x : Stretch Kernel α} {f : α → Stretch Kernel β} (first : WellNested x)
    (next : ∀ a, WellNested (f a)) : WellNested (x >>= f) := by
  intro k
  have before := first k
  rcases run : x k with ⟨fault | a, mid, events⟩
  · rw [run] at before
    rw [bind_run_error run]
    exact ⟨before.depth, before.busy, before.sections⟩
  · rw [run] at before
    have after := next a mid
    have depth : mid.depth = k.depth := before.depth
    rw [bind_run_ok run]
    refine ⟨after.depth.trans depth, fun cell => (after.busy cell).trans (before.busy cell),
      fun saved => ?_⟩
    have sections := after.sections saved
    rw [depth] at sections
    rw [Openings.passAll_append, before.sections]
    exact sections

theorem wellNested_catching {x : Stretch Kernel α} (nested : WellNested x) :
    WellNested (catching x) :=
  fun k => ⟨(nested k).depth, (nested k).busy, (nested k).sections⟩

namespace Kernel

/-- A section is left at the depth that its entry has made, and restores the one before. -/
theorem wellNested_inSection {body : Nat → Stretch Kernel α}
    (nested : ∀ saved, WellNested (body saved)) : WellNested (inSection body) := by
  intro k
  have inner := nested k.depth { k with depth := k.depth + 1 }
  refine ⟨rfl, inner.busy, fun saved => ?_⟩
  have entered : Openings.pass ⟨k.depth, saved⟩ (.entered k.depth) =
      some ⟨k.depth + 1, k.depth :: saved⟩ := if_pos rfl
  have left : Openings.pass ⟨k.depth + 1, k.depth :: saved⟩ (.left (k.depth + 1) k.depth) =
      some ⟨k.depth, saved⟩ := if_pos ⟨rfl, rfl, rfl⟩
  have between := inner.sections (k.depth :: saved)
  rw [inSection_run, ← List.singleton_append, Openings.passAll_append,
    Openings.passAll_singleton, entered, Option.bind_some, Openings.passAll_append, between,
    Option.bind_some, Openings.passAll_singleton, inner.depth]
  exact left

theorem leave_run {k : Kernel} {saved : Nat} :
    leave saved k = ⟨.ok (), { k with depth := saved }, [.left k.depth saved]⟩ := rfl

/-! ### Accesses -/

section Cells

variable {cells : List (Cell β)} {i : Nat} {other : Cell β}

theorem busy_getD_modify_flag (free : other.busy = false) :
    ((cells.modify i ({ · with busy := false })).getD i other).busy = false := by
  rw [List.getD_eq_getElem?_getD, List.getElem?_modify]
  cases cells[i]? with
  | none => exact free
  | some cell => simp

end Cells

variable {k : Kernel}

/-- The flag of a cell that was given back is down. -/
theorem busy_setBusy_false (cell : CellId) : (k.setBusy false cell).busy cell = false := by
  cases cell with
  | threads => rfl
  | semaphore | condvar | data => exact busy_getD_modify_flag rfl

theorem busy_setBusy_of_ne {flag : Bool} {cell other : CellId} (apart : other ≠ cell) :
    (k.setBusy flag cell).busy other = k.busy other := by
  cases cell with
  | threads =>
    cases other with
    | threads => exact absurd rfl apart
    | semaphore | condvar | data => rfl
  | semaphore s =>
    cases other with
    | semaphore t =>
      exact congrArg Cell.busy (getD_modify_of_ne fun same =>
        apart (congrArg (fun index => CellId.semaphore ⟨index⟩) same.symm))
    | threads | condvar | data => rfl
  | condvar c =>
    cases other with
    | condvar d =>
      exact congrArg Cell.busy (getD_modify_of_ne fun same =>
        apart (congrArg (fun index => CellId.condvar ⟨index⟩) same.symm))
    | threads | semaphore | data => rfl
  | data i =>
    cases other with
    | data j =>
      exact congrArg Cell.busy (getD_modify_of_ne fun same => apart (congrArg _ same.symm))
    | threads | semaphore | condvar => rfl

theorem depth_setBusy {flag : Bool} {cell : CellId} :
    (k.setBusy flag cell).depth = k.depth := by
  cases cell with
  | threads | semaphore | condvar | data => rfl

/-- An access is refused, or finds the flag down and leaves it down. -/
theorem wellNested_accessing {cell : CellId} {body : Stretch Kernel α} (nested : WellNested body) :
    WellNested (accessing cell body) := by
  intro k
  cases free : k.busy cell with
  | true =>
    have refused : accessing cell body k = ⟨.error (.overlap cell), k, []⟩ := by
      simp [accessing, bind_run, require_run_of_not, free]
    rw [refused]
    exact restores_refl
  | false =>
    have inner := nested (k.setBusy true cell)
    rw [accessing_run free]
    refine ⟨depth_setBusy.trans (inner.depth.trans depth_setBusy), fun other => ?_, fun saved => ?_⟩
    · by_cases here : other = cell
      · rw [here, busy_setBusy_false, free]
      · exact (busy_setBusy_of_ne here).trans
          ((inner.busy other).trans (busy_setBusy_of_ne here))
    · have sections := inner.sections saved
      rw [depth_setBusy] at sections
      exact sections

/-- The computation reports log entries alone. -/
abbrev Logs {σ : Type} (x : Stretch σ α) : Prop :=
  Avoids (fun e => ∀ entry, e ≠ .log entry) (fun _ => False) x

theorem wellNested_log {entry : LogEntry} : WellNested (Stretch.log entry) :=
  wellNested_report fun _ => rfl

theorem wellNested_withThreads {body : Stretch ThreadTable α} (logs : Logs body) :
    WellNested (withThreads body) := by
  refine wellNested_accessing fun k => ⟨rfl, fun cell => ?_, fun saved => ?_⟩
  · cases cell with
    | threads | semaphore | condvar | data => rfl
  · refine Openings.passAll_of_plain fun e mem openings => ?_
    obtain ⟨entry, rfl⟩ : ∃ entry, e = .log entry := by
      have := logs.events k.table e mem
      push Not at this
      exact this
    rfl

theorem composes_wellNested : Composes WellNested fun _ => True where
  value := wellNested_pure
  bind := wellNested_bind
  read _ := wellNested_read _
  require _ := wellNested_require
  log _ := wellNested_log
  update writes := wellNested_update writes.depth_eq writes.busy
  accessing := wellNested_accessing
  inspects inspects := wellNested_withThreads (inspects.avoids fun _ => not_false)

theorem busy_setData {index : Nat} {value : Int64} {cell : CellId} :
    (k.setData index value).busy cell = k.busy cell := by
  cases cell with
  | data j => exact busy_getD_modify_value
  | threads | semaphore | condvar => rfl

end Kernel

/-! ### Calls in their middle -/

open Kernel

variable {me : ThreadId}

namespace Lock

variable {lock : LockId} {donates : Bool}

theorem not_unlogged (entry : LogEntry) : ¬ ∀ other, Event.log entry ≠ .log other :=
  fun none => none entry rfl

/-- Whatever the primitives do to the thread table, they report log entries alone. -/
theorem tabular_logs : Tabular Logs (fun _ => ¬ False) donates :=
  ThreadTable.tabular_avoids (fun _ => not_false) (fun entry _ => not_unlogged entry) donates

end Lock

namespace Frame

/-- What the section has saved that the frame will leave. -/
def saved? : Frame → Option Nat
  | .leave saved => some saved
  | _ => none

/-- What the sections have saved in which a call is, the innermost first. -/
def saved (frames : List Frame) : List Nat := frames.filterMap saved?

/-- `depth` is that of open sections, the outermost of which was entered at depth `base`. -/
def Stacked (base : Nat) : List Nat → Nat → Prop
  | [], depth => depth = base
  | saved :: rest, depth => depth = saved + 1 ∧ Stacked base rest saved

/-- From open sections that have saved `before`, the outermost one entered at depth `base`, the
events lead to open sections that have saved `after`, and no flag stays changed. -/
structure Follows (base : Nat) (k : Kernel) (before : List Nat) (events : List Event) (k' : Kernel)
    (after : List Nat) : Prop where
  busy : ∀ cell, k'.busy cell = k.busy cell
  sections : ∀ outer, Openings.passAll ⟨k.depth, before ++ outer⟩ events =
    some ⟨k'.depth, after ++ outer⟩
  stacked : Stacked base after k'.depth

variable {base depth : Nat} {k k' k'' : Kernel} {before after last : List Nat}
  {frames rest : List Frame} {events events' : List Event}

theorem Follows.trans (first : Follows base k before events k' after)
    (second : Follows base k' after events' k'' last) :
    Follows base k before (events ++ events') k'' last where
  busy cell := (second.busy cell).trans (first.busy cell)
  sections outer := by
    rw [Openings.passAll_append, first.sections, Option.bind_some, second.sections]
  stacked := second.stacked

/-- What restores all it found leaves the open sections as they were. -/
theorem follows_of_restores {run : Run Kernel α} (restores : Restores k run)
    (stacked : Stacked base before k.depth) :
    Follows base k before run.events run.state before where
  busy := restores.busy
  sections outer := by rw [restores.sections, restores.depth]
  stacked := by
    rw [restores.depth]
    exact stacked

theorem busy_withDepth {cell : CellId} : ({ k with depth } : Kernel).busy cell = k.busy cell := by
  cases cell with
  | threads | semaphore | condvar | data => rfl

theorem follows_enter (stacked : Stacked base before k.depth) :
    Follows base k before [.entered k.depth] { k with depth := k.depth + 1 } (k.depth :: before) where
  busy _ := busy_withDepth
  sections _ := Openings.passAll_singleton.trans (if_pos rfl)
  stacked := ⟨rfl, stacked⟩

theorem follows_leave {restored : Nat} (stacked : Stacked base (restored :: before) k.depth) :
    Follows base k (restored :: before) [.left k.depth restored] { k with depth := restored }
      before where
  busy _ := busy_withDepth
  sections _ := Openings.passAll_singleton.trans (if_pos ⟨rfl, stacked.1, rfl⟩)
  stacked := stacked.2

/-- To give up a call is to leave its sections, innermost first. -/
theorem unwind_follows (stacked : Stacked base (saved frames) k.depth) :
    (unwind frames k).outcome = .ok () ∧
      Follows base k (saved frames) (unwind frames k).events (unwind frames k).state [] := by
  induction frames generalizing k with
  | nil => exact ⟨rfl, follows_of_restores restores_refl stacked⟩
  | cons frame rest ih =>
    cases frame with
    | leave restored =>
      have first := follows_leave stacked
      obtain ⟨ends, second⟩ := ih first.stacked
      unfold unwind
      rw [bind_run_ok leave_run]
      exact ⟨ends, first.trans second⟩
    | _ => exact ih stacked

/-- Every value the computation ends with is as told. -/
def Gives {σ : Type} (P : α → Prop) (x : Stretch σ α) : Prop :=
  ∀ s a, (x s).outcome = .ok a → P a

section Gives

variable {σ : Type} {P : α → Prop}

theorem gives_pure {a : α} (holds : P a) : Gives P (Pure.pure a : Stretch σ α) := by
  intro s b ends
  cases ends
  exact holds

theorem gives_bind {x : Stretch σ β} {f : β → Stretch σ α} (gives : ∀ b, Gives P (f b)) :
    Gives P (x >>= f) := by
  intro s a ends
  rcases run : x s with ⟨fault | b, mid, events⟩
  · rw [bind_run_error run] at ends
    exact nomatch ends
  · rw [bind_run_ok run] at ends
    exact gives b mid a ends

end Gives

/-- A stretch that opens and closes no section of the call. -/
structure Level (x : Stretch Kernel Progress) : Prop where
  nested : WellNested x
  closed : Gives (fun progress => saved progress.frames = []) x

theorem level_pure {progress : Progress} (closed : saved progress.frames = []) :
    Level (Pure.pure progress) :=
  ⟨wellNested_pure _, gives_pure closed⟩

theorem level_bind {x : Stretch Kernel α} {f : α → Stretch Kernel Progress} (nested : WellNested x)
    (level : ∀ a, Level (f a)) : Level (x >>= f) :=
  ⟨wellNested_bind nested fun a => (level a).nested, gives_bind fun a => (level a).closed⟩

/-- Frames that will leave no section have saved nothing. -/
theorem saved_of_closed {frames : List Frame} (closed : ∀ saved, .leave saved ∉ frames) :
    saved frames = [] := by
  refine List.filterMap_eq_nil_iff.mpr fun frame mem => ?_
  cases frame with
  | leave restored => exact absurd mem (closed restored)
  | _ => rfl

theorem conveys_wellNested : Conveys WellNested Level (fun _ => True) fun _ => True :=
  composes_wellNested.conveys (fun closed => level_pure (saved_of_closed closed)) level_bind

theorem level_begin_wait {c : CondvarId} {lock : Lock} : Level (begin me (.wait c lock)) :=
  conveys_wellNested.beginWait trivial
    (wellNested_inSection fun _ => composes_wellNested.register c fun _ => trivial)

/-- Sections are opened and closed in a call only where it begins and where it leaves. -/
theorem level_advance {frame : Frame} (notCall : ∀ call, frame ≠ .call call)
    (notLeave : ∀ saved, frame ≠ .leave saved) : Level (frame.advance me) := by
  cases frame with
  | call made => exact absurd rfl (notCall made)
  | leave saved => exact absurd rfl (notLeave saved)
  | acquire lock =>
    exact conveys_wellNested.advance fun donates _ =>
      ⟨wellNested_withThreads (Lock.tabular_logs.register (fun _ _ _ => not_false)
          (fun _ _ => avoids_report (Lock.not_unlogged _)) not_false),
        wellNested_withThreads (Lock.tabular_logs.claim fun _ => not_false)⟩
  | giveUp lock =>
    exact conveys_wellNested.advance fun donates _ =>
      wellNested_withThreads (Lock.tabular_logs.giveUp fun _ => not_false)
  | up | claim => exact conveys_wellNested.advance (by simp [Admits])
  | down | downQueued | acquireQueued | check | signal | broadcast | signaled =>
    exact conveys_wellNested.advance trivial

theorem saved_append {before after : List Frame} :
    saved (before ++ after) = saved before ++ saved after :=
  List.filterMap_append

/-- What has been saved by the sections that a stretch leaves open, `rest` being the frames behind
the one that was advanced. -/
def savedAfter (rest : List Frame) : Except Fault Progress → List Nat
  | .ok progress => saved (progress.frames ++ rest)
  | .error _ => saved rest

theorem savedAfter_nil {progress : Progress} :
    savedAfter [] (.ok progress) = saved progress.frames :=
  congrArg saved (List.append_nil _)

theorem Level.follows {x : Stretch Kernel Progress} (level : Level x) (rest : List Frame)
    (stacked : Stacked base (saved rest) k.depth) :
    Follows base k (saved rest) (x k).events (x k).state (savedAfter rest (x k).outcome) := by
  have same : savedAfter rest (x k).outcome = saved rest := by
    rcases ends : (x k).outcome with fault | progress
    · rfl
    · calc saved (progress.frames ++ rest) = saved progress.frames ++ saved rest := saved_append
        _ = saved rest := by rw [level.closed k progress ends, List.nil_append]
  rw [same]
  exact follows_of_restores (level.nested k) stacked

/-- No section is open in what a call opens with. -/
theorem saved_opening {call : Call} {inner : List Frame} (opening : call.opening = some inner) :
    saved inner = [] := by
  cases call with
  | wait => cases opening
  | down | up | acquire | release | signal | broadcast =>
    cases opening
    rfl

/-- A call that is not refused begins with its section. -/
theorem opening_follows {call : Call} {inner : List Frame} (opening : call.opening = some inner)
    (rest : List Frame) (stacked : Stacked base (saved rest) k.depth) :
    Follows base k (saved rest) (begin me call k).events (begin me call k).state
      (savedAfter rest (begin me call k).outcome) := by
  have first := follows_of_restores (conveys_wellNested.guard (fun _ => trivial) call k) stacked
  rw [begin_of_opening opening]
  rcases guards : call.guard k with ⟨fault | ⟨⟩, mid, events⟩
  · rw [guards] at first
    rw [bind_run_error guards]
    exact first
  · rw [guards] at first
    have second := follows_enter first.stacked
    have opened : saved ((inner ++ [.leave mid.depth]) ++ rest) = mid.depth :: saved rest := by
      rw [saved_append, saved_append, saved_opening opening]
      rfl
    rw [bind_run_ok guards]
    unfold savedAfter
    rw [← opened] at second
    exact first.trans second

theorem advance_follows {frame : Frame} (stacked : Stacked base (saved (frame :: rest)) k.depth) :
    Follows base k (saved (frame :: rest)) (frame.advance me k).events (frame.advance me k).state
      (savedAfter rest (frame.advance me k).outcome) := by
  cases frame with
  | call made =>
    cases opening : made.opening with
    | some inner => exact opening_follows opening rest stacked
    | none =>
      cases made with
      | wait => exact level_begin_wait.follows rest stacked
      | down | up | acquire | release | signal | broadcast => cases opening
  | leave restored => exact follows_leave stacked
  | _ => exact (level_advance (by simp) (by simp)).follows rest stacked

/-- Whether it goes on or gives up, a call accounts for its sections at each stretch. -/
theorem step_follows (stacked : Stacked base (saved frames) k.depth) :
    Follows base k (saved frames) (step me frames k).events (step me frames k).state
      (savedAfter [] (step me frames k).outcome) := by
  cases frames with
  | nil => exact follows_of_restores restores_refl stacked
  | cons frame rest =>
    have first : Follows base k (saved (frame :: rest)) (frame.advance me k).events
        (frame.advance me k).state (savedAfter rest (frame.advance me k).outcome) :=
      advance_follows stacked
    rcases run : frame.advance me k with ⟨fault | progress, mid, events⟩
    · rw [run] at first
      have second := (unwind_follows first.stacked).2
      have gives : step me (frame :: rest) k =
          ⟨.error fault, (unwind rest mid).state, events ++ (unwind rest mid).events⟩ := by
        simp [step, onFault, bind_run, run]
      rw [gives]
      exact first.trans second
    · rw [run] at first
      have goes : step me (frame :: rest) k =
          ⟨.ok { progress with frames := progress.frames ++ rest }, mid, events⟩ := by
        simp [step, onFault, bind_run, run]
      rw [goes, savedAfter_nil]
      exact first

/-- Runs a call under a scheduler, for at most `fuel` stretches. The call ends if the scheduler
faults, and if the stretches are used up. -/
def carry (answer : Request → Stretch Kernel Unit) (me : ThreadId) :
    Nat → List Frame → Stretch Kernel Unit
  | _, [] => Pure.pure ()
  | 0, frame :: rest => do
      unwind (frame :: rest)
      fail .unfinished
  | fuel + 1, frame :: rest => do
      let progress ← step me (frame :: rest)
      onFault (answer progress.request) (unwind progress.frames)
      carry answer me fuel progress.frames

theorem carry_follows {answer : Request → Stretch Kernel Unit}
    (keeps : ∀ request, WellNested (answer request)) {fuel : Nat}
    (stacked : Stacked base (saved frames) k.depth) :
    Follows base k (saved frames) (carry answer me fuel frames k).events
      (carry answer me fuel frames k).state [] := by
  induction fuel generalizing frames k with
  | zero =>
    cases frames with
    | nil => exact follows_of_restores restores_refl stacked
    | cons frame rest =>
      obtain ⟨ends, follows⟩ := unwind_follows stacked
      rcases run : unwind (frame :: rest) k with ⟨outcome, mid, events⟩
      rw [run] at ends follows
      obtain rfl : outcome = .ok () := ends
      unfold carry
      rw [bind_run_ok run, fail_run]
      dsimp only
      rw [List.append_nil]
      exact follows
  | succ fuel ih =>
    cases frames with
    | nil => exact follows_of_restores restores_refl stacked
    | cons frame rest =>
      have first : Follows base k (saved (frame :: rest)) (step me (frame :: rest) k).events
          (step me (frame :: rest) k).state (savedAfter [] (step me (frame :: rest) k).outcome) :=
        step_follows stacked
      unfold carry
      rcases steps : step me (frame :: rest) k with ⟨fault | progress, mid, events⟩
      · rw [steps] at first
        rw [bind_run_error steps]
        exact first
      · rw [steps, savedAfter_nil] at first
        have second := follows_of_restores (keeps progress.request mid) first.stacked
        rw [bind_run_ok steps]
        rcases answers : answer progress.request mid with ⟨fault | ⟨⟩, back, reports⟩
        · rw [answers] at second
          have third := (unwind_follows second.stacked).2
          have gives : onFault (answer progress.request) (unwind progress.frames) mid =
              ⟨.error fault, (unwind progress.frames back).state,
                reports ++ (unwind progress.frames back).events⟩ := by
            simp only [onFault, answers]
          rw [bind_run_error gives]
          exact first.trans (second.trans third)
        · rw [answers] at second
          have goes : onFault (answer progress.request) (unwind progress.frames) mid =
              ⟨.ok (), back, reports⟩ := by
            simp only [onFault, answers]
          rw [bind_run_ok goes]
          exact first.trans (second.trans (ih second.stacked))

/-- A call restores what it found, whatever the scheduler answers. -/
theorem wellNested_carry {answer : Request → Stretch Kernel Unit}
    (keeps : ∀ request, WellNested (answer request)) {fuel : Nat} {call : Call} :
    WellNested (carry answer me fuel [.call call]) := by
  intro k
  have closed : Stacked k.depth (saved [.call call]) k.depth := rfl
  have follows : Follows k.depth k (saved [.call call]) (carry answer me fuel [.call call] k).events
      (carry answer me fuel [.call call] k).state [] :=
    carry_follows keeps closed
  have depth : (carry answer me fuel [.call call] k).state.depth = k.depth := follows.stacked
  refine ⟨depth, follows.busy, fun outer => ?_⟩
  have sections := follows.sections outer
  rw [depth] at sections
  exact sections

/-- The scheduler that decides nothing, and only tells what it was asked. -/
def noting : Request → Stretch Kernel Unit
  | .proceed => Pure.pure ()
  | .block => report .block
  | .unblock thread => report (.unblock thread)
  | .check => report .check

theorem wellNested_noting (request : Request) : WellNested (noting request) := by
  cases request with
  | proceed => exact wellNested_pure ()
  | block | unblock | check => exact wellNested_report fun _ => rfl

/-- Nobody has to answer a call that adds a permit, and it ends in its fourth stretch. -/
theorem run_up (s : SemaphoreId) :
    (Frame.run me [.call (.up s)] >>= fun _ => Pure.pure ()) =
      carry noting me 4 [.call (.up s)] := by
  funext k
  have fuel : ∃ n, k.patience [.call (.up s)] = n + 4 := ⟨4 * k.registrations + 28, rfl⟩
  obtain ⟨n, fuel⟩ := fuel
  have asks : Frame.run me [.call (.up s)] k = drive me (n + 4) [.call (.up s)] k := by
    rw [← fuel]
    rfl
  rcases run : Semaphore.release s { k with depth := k.depth + 1 } with ⟨fault | woken, mid, events⟩
  · simp [asks, carry, drive, noting, step, advance, begin, onFault, bind_run, unwind, enter,
      leave_run, run]
  · cases woken with
    | none =>
      simp [asks, carry, drive, noting, step, advance, begin, afterRelease, onFault, bind_run,
        enter, leave_run, run]
    | some woken =>
      simp [asks, carry, drive, noting, step, advance, begin, afterRelease, onFault, bind_run,
        enter, leave_run, run]

end Frame

theorem ShortCall.wellNested_run {call : ShortCall} : WellNested (call.run me) :=
  Frame.conveys_wellNested.run (fun nested => wellNested_inSection fun _ => nested)
    fun _ _ => ⟨trivial, fun _ _ =>
      wellNested_withThreads (Lock.tabular_logs.takeOwnership fun _ => not_false)⟩

/-! ### Bodies -/

/-- The bodies that are built from sections, accesses, calls, faults and catches in any way, under a
scheduler that answers the requests of calls with `answer`. -/
inductive Body (answer : Request → Stretch Kernel Unit) : {α : Type} → Stretch Kernel α → Prop
  | value {α : Type} (a : α) : Body answer (Pure.pure a : Stretch Kernel α)
  | look {α : Type} (f : Kernel → α) : Body answer (read f)
  | tell (what : Observation) : Body answer (report (.saw what))
  | store (f : Kernel → Int64) (index : Nat) : Body answer (update fun k => k.setData index (f k))
  | panic {α : Type} (fault : Fault) : Body answer (fail fault : Stretch Kernel α)
  | attempt {α : Type} {x : Stretch Kernel α} (body : Body answer x) : Body answer (catching x)
  | sequence {α β : Type} {x : Stretch Kernel α} {f : α → Stretch Kernel β} (first : Body answer x)
      (next : ∀ a, Body answer (f a)) : Body answer (x >>= f)
  | scope {α : Type} {x : Nat → Stretch Kernel α} (body : ∀ saved, Body answer (x saved)) :
      Body answer (inSection x)
  | access {α : Type} {x : Stretch Kernel α} (cell : CellId) (body : Body answer x) :
      Body answer (accessing cell x)
  | table {α : Type} {x : Stretch ThreadTable α} (logs : Logs x) : Body answer (withThreads x)
  | call (me : ThreadId) (fuel : Nat) (call : Call) :
      Body answer (Frame.carry answer me fuel [.call call])
  | short (me : ThreadId) (call : ShortCall) : Body answer (call.run me)

/-- Every body restores what it found, if the scheduler does. -/
theorem Body.wellNested {answer : Request → Stretch Kernel Unit}
    (keeps : ∀ request, WellNested (answer request)) {x : Stretch Kernel α} (body : Body answer x) :
    WellNested x := by
  induction body with
  | value a => exact wellNested_pure a
  | look f => exact wellNested_read f
  | tell what => exact wellNested_report fun _ => rfl
  | store f index => exact wellNested_update (fun _ => rfl) fun _ _ => busy_setData
  | panic fault => exact wellNested_fail fault
  | attempt _ ih => exact wellNested_catching ih
  | sequence _ _ first next => exact wellNested_bind first next
  | scope _ ih => exact wellNested_inSection ih
  | access _ _ ih => exact wellNested_accessing ih
  | table logs => exact wellNested_withThreads logs
  | call me fuel call => exact Frame.wellNested_carry keeps
  | short me call => exact ShortCall.wellNested_run

namespace Nesting

open KernelSync.Frame (noting)

theorem body_see (what : Observation) : Body noting (see what) := .tell what

mutual

/-- The acts of a nesting program are bodies. -/
theorem body_exec (saved : Option Nat) : ∀ act, Body noting (exec saved act)
  | .scope body => .scope fun depth => body_execAll (some depth) body
  | .access index amount body =>
      .access _ (.sequence (.look _) fun value => .sequence (.store (fun _ => value) index) fun _ =>
        .sequence (body_see _) fun _ => body_execAll saved body)
  | .accessThreads body =>
      .access _ (.sequence (.look _) fun live => .sequence (body_see _) fun _ =>
        body_execAll saved body)
  | .attempt body => by
      refine .sequence (.attempt (body_execAll saved body)) fun result => ?_
      cases result with
      | ok => exact .value ()
      | error fault => exact body_see _
  | .raise text => .panic _
  | .depth => .sequence (.look _) fun _ => body_see _
  | .holder => .sequence (.scope fun _ => .table (avoids_read _)) fun _ => body_see _
  | .up => by
      unfold exec
      rw [Frame.run_up]
      exact .call runner 4 (.up semaphore)
  | .tryDown => .sequence (.short runner (.tryDown semaphore)) fun _ => body_see _
  | .count =>
      .sequence (.scope fun _ => .access _ (.look _)) fun _ =>
        .sequence (.scope fun _ => .access _ (.look _)) fun _ => body_see _
  | .waiters => .sequence (.scope fun _ => .access _ (.look _)) fun _ => body_see _
  | .showSection => by
      unfold exec
      cases saved with
      | none => exact .value ()
      | some depth => exact body_see _
  | .showCell index => .sequence (.look _) fun _ => body_see _
  | .showSemaphore => .sequence (.look _) fun _ => body_see _
  | .same => body_see _

theorem body_execAll (saved : Option Nat) : ∀ acts, Body noting (execAll saved acts)
  | [] => .value ()
  | act :: acts => .sequence (body_exec saved act) fun _ => body_execAll saved acts

end

/-- Whatever is nested in whatever, and wherever a fault cuts it short or is caught: when a body
ends, the depth and the flag of every cell are what they were before it; each section that it
entered it has left, the last one first, at a depth one above the depth restored. So it is for all
nesting programs, and under every scheduler that itself restores what it found. -/
theorem sections_well_nested {answer : Request → Stretch Kernel Unit}
    (keeps : ∀ request, WellNested (answer request)) :
    (∀ {α : Type} {x : Stretch Kernel α}, Body answer x → WellNested x) ∧
      ∀ saved acts, WellNested (execAll saved acts) :=
  ⟨fun body => body.wellNested keeps,
    fun saved acts => (body_execAll saved acts).wellNested Frame.wellNested_noting⟩

/-- A fault that is caught outside leaves two sections and the access between them. -/
theorem caught_fault_leaves_sections :
    WellNested (execAll none [.attempt [.scope [.access 0 1 [.up, .scope [.raise "stop"]]]]]) ∧
      (run 1 [5] [.attempt [.scope [.access 0 1 [.up, .scope [.raise "stop"]]]]]).events =
        [.entered 0, .saw (.cell 0 6), .entered 1, .check, .left 2 1, .entered 1, .left 2 1,
          .left 1 0, .saw (.caught "stop")] :=
  ⟨(sections_well_nested Frame.wellNested_noting).2 none _, by decide⟩

end Nesting

end KernelSync
