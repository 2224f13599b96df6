import KernelSync.Proofs.Sections

/-!
What the primitives do to the state however they end. A computation on the thread table is seen
through a view of its records: what the view overlooks may change (`Hides`). A computation on the
kernel that starts with no access in progress leaves none, accesses no cell twice at a time, and
changes nothing that the view sees (`WellConducted`); nothing is said of how it ends. The primitives
write to donor lists and to the locks that are waited for, and under donation to effective
priorities; so they hide from every view that overlooks those (`Overlooks`).
-/

namespace KernelSync

open Stretch hiding pure bind
open ThreadTable

variable {σ α β γ : Type} {view : ThreadRecord → γ} {donates : Bool}

/-! ### Faults that cannot be -/

/-- A cell was accessed during an access to it, or a donation has led back to its donor under a mode
without donation. -/
inductive Undue (donates : Bool) : Fault → Prop where
  | overlap (cell : CellId) : Undue donates (.overlap cell)
  | cycle (plain : donates = false) (donor : ThreadId) (lock : LockId) :
      Undue donates (.donationCycle donor lock)

/-- The computation ends in no fault that cannot be. -/
abbrev Duly (donates : Bool) (x : Stretch σ α) : Prop := Avoids (fun _ => False) (Undue donates) x

theorem not_undue_staleHandle (id : ThreadId) : ¬ Undue donates (.staleHandle id) := nofun

theorem not_undue_cycle (donating : donates = true) (donor : ThreadId) (lock : LockId) :
    ¬ Undue donates (.donationCycle donor lock) := by
  intro undue
  cases undue with
  | cycle plain => exact nomatch plain.symm.trans donating

/-! ### Tables under a view -/

/-- The view does not look at what the primitives write. -/
structure Overlooks (view : ThreadRecord → γ) (donates : Bool) : Prop where
  donors : ∀ (r : ThreadRecord) donors, view { r with donors } = view r
  waitingOn : ∀ (r : ThreadRecord) waitingOn, view { r with waitingOn } = view r
  priority : donates = true → ∀ (r : ThreadRecord) priority, view { r with priority } = view r

/-- Looks at nothing but whether there is a record. -/
def presence : ThreadRecord → Unit := fun _ => ()

theorem overlooks_presence : Overlooks presence donates :=
  ⟨fun _ _ => rfl, fun _ _ => rfl, fun _ _ _ => rfl⟩

/-- Looks at both priorities. -/
def priorities (r : ThreadRecord) : Priority × Priority := (r.priority, r.basePriority)

/-- Without donation the primitives write no priorities. -/
theorem overlooks_priorities : Overlooks priorities false :=
  ⟨fun _ _ => rfl, fun _ _ => rfl, nofun⟩

/-- The view sees no difference between the tables, and they have the same slots. -/
structure Unseen (view : ThreadRecord → γ) (before after : ThreadTable) : Prop where
  shape : SameShape before after
  agree : Agree view before after

theorem Unseen.refl (table : ThreadTable) : Unseen view table table :=
  ⟨.refl table, .refl view table⟩

theorem Unseen.trans {first second third : ThreadTable} (before : Unseen view first second)
    (after : Unseen view second third) : Unseen view first third :=
  ⟨before.shape.trans after.shape, before.agree.trans after.agree⟩

/-- However it ends, the view sees no difference. -/
def Hides (view : ThreadRecord → γ) (x : Stretch ThreadTable α) : Prop :=
  ∀ table, Unseen view table (x table).state

theorem Stretch.Looks.hides {x : Stretch ThreadTable α} (looks : Looks x) : Hides view x := by
  intro table
  rw [(looks table).1]
  exact .refl table

theorem hides_fail (fault : Fault) : Hides view (fail fault : Stretch ThreadTable α) :=
  fun table => .refl table

theorem hides_read (f : ThreadTable → α) : Hides view (read f) := fun table => .refl table

theorem hides_log (entry : LogEntry) : Hides view (log entry) := fun table => .refl table

theorem hides_holdings (f : Holdings → Holdings) :
    Hides view (update fun table => { table with holdings := f table.holdings }) :=
  fun _ => ⟨sameShape_holdings _, fun _ => rfl⟩

theorem hides_bind {x : Stretch ThreadTable α} {f : α → Stretch ThreadTable β}
    (first : Hides view x) (next : ∀ a, Hides view (f a)) : Hides view (x >>= f) := by
  intro table
  have before := first table
  rcases run : x table with ⟨fault | a, mid, events⟩
  · rw [run] at before
    rw [bind_run_error run]
    exact before
  · rw [run] at before
    rw [bind_run_ok run]
    exact before.trans (next a mid)

variable {id me : ThreadId} {lock : LockId}

theorem hides_amend {f : ThreadRecord → ThreadRecord} (same : ∀ r, view (f r) = view r) :
    Hides view (amend id f) :=
  hides_bind inspects_record.looks.hides fun _ _ =>
    ⟨sameShape_modify id f, agree_modify fun r _ => same r⟩

/-- Whatever the primitives do to the thread table is hidden from a view that overlooks what they
write. -/
theorem tabular_hides (overlooks : Overlooks view donates) :
    Tabular (Hides view) (fun _ => True) donates where
  inspects inspects := inspects.looks.hides
  bind := hides_bind
  fail _ := hides_fail _
  log _ := hides_log _
  setDonors _ donors := hides_amend fun r => overlooks.donors r donors
  setWaitingOn _ waitingOn := hides_amend fun r => overlooks.waitingOn r waitingOn
  setPriority _ priority donating := hides_amend fun r => overlooks.priority donating r priority
  holdings := hides_holdings

/-- Without donation no chain is followed. -/
theorem tabular_duly : Tabular (Duly donates) (fun fault => ¬ Undue donates fault) donates :=
  tabular_avoids not_undue_staleHandle (fun _ _ => not_false) donates

namespace Donation

variable {base : Priority} {mode : SchedulingMode}

theorem duly_changeBase : Duly mode.donates (changeBasePriority id base mode) :=
  tabular_duly.changeBase rfl (avoids_amend not_undue_staleHandle)
    (fun _ => avoids_amend not_undue_staleHandle) not_undue_cycle
    fun _ _ => avoids_report not_false

theorem logs_changeBase : Kernel.Logs (changeBasePriority id base mode) :=
  Lock.tabular_logs.changeBase rfl (avoids_amend fun _ => not_false)
    (fun _ => avoids_amend fun _ => not_false) (fun _ _ _ => not_false)
    fun _ _ => avoids_report (Lock.not_unlogged _)

/-- Nobody comes or goes when a base priority is changed. -/
theorem hides_changeBase : Hides presence (changeBasePriority id base mode) :=
  (tabular_hides overlooks_presence).changeBase rfl (hides_amend fun _ => rfl)
    (fun _ => hides_amend fun _ => rfl) (fun _ _ _ => trivial) fun _ => hides_log

end Donation

/-! ### Kernels -/

/-- A run from `k` has left no access in progress, has accessed no cell twice at a time, and the view
sees no difference in the table. -/
structure Conducts (view : ThreadRecord → γ) (k : Kernel) (run : Run Kernel α) : Prop where
  quiet : run.state.Quiet
  mode : run.state.mode = k.mode
  inInterrupt : run.state.inInterrupt = k.inInterrupt
  table : Unseen view k.table run.state.table
  due : ∀ fault, run.outcome = .error fault → ¬ Undue k.mode.donates fault

/-- So it is wherever the computation starts while no access is in progress. -/
def WellConducted (view : ThreadRecord → γ) (donates : Bool) (x : Stretch Kernel α) : Prop :=
  ∀ k : Kernel, k.Quiet → k.mode.donates = donates → Conducts view k (x k)

section Conducted

variable {k : Kernel}

theorem conducts_refl (quiet : k.Quiet) {a : α} {events : List Event} :
    Conducts view k ⟨.ok a, k, events⟩ :=
  ⟨quiet, rfl, rfl, .refl _, nofun⟩

theorem conducts_refused (quiet : k.Quiet) {fault : Fault} (due : ¬ Undue k.mode.donates fault) :
    Conducts view k (⟨.error fault, k, []⟩ : Run Kernel α) := by
  refine ⟨quiet, rfl, rfl, .refl _, fun other same => ?_⟩
  cases same
  exact due

theorem conducted_pure (a : α) : WellConducted view donates (Pure.pure a) := fun _ quiet _ =>
  conducts_refl quiet

theorem conducted_read (f : Kernel → α) : WellConducted view donates (read f) := fun _ quiet _ =>
  conducts_refl quiet

theorem conducted_report (event : Event) : WellConducted view donates (report event) :=
  fun _ quiet _ => conducts_refl quiet

theorem conducted_fail {fault : Fault} (due : ¬ Undue donates fault) :
    WellConducted view donates (fail fault : Stretch Kernel α) := by
  rintro k quiet rfl
  exact conducts_refused quiet due

theorem conducted_require {condition : Prop} [Decidable condition] {fault : Fault}
    (due : ¬ Undue donates fault) : WellConducted view donates (require condition fault) := by
  unfold require
  split
  · exact conducted_pure ()
  · exact conducted_fail due

theorem conducted_bind {x : Stretch Kernel α} {f : α → Stretch Kernel β}
    (first : WellConducted view donates x) (next : ∀ a, WellConducted view donates (f a)) :
    WellConducted view donates (x >>= f) := by
  intro k quiet plain
  have before := first k quiet plain
  rcases run : x k with ⟨fault | a, mid, events⟩
  · rw [run] at before
    rw [bind_run_error run]
    refine ⟨before.quiet, before.mode, before.inInterrupt, before.table, fun other same => ?_⟩
    cases same
    exact before.due fault rfl
  · rw [run] at before
    have mode : mid.mode = k.mode := before.mode
    have after := next a mid before.quiet (mode ▸ plain)
    rw [bind_run_ok run]
    refine ⟨after.quiet, after.mode.trans mode, after.inInterrupt.trans before.inInterrupt,
      before.table.trans after.table, fun fault fails => ?_⟩
    rw [← mode]
    exact after.due fault fails

/-- What is done after a fault does not change the fault. -/
theorem conducted_onFault {x : Stretch Kernel α} {last : Stretch Kernel Unit}
    (first : WellConducted view donates x) (next : WellConducted view donates last) :
    WellConducted view donates (onFault x last) := by
  intro k quiet plain
  have before := first k quiet plain
  rcases run : x k with ⟨fault | a, mid, events⟩
  · rw [run] at before
    have mode : mid.mode = k.mode := before.mode
    have after := next mid before.quiet (mode ▸ plain)
    rw [onFault_run_error run]
    refine ⟨after.quiet, after.mode.trans mode, after.inInterrupt.trans before.inInterrupt,
      before.table.trans after.table, fun other same => ?_⟩
    cases same
    exact before.due fault rfl
  · rw [run] at before
    rw [onFault_run_ok run]
    exact before

/-- The mode does not change on the way. -/
theorem conducted_mode {f : Bool → Stretch Kernel α}
    (next : WellConducted view donates (f donates)) :
    WellConducted view donates (read (·.mode.donates) >>= f) := by
  rintro k quiet rfl
  rw [bind_run_ok (read_run _ _)]
  exact next k quiet rfl

namespace Kernel

theorem conducted_enter : WellConducted view donates enter := fun _ quiet _ =>
  ⟨quiet.withDepth _, rfl, rfl, .refl _, nofun⟩

theorem conducted_leave {saved : Nat} : WellConducted view donates (leave saved) :=
  fun _ quiet _ => ⟨quiet.withDepth _, rfl, rfl, .refl _, nofun⟩

theorem conducted_inSection {body : Nat → Stretch Kernel α}
    (next : ∀ saved, WellConducted view donates (body saved)) :
    WellConducted view donates (inSection body) := by
  intro k quiet plain
  have inner := next k.depth { k with depth := k.depth + 1 } (quiet.withDepth _) plain
  rw [inSection_run]
  exact ⟨inner.quiet.withDepth _, inner.mode, inner.inInterrupt, inner.table, inner.due⟩

theorem conducted_withThreads {body : Stretch ThreadTable α} (hides : Hides view body)
    (duly : Duly donates body) : WellConducted view donates (withThreads body) := by
  rintro k quiet rfl
  rw [withThreads_run quiet.threads]
  exact ⟨quiet.setTable _, rfl, rfl, hides k.table,
    fun fault fails => duly.outcome k.table fault fails⟩

theorem conducted_look {f : ThreadTable → α} :
    WellConducted view donates (withThreads (read f)) :=
  conducted_withThreads (hides_read f) (avoids_read f)

/-- An access that only looks. -/
theorem conducted_accessing {cell : CellId} {f : Kernel → α}
    (idle : ∀ k : Kernel, k.Quiet → k.busy cell = false ∧
      (k.setBusy true cell).setBusy false cell = k) :
    WellConducted view donates (accessing cell (read f)) := by
  intro k quiet _
  obtain ⟨calm, back⟩ := idle k quiet
  rw [accessing_run calm, read_run, back]
  exact conducts_refl quiet

end Kernel

open Kernel

/-! ### Semaphores and condition variables -/

namespace Semaphore

variable {s : SemaphoreId}

theorem conducted_tryDown : WellConducted view donates (tryDown s) := by
  intro k quiet _
  rw [tryDown_run quiet]
  split
  · exact ⟨quiet.setSemaphore _ _, rfl, rfl, .refl _, nofun⟩
  · exact conducts_refl quiet

theorem conducted_downOrQueue : WellConducted view donates (downOrQueue me s) := by
  rintro k quiet rfl
  rw [downOrQueue_run quiet]
  split
  · exact ⟨quiet.setSemaphore _ _, rfl, rfl, .refl _, nofun⟩
  · have duly : Duly k.mode.donates (Donation.insertByPriority me (k.semaphore s).waiters) :=
      Donation.inspects_insertByPriority.avoids not_undue_staleHandle
    rcases inserts : (Donation.insertByPriority me (k.semaphore s).waiters k.table).outcome with
      fault | waiters
    · exact conducts_refused quiet (duly.outcome _ fault inserts)
    · exact ⟨quiet.setSemaphore _ _, rfl, rfl, .refl _, nofun⟩

theorem conducted_release : WellConducted view donates (release s) := by
  rintro k quiet rfl
  rw [release_run quiet]
  split
  · have duly : Duly k.mode.donates (Donation.sortByPriority (k.semaphore s).waiters) :=
      Donation.inspects_sortByPriority.avoids not_undue_staleHandle
    rcases sorts : (Donation.sortByPriority (k.semaphore s).waiters k.table).outcome with
      fault | ⟨⟩ | ⟨woken, rest⟩
    · refine ⟨quiet.setSemaphore _ _, rfl, rfl, .refl _, fun other same => ?_⟩
      cases same
      exact duly.outcome _ fault sorts
    · exact ⟨quiet.setSemaphore _ _, rfl, rfl, .refl _, nofun⟩
    · exact ⟨quiet.setSemaphore _ _, rfl, rfl, .refl _, nofun⟩
  · exact conducts_refused quiet nofun

theorem conducted_readCount : WellConducted view donates (readCount s) :=
  conducted_accessing fun _ quiet => ⟨quiet.semaphore s, quiet.semaphore_idle s⟩

theorem conducted_readWaiterCount : WellConducted view donates (readWaiterCount s) :=
  conducted_accessing fun _ quiet => ⟨quiet.semaphore s, quiet.semaphore_idle s⟩

end Semaphore

namespace Condvar

variable {c : CondvarId}

theorem conducted_register : WellConducted view donates (register me c lock) := by
  intro k quiet _
  rw [register_run quiet]
  split
  · exact ⟨(quiet.addSemaphore 0).setWaiters _ _, rfl, rfl, .refl _, nofun⟩
  · exact conducts_refused quiet nofun

theorem conducted_takeMostUrgent : WellConducted view donates (takeMostUrgent c) := by
  rintro k quiet rfl
  rw [takeMostUrgent_run quiet]
  have duly : Duly k.mode.donates (sortByPriority (k.waiters c)) :=
    (inspects_sortByPriority _).avoids not_undue_staleHandle
  rcases sorts : (sortByPriority (k.waiters c) k.table).outcome with fault | ⟨⟩ | ⟨first, rest⟩
  · exact conducts_refused quiet (duly.outcome _ fault sorts)
  · exact conducts_refl quiet
  · exact ⟨quiet.setWaiters _ _, rfl, rfl, .refl _, nofun⟩

theorem conducted_readWaiterCount : WellConducted view donates (readWaiterCount c) :=
  conducted_accessing fun _ quiet => ⟨quiet.condvar c, quiet.condvar_idle c⟩

end Condvar

end Conducted

/-! ### Calls -/

open Kernel

/-- What stretches of calls are made of accesses cells one after the other, or one inside the other
on different cells. -/
theorem conveys_conducted : Conveys (WellConducted view donates) (WellConducted view donates)
    (fun fault => ¬ Undue donates fault) (fun mode => mode = donates) where
  value := conducted_pure
  bind := conducted_bind
  read _ := conducted_read _
  require := conducted_require
  log _ := conducted_report _
  byMode next := conducted_mode (next _ rfl)
  ends _ := conducted_pure _
  goesOn := conducted_bind
  goesOnByMode next := conducted_mode (next _ rfl)
  looks _ := conducted_look
  tryDown _ := Semaphore.conducted_tryDown
  downOrQueue _ _ := Semaphore.conducted_downOrQueue
  release _ _ := Semaphore.conducted_release
  register _ _ _ _ := Condvar.conducted_register
  takeMostUrgent _ := Condvar.conducted_takeMostUrgent

variable (overlooks : Overlooks view donates)

namespace Frame

include overlooks in
/-- The accesses of a stretch come one after the other, or one inside the other on different cells;
and none is in progress when the scheduler is asked for something. -/
theorem conducted_advance {frame : Frame} : WellConducted view donates (frame.advance me) := by
  cases frame with
  | call made =>
    exact conveys_conducted.begin (fun _ => nofun)
      (fun _ => conducted_bind conducted_enter fun _ => conducted_pure _)
      fun _ _ => conducted_inSection fun _ => Condvar.conducted_register
  | leave saved => exact conducted_bind conducted_leave fun _ => conducted_pure _
  | acquire lock =>
    refine conveys_conducted.advance fun mode same => ?_
    subst same
    exact ⟨conducted_withThreads ((tabular_hides overlooks).register (fun _ _ _ => trivial)
        (fun _ _ => hides_log _) trivial)
        (tabular_duly.register not_undue_cycle (fun _ _ => avoids_report not_false) nofun),
      conducted_withThreads ((tabular_hides overlooks).claim fun _ => trivial)
        (tabular_duly.claim fun _ => nofun)⟩
  | giveUp lock =>
    refine conveys_conducted.advance fun mode same => ?_
    subst same
    exact conducted_withThreads ((tabular_hides overlooks).giveUp fun _ => trivial)
      (tabular_duly.giveUp fun _ => nofun)
  | up | claim => exact conveys_conducted.advance (by nofun)
  | down | downQueued | acquireQueued | check | signal | broadcast | signaled =>
    exact conveys_conducted.advance trivial

theorem conducted_unwind {frames : List Frame} : WellConducted view donates (unwind frames) :=
  conveys_conducted.unwind fun _ => conducted_leave

include overlooks in
theorem conducted_step {frames : List Frame} : WellConducted view donates (step me frames) := by
  cases frames with
  | nil => exact conducted_pure _
  | cons frame rest =>
    exact conducted_bind (conducted_onFault (conducted_advance overlooks) conducted_unwind)
      fun _ => conducted_pure _

end Frame

include overlooks in
theorem ShortCall.conducted_run {call : ShortCall} : WellConducted view donates (call.run me) := by
  refine conveys_conducted.run (fun conducted => conducted_inSection fun _ => conducted)
    fun lock _ => ⟨nofun, fun mode same => ?_⟩
  subst same
  exact conducted_withThreads ((tabular_hides overlooks).takeOwnership fun _ => trivial)
    (tabular_duly.takeOwnership fun _ => nofun)

end KernelSync
