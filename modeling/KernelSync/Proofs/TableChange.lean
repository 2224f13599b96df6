import KernelSync.Proofs.BasePriority
import KernelSync.Proofs.ThreadLife

/-!
The changes that a thread table goes through in a run. A `Change` is one of them, under the label
of the `Deed` that makes it: a registration, a lock claimed or given up, a thread created or
removed, a priority set. Whatever the order in which changes come, slots and donor lists stay in
order (`Change.sound`), under donation no cycle of waiting threads comes up (`Change.acyclic`), and
as long as no effective priority is set from outside no thread falls below one that awaits it
(`Change.covered`). Priorities stay settled as long as nobody changes them from outside but for
threads that wait for nothing (`Change.settled`).
-/

namespace KernelSync

open Stretch ThreadTable Donation Lock

variable {table after : ThreadTable} {me id t u : ThreadId} {lock other : LockId}
  {r : ThreadRecord} {mode : SchedulingMode}

/-! ### Claiming a lock -/

namespace Lock

/-- How a waiter, or a thread that has not had to wait, becomes the holder. -/
def claim (lock : LockId) (me : ThreadId) (donates : Bool) : Stretch ThreadTable Unit := do
  setWaitingOn me none
  takeOwnership lock me donates

/-- The table with `me` waiting for nothing. -/
def unwaiting (table : ThreadTable) (me : ThreadId) : ThreadTable :=
  table.modify me ({ · with waitingOn := none })

theorem waits_unwaiting :
    (unwaiting table me).waits t = if t = me then none else table.waits t := by
  unfold waits unwaiting
  rw [get?_modify]
  split
  · rename_i here
    subst here
    cases table.get? t with
    | none => rfl
    | some r => rfl
  · rfl

/-- No edge is lost, as nobody holds the lock. -/
theorem awaits_unwaiting (free : table.holder? lock = none) (may : MayRegister table lock me) :
    (unwaiting table me).Awaits = table.Awaits := by
  refine awaits_congr fun t => ?_
  unfold ahead?
  rw [waits_unwaiting]
  by_cases here : t = me
  · subst here
    rw [if_pos rfl]
    rcases may with idle | again
    · rw [idle]
      rfl
    · rw [again]
      exact free.symm
  · rw [if_neg here]
    rfl

theorem accounted_unwaiting (accounted : Accounted table) (free : table.holder? lock = none)
    (may : MayRegister table lock me) : Accounted (unwaiting table me) := by
  refine accounted.congr (awaits_unwaiting free may) ?_ ?_
  · intro id r found
    have same : Agree (·.donors) table (unwaiting table me) := agree_modify fun _ _ => rfl
    obtain ⟨r', found', eq⟩ := same.get?_before found
    exact ⟨r', found', eq ▸ .refl _⟩
  · intro other h held
    exact contains_modify.trans (accounted.holder_live other h held)

theorem covered_unwaiting (covered : Covered table) (free : table.holder? lock = none)
    (may : MayRegister table lock me) : Covered (unwaiting table me) :=
  covered.congr (awaits_unwaiting free may) (rank_modify fun _ => rfl)
    (baseRank_of_agree (agree_modify fun _ _ => rfl))

theorem settled_unwaiting (settled : Settled table) (free : table.holder? lock = none)
    (may : MayRegister table lock me) : Settled (unwaiting table me) :=
  settled.congr (awaits_unwaiting free may) (rank_modify fun _ => rfl)
    (baseRank_of_agree (agree_modify fun _ _ => rfl))

/-- To claim a free lock cannot fail. -/
theorem claim_run (arena : Arena table) (accounted : Accounted table)
    (live : table.contains me = true) (free : table.holder? lock = none)
    (may : MayRegister table lock me) (donates : Bool) :
    ∃ donors priority events, claim lock me donates table =
        ⟨.ok (), revised (unwaiting table me) me donors priority (table.holdings.insert lock me),
          events⟩ ∧
      Revises donates (unwaiting table me) me (table.holdings.insert lock me) donors priority := by
  obtain ⟨r, found⟩ := contains_iff.mp live
  have idle : (unwaiting table me).waits me = none := by rw [waits_unwaiting, if_pos rfl]
  have foundAfter : (unwaiting table me).get? me = some { r with waitingOn := none } :=
    get?_modify_self found
  have sets : setWaitingOn me none table = ⟨.ok (), unwaiting table me, []⟩ :=
    setWaitingOn_run found none
  obtain ⟨donors, priority, events, takes, revises⟩ := takeOwnership_run (arena.modify me _)
    (accounted_unwaiting accounted free may) foundAfter idle free donates
  refine ⟨donors, priority, events, ?_, revises⟩
  unfold claim
  rw [bind_run_ok sets]
  unfold unwaiting at *
  rw [takes]
  rfl

/-- Without a registration to take back, to claim a lock is to take ownership. -/
theorem claim_of_idle (live : table.contains me = true) (idle : table.waits me = none)
    (donates : Bool) : claim lock me donates table = takeOwnership lock me donates table := by
  obtain ⟨r, found⟩ := contains_iff.mp live
  have same : ({ r with waitingOn := none } : ThreadRecord) = r := by
    rw [waits_of_get? found] at idle
    cases r
    cases idle
    rfl
  have sets : setWaitingOn me none table = ⟨.ok (), table, []⟩ := by
    have run := setWaitingOn_run found none
    rwa [modify_eq_self found same] at run
  unfold claim
  rw [bind_run_ok sets]
  rfl

end Lock

/-! ### Changes -/

/-- What is done to the thread table. -/
inductive Deed where
  | rest
  | register (lock : LockId) (me : ThreadId)
  | claim (lock : LockId) (me : ThreadId)
  | giveUp (lock : LockId) (me : ThreadId)
  | spawn (id : ThreadId) (name : String) (priority : Priority)
  | remove (id : ThreadId)
  | setBase (id : ThreadId) (base : Priority)
  | setEffective (id : ThreadId) (priority : Priority)

/-- A deed and the table that it makes of another. -/
inductive Change (mode : SchedulingMode) (table : ThreadTable) : Deed → ThreadTable → Prop where
  | rest : Change mode table .rest table
  | register {lock : LockId} {me holder : ThreadId} (live : table.contains me = true)
      (held : table.holder? lock = some holder) (apart : holder ≠ me)
      (may : MayRegister table lock me)
      (ok : (Lock.register lock me mode.donates table).outcome = .ok ()) :
      Change mode table (.register lock me) (Lock.register lock me mode.donates table).state
  | claim {lock : LockId} {me : ThreadId} (live : table.contains me = true)
      (free : table.holder? lock = none) (may : MayRegister table lock me) :
      Change mode table (.claim lock me) (Lock.claim lock me mode.donates table).state
  | giveUp {lock : LockId} {me : ThreadId} (live : table.contains me = true)
      (held : table.holder? lock = some me) (idle : table.waits me = none) :
      Change mode table (.giveUp lock me) (Lock.giveUp lock me mode.donates table).state
  | spawn {id : ThreadId} {name : String} {priority : Priority} {after : ThreadTable}
      (gains : Gains table id (.fresh name priority) after) :
      Change mode table (.spawn id name priority) after
  | remove {id : ThreadId} {after : ThreadTable} (loses : Loses table id after)
      (idle : table.waits id = none) (unheld : table.holdings.heldBy id = []) :
      Change mode table (.remove id) after
  | setBase {id : ThreadId} {base : Priority} (live : table.contains id = true) :
      Change mode table (.setBase id base) (changeBasePriority id base mode table).state
  | setEffective {id : ThreadId} {priority : Priority} :
      Change mode table (.setEffective id priority) (table.modify id ({ · with priority }))

theorem Change.free_of_claim (change : Change mode table (.claim lock me) after) :
    table.holder? lock = none := by
  cases change
  assumption

theorem Change.held_of_giveUp (change : Change mode table (.giveUp lock me) after) :
    table.holder? lock = some me := by
  cases change
  assumption

/-- A new thread gets the generation that was due for its slot. -/
theorem Change.generation_of_spawn {name : String} {priority : Priority}
    (change : Change mode table (.spawn id name priority) after) :
    id.generation = table.next id.slot := by
  cases change with
  | spawn gains => exact gains.generation

/-- No priority is changed from outside, but for the base priority of a thread that waits for
nothing. -/
def Deed.Steady (table : ThreadTable) : Deed → Prop
  | setBase id _ => table.waits id = none
  | setEffective _ _ => False
  | _ => True

/-- Slots and donor lists are in order. -/
structure Sound (table : ThreadTable) : Prop where
  arena : Arena table
  accounted : Accounted table

theorem Change.sound {deed : Deed} (change : Change mode table deed after) (sound : Sound table) :
    Sound after := by
  have ⟨arena, accounted⟩ := sound
  cases change with
  | rest => exact sound
  | @register lock me holder live held apart may ok =>
    have same := register_sameGraph accounted live held apart may mode.donates
    exact ⟨same.shape.arena (arena_enrolled arena),
      same.accounted (accounted_enrolled live held may accounted)⟩
  | @claim lock me live free may =>
    obtain ⟨donors, priority, events, run, revises⟩ :=
      claim_run arena accounted live free may mode.donates
    have between := accounted_unwaiting accounted free may
    rw [run]
    refine ⟨arena_revised (arena.modify _ _), accounted_revised ?_ between revises.nodup
      revises.mem_iff ?_⟩
    · intro d h apart
      exact others_insert free apart
    · intro other h holds
      exact holders_insert between (contains_modify.trans live) holds
  | @giveUp lock me live held idle =>
    obtain ⟨r, found⟩ := contains_iff.mp live
    obtain ⟨donors, priority, events, run, revises⟩ :=
      giveUp_run accounted found held mode.donates
    rw [run]
    refine ⟨arena_revised arena, accounted_revised ?_ accounted revises.nodup revises.mem_iff ?_⟩
    · intro d h apart
      exact others_erase held apart
    · intro other h holds
      exact holders_erase accounted holds
  | spawn gains => exact ⟨gains.arena, gains.accounted accounted rfl rfl⟩
  | remove loses idle unheld => exact ⟨loses.arena, loses.accounted idle unheld accounted⟩
  | @setBase id base live =>
    have same : SameGraph table (changeBasePriority id base mode table).state :=
      changeBase_sameGraph accounted
    exact ⟨same.shape.arena arena, same.accounted accounted⟩
  | @setEffective id priority =>
    have same : SameGraph table (table.modify id ({ · with priority })) :=
      (reranks_modify priority).sameGraph
    exact ⟨same.shape.arena arena, same.accounted accounted⟩

section Donating

variable {deed : Deed} (change : Change mode table deed after) (sound : Sound table)
  (donating : mode.donates = true) (noCycle : Acyclic table)

include change sound donating noCycle in
/-- Under donation no change makes a cycle: a registration that would is refused, and a lock that
changes hands with waiters goes to a thread that waits for nothing. -/
theorem Change.acyclic : Acyclic after := by
  have ⟨arena, accounted⟩ := sound
  cases change with
  | rest => exact noCycle
  | @register lock me holder live held apart may ok =>
    rw [donating] at ok ⊢
    exact register_acyclic accounted live held apart may arena noCycle ok
  | @claim lock me live free may =>
    obtain ⟨donors, priority, events, run, -⟩ :=
      claim_run arena accounted live free may mode.donates
    have idle : (unwaiting table me).waits me = none := by rw [waits_unwaiting, if_pos rfl]
    rw [run]
    exact acyclic_revised (fun d h apart => others_insert free apart) idle
      (noCycle.congr (awaits_unwaiting free may))
  | @giveUp lock me live held idle =>
    obtain ⟨r, found⟩ := contains_iff.mp live
    obtain ⟨donors, priority, events, run, -⟩ := giveUp_run accounted found held mode.donates
    rw [run]
    exact acyclic_revised (fun d h apart => others_erase held apart) idle noCycle
  | spawn gains => exact noCycle.congr (gains.awaits rfl)
  | remove loses idle _ => exact noCycle.congr (loses.awaits idle)
  | @setBase id base live =>
    have same : SameGraph table (changeBasePriority id base mode table).state :=
      changeBase_sameGraph accounted
    exact same.acyclic noCycle
  | setEffective => exact (reranks_modify _).sameGraph.acyclic noCycle

include change sound donating noCycle in
/-- Under donation no change leaves anybody below a thread that awaits it, whoever gets whatever base
priority, unless an effective priority is set from outside. -/
theorem Change.covered (derived : ∀ id priority, deed ≠ .setEffective id priority)
    (covered : Covered table) : Covered after := by
  have ⟨arena, accounted⟩ := sound
  cases change with
  | rest => exact covered
  | @register lock me holder live held apart may ok =>
    rw [donating] at ok ⊢
    exact register_covered accounted live held apart may arena noCycle ok covered
  | @claim lock me live free may =>
    obtain ⟨donors, priority, events, run, revises⟩ :=
      claim_run arena accounted live free may mode.donates
    have idle : (unwaiting table me).waits me = none := by rw [waits_unwaiting, if_pos rfl]
    have between := covered_unwaiting covered free may
    rw [donating] at revises
    rw [run]
    exact covered_revised (contains_modify.trans live) (fun d h apart => others_insert free apart)
      idle (coveredElsewhere between) (revises.clears between) revises.mem_iff
  | @giveUp lock me live held idle =>
    obtain ⟨r, found⟩ := contains_iff.mp live
    obtain ⟨donors, priority, events, run, revises⟩ :=
      giveUp_run accounted found held mode.donates
    rw [donating] at revises
    rw [run]
    exact covered_revised live (fun d h apart => others_erase held apart) idle
      (coveredElsewhere covered) (revises.clears covered) revises.mem_iff
  | spawn gains => exact gains.covered accounted covered rfl rfl
  | remove loses idle unheld => exact loses.covered idle unheld covered
  | setBase live => exact changeBase_covered arena accounted noCycle live donating covered
  | setEffective => exact absurd rfl (derived _ _)

include change sound donating noCycle in
/-- Under donation a steady change leaves every priority the greatest of a base priority and the
donors'. -/
theorem Change.settled (steady : deed.Steady table) (settled : Settled table) : Settled after := by
  have ⟨arena, accounted⟩ := sound
  cases change with
  | rest => exact settled
  | @register lock me holder live held apart may ok =>
    rw [donating] at ok ⊢
    exact register_settled accounted live held apart may arena noCycle ok settled
  | @claim lock me live free may =>
    obtain ⟨donors, priority, events, run, revises⟩ :=
      claim_run arena accounted live free may mode.donates
    have idle : (unwaiting table me).waits me = none := by rw [waits_unwaiting, if_pos rfl]
    have between := settled_unwaiting settled free may
    rw [donating] at revises
    rw [run]
    exact settled_revised (contains_modify.trans live) (fun d h apart => others_insert free apart)
      idle (settledElsewhere between) (revises.fits between) revises.mem_iff
  | @giveUp lock me live held idle =>
    obtain ⟨r, found⟩ := contains_iff.mp live
    obtain ⟨donors, priority, events, run, revises⟩ :=
      giveUp_run accounted found held mode.donates
    rw [donating] at revises
    rw [run]
    exact settled_revised live (fun d h apart => others_erase held apart) idle
      (settledElsewhere settled) (revises.fits settled) revises.mem_iff
  | spawn gains => exact gains.settled accounted settled rfl rfl
  | remove loses idle unheld => exact loses.settled idle unheld settled
  | setBase live => exact changeBase_settled accounted live donating steady settled
  | setEffective => exact absurd steady id

end Donating

/-! ### What a change shows -/

/-- The lock that a thread waits for after a deed. -/
def Deed.waits (table : ThreadTable) (deed : Deed) (t : ThreadId) : Option LockId :=
  match deed with
  | register lock me => if t = me then some lock else table.waits t
  | claim _ me => if t = me then none else table.waits t
  | _ => table.waits t

/-- The holder of a lock after a deed. -/
def Deed.holder? (table : ThreadTable) (deed : Deed) (lock : LockId) : Option ThreadId :=
  match deed with
  | claim taken me => if lock = taken then some me else table.holder? lock
  | giveUp given _ => if lock = given then none else table.holder? lock
  | _ => table.holder? lock

/-- Whether a thread is live after a deed. -/
def Deed.Live (table : ThreadTable) (deed : Deed) (t : ThreadId) : Prop :=
  match deed with
  | spawn id _ _ => t = id ∨ table.contains t = true
  | remove id => t ≠ id ∧ table.contains t = true
  | _ => table.contains t = true

/-- The handles that have been issued after a deed. -/
def Deed.issued (deed : Deed) (issued : List ThreadId) : List ThreadId :=
  match deed with
  | spawn id _ _ => issued ++ [id]
  | _ => issued

/-- The generation under which a slot will be issued next, after a deed. -/
def Deed.next (table : ThreadTable) (deed : Deed) (slot : UInt32) : UInt32 :=
  match deed with
  | spawn id _ _ => if slot = id.slot then table.next slot + 1 else table.next slot
  | _ => table.next slot

section Views

variable {deed : Deed} (change : Change mode table deed after) (sound : Sound table)
include change sound

theorem Change.waits (t : ThreadId) : after.waits t = deed.waits table t := by
  have ⟨arena, accounted⟩ := sound
  cases change with
  | rest => rfl
  | register live held apart may ok =>
    rw [(register_sameGraph accounted live held apart may mode.donates).waits, waits_enrolled live]
    rfl
  | claim live free may =>
    obtain ⟨donors, priority, events, run, -⟩ :=
      claim_run arena accounted live free may mode.donates
    rw [run]
    exact waits_revised.trans waits_unwaiting
  | giveUp live held idle =>
    obtain ⟨r, found⟩ := contains_iff.mp live
    obtain ⟨donors, priority, events, run, -⟩ := giveUp_run accounted found held mode.donates
    rw [run]
    exact waits_revised
  | spawn gains => exact gains.waits rfl
  | remove loses idle _ => exact loses.waits idle
  | setBase live => exact (changeBase_sameGraph accounted).waits t
  | setEffective => exact (reranks_modify _).sameGraph.waits t

theorem Change.holder? (lock : LockId) : after.holder? lock = deed.holder? table lock := by
  have ⟨arena, accounted⟩ := sound
  cases change with
  | rest => rfl
  | register live held apart may ok =>
    exact (register_sameGraph accounted live held apart may mode.donates).holder? lock
  | claim live free may =>
    obtain ⟨donors, priority, events, run, -⟩ :=
      claim_run arena accounted live free may mode.donates
    rw [run]
    exact Holdings.holder?_insert _ _ _ _
  | giveUp live held idle =>
    obtain ⟨r, found⟩ := contains_iff.mp live
    obtain ⟨donors, priority, events, run, -⟩ := giveUp_run accounted found held mode.donates
    rw [run]
    exact Holdings.holder?_erase _ _ _
  | spawn gains => exact gains.holder?
  | remove loses _ _ => exact loses.holder?
  | setBase live => exact (changeBase_sameGraph accounted).holder? lock
  | setEffective => exact (reranks_modify _).sameGraph.holder? lock

theorem Change.contains (t : ThreadId) : after.contains t = true ↔ deed.Live table t := by
  have ⟨arena, accounted⟩ := sound
  cases change with
  | rest => rfl
  | register live held apart may ok =>
    rw [(register_sameGraph accounted live held apart may mode.donates).contains,
      contains_enrolled]
    rfl
  | claim live free may =>
    obtain ⟨donors, priority, events, run, -⟩ :=
      claim_run arena accounted live free may mode.donates
    rw [run]
    exact iff_of_eq (congrArg (· = true) (contains_revised.trans contains_modify))
  | giveUp live held idle =>
    obtain ⟨r, found⟩ := contains_iff.mp live
    obtain ⟨donors, priority, events, run, -⟩ := giveUp_run accounted found held mode.donates
    rw [run]
    exact iff_of_eq (congrArg (· = true) contains_revised)
  | spawn gains => exact gains.contains
  | remove loses _ _ => exact loses.contains
  | setBase live =>
    rw [(changeBase_sameGraph accounted).contains]
    rfl
  | setEffective =>
    rw [(reranks_modify _).sameGraph.contains]
    rfl

/-- Slots change their shape only where a thread is made or removed. -/
theorem Change.sameShape : SameShape table after ∧
      (∀ slot, deed.next table slot = table.next slot) ∨
    (∃ id name priority, deed = .spawn id name priority ∧
      Gains table id (.fresh name priority) after) ∨
    ∃ id, deed = .remove id ∧ Loses table id after := by
  have ⟨arena, accounted⟩ := sound
  cases change with
  | rest => exact Or.inl ⟨.refl _, fun _ => rfl⟩
  | register live held apart may ok =>
    have same := register_sameGraph accounted live held apart may mode.donates
    exact Or.inl ⟨enrolled_sameShape.trans same.shape, fun _ => rfl⟩
  | claim live free may =>
    obtain ⟨donors, priority, events, run, -⟩ :=
      claim_run arena accounted live free may mode.donates
    rw [run]
    exact Or.inl ⟨(sameShape_modify _ _).trans revised_sameShape, fun _ => rfl⟩
  | giveUp live held idle =>
    obtain ⟨r, found⟩ := contains_iff.mp live
    obtain ⟨donors, priority, events, run, -⟩ := giveUp_run accounted found held mode.donates
    rw [run]
    exact Or.inl ⟨revised_sameShape, fun _ => rfl⟩
  | spawn gains => exact Or.inr (Or.inl ⟨_, _, _, rfl, gains⟩)
  | remove loses idle _ => exact Or.inr (Or.inr ⟨_, rfl, loses⟩)
  | setBase live => exact Or.inl ⟨(changeBase_sameGraph accounted).shape, fun _ => rfl⟩
  | setEffective => exact Or.inl ⟨sameShape_modify _ _, fun _ => rfl⟩

theorem Change.next (slot : UInt32) : after.next slot = deed.next table slot := by
  rcases change.sameShape sound with ⟨same, stays⟩ | ⟨id, _, _, rfl, gains⟩ | ⟨id, rfl, loses⟩
  · rw [stays]
    exact same.next slot
  · exact gains.next slot
  · exact loses.next slot

/-- No slot is ever given up. -/
theorem Change.length_le : table.slots.length ≤ after.slots.length := by
  rcases change.sameShape sound with ⟨same, -⟩ | ⟨id, _, _, rfl, gains⟩ | ⟨id, rfl, loses⟩
  · exact Nat.le_of_eq same.length_eq.symm
  · exact gains.length_le
  · exact Nat.le_of_eq loses.length_eq.symm

end Views

end KernelSync
