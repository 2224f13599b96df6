import KernelSync.ThreadTable
import KernelSync.Proofs.Stretch

/-!
The thread table seen through its records. Whatever donation does to a table it does by `modify`,
one record at a time; `get?_modify` says what that does to each record, and the `_run` equations
say what the accessors do for a live thread. `waits` and `ahead?` read off a record what the wait
chain is made of: the lock a thread waits for, and the thread that holds it.
-/

namespace KernelSync.ThreadTable

open Stretch

variable {table : ThreadTable} {id other : ThreadId} {r : ThreadRecord}
  {f g : ThreadRecord → ThreadRecord} {lock : LockId}

theorem contains_iff : table.contains id = true ↔ ∃ r, table.get? id = some r :=
  Option.isSome_iff_exists

theorem contains_of_get? (h : table.get? id = some r) : table.contains id = true :=
  contains_iff.mpr ⟨r, h⟩

theorem get?_eq_none_iff : table.get? id = none ↔ table.contains id = false := by
  simp [contains]

/-! ### Changing one record -/

@[simp] theorem holdings_modify : (table.modify id f).holdings = table.holdings := rfl

@[simp] theorem free_modify : (table.modify id f).free = table.free := rfl

@[simp] theorem capacity_modify : (table.modify id f).capacity = table.capacity := rfl

@[simp] theorem live_modify : (table.modify id f).live = table.live := rfl

@[simp] theorem holder?_modify : (table.modify id f).holder? lock = table.holder? lock := rfl

theorem get?_modify_self (h : table.get? id = some r) :
    (table.modify id f).get? id = some (f r) := by
  simp [get?_modify, h]

theorem get?_modify_of_ne (ne : other ≠ id) :
    (table.modify id f).get? other = table.get? other := by
  simp [get?_modify, ne]

@[simp] theorem contains_modify : (table.modify id f).contains other = table.contains other := by
  unfold contains
  rw [get?_modify]
  split
  · rename_i same
    subst same
    cases table.get? other <;> rfl
  · rfl

/-- Two changes of one record are one change. -/
theorem modify_modify : (table.modify id f).modify id g = table.modify id (g ∘ f) := by
  unfold modify
  simp only [List.modify_modify_eq]
  congr 2
  funext slot
  by_cases same : slot.generation = id.generation
  · simp [same]
  · simp [same]

/-- A change matters only for the record that is there. -/
theorem modify_congr (h : table.get? id = some r) (same : f r = g r) :
    table.modify id f = table.modify id g := by
  unfold modify
  congr 1
  apply List.ext_getElem?
  intro index
  rw [List.getElem?_modify, List.getElem?_modify]
  by_cases here : id.slot.toNat = index
  · subst here
    unfold get? at h
    cases hslot : table.slots[id.slot.toNat]? with
    | none => simp
    | some slot =>
      rw [hslot] at h
      by_cases gen : slot.generation = id.generation
      · simp only [gen, if_true] at h
        simp [gen, h, same]
      · simp [gen]
  · simp [here]

/-- A change that leaves the record as it is changes nothing. -/
theorem modify_eq_self (h : table.get? id = some r) (same : f r = r) :
    table.modify id f = table := by
  have unchanged : table.modify id f = table.modify id fun r => r := modify_congr h same
  have trivially : (fun slot : Slot =>
      if slot.generation = id.generation then { slot with record := slot.record.map fun r => r }
      else slot) = fun slot : Slot => slot := by
    funext slot
    cases slot
    simp
  rw [unchanged]
  unfold modify
  rw [trivially]
  cases table
  congr 1
  exact List.modify_id ..

/-! ### What the accessors do for a live thread -/

theorem basePriority_run (h : table.get? id = some r) :
    basePriority id table = ⟨.ok r.basePriority, table, []⟩ := by
  simp [basePriority, bind_run, record_run h]

theorem waitingOn_run (h : table.get? id = some r) :
    waitingOn id table = ⟨.ok r.waitingOn, table, []⟩ := by
  simp [waitingOn, bind_run, record_run h]

theorem donors_run (h : table.get? id = some r) :
    donors id table = ⟨.ok r.donors, table, []⟩ := by
  simp [donors, bind_run, record_run h]

theorem setPriority_run (h : table.get? id = some r) (priority : Priority) :
    setPriority id priority table =
      ⟨.ok (), table.modify id ({ · with priority }), []⟩ :=
  amend_run h _

theorem setBasePriority_run (h : table.get? id = some r) (basePriority : Priority) :
    setBasePriority id basePriority table =
      ⟨.ok (), table.modify id ({ · with basePriority }), []⟩ :=
  amend_run h _

theorem setWaitingOn_run (h : table.get? id = some r) (waitingOn : Option LockId) :
    setWaitingOn id waitingOn table =
      ⟨.ok (), table.modify id ({ · with waitingOn }), []⟩ :=
  amend_run h _

theorem setDonors_run (h : table.get? id = some r) (donors : List ThreadId) :
    setDonors id donors table =
      ⟨.ok (), table.modify id ({ · with donors }), []⟩ :=
  amend_run h _

/-- A change of a record that succeeds has found a live thread. -/
theorem amend_eq_ok {table' : ThreadTable} {events : List Event} :
    amend id f table = ⟨.ok (), table', events⟩ ↔
      table.contains id = true ∧ table' = table.modify id f ∧ events = [] := by
  cases h : table.get? id with
  | none =>
    have stale : table.contains id = false := get?_eq_none_iff.mp h
    simp [amend, bind_run, record_run_of_stale h, stale]
  | some r =>
    rw [amend_run h]
    simp [contains_of_get? h, eq_comm]

/-- To look up a record can go wrong with a stale handle alone. -/
theorem inspects_record : Inspects (record id) := by
  refine inspects_bind (inspects_read _) fun found => ?_
  cases found with
  | none => exact inspects_stale id
  | some r => exact inspects_pure r

theorem inspects_priority : Inspects (priority id) :=
  inspects_bind inspects_record fun _ => inspects_pure _

theorem inspects_basePriority : Inspects (basePriority id) :=
  inspects_bind inspects_record fun _ => inspects_pure _

theorem inspects_waitingOn : Inspects (waitingOn id) :=
  inspects_bind inspects_record fun _ => inspects_pure _

theorem inspects_donors : Inspects (donors id) :=
  inspects_bind inspects_record fun _ => inspects_pure _

/-! ### Waiting -/

/-- The lock for which a thread waits; a stale handle waits for none. -/
def waits (table : ThreadTable) (id : ThreadId) : Option LockId :=
  (table.get? id).bind (·.waitingOn)

/-- The next thread on the wait chain: the holder of the lock for which a thread waits. -/
def ahead? (table : ThreadTable) (id : ThreadId) : Option ThreadId :=
  (table.waits id).bind table.holder?

theorem waits_of_get? (h : table.get? id = some r) : table.waits id = r.waitingOn := by
  simp [waits, h]

theorem waits_eq_some_iff :
    table.waits id = some lock ↔ ∃ r, table.get? id = some r ∧ r.waitingOn = some lock := by
  simp [waits, Option.bind_eq_some_iff]

theorem contains_of_waits (h : table.waits id = some lock) : table.contains id = true := by
  obtain ⟨r, live, -⟩ := waits_eq_some_iff.mp h
  exact contains_of_get? live

theorem ahead?_eq_some_iff :
    table.ahead? id = some other ↔
      ∃ lock, table.waits id = some lock ∧ table.holder? lock = some other := by
  simp [ahead?, Option.bind_eq_some_iff]

theorem contains_of_ahead? (h : table.ahead? id = some other) : table.contains id = true := by
  obtain ⟨lock, waiting, -⟩ := ahead?_eq_some_iff.mp h
  exact contains_of_waits waiting

/-! ### Tables that agree -/

/-- Two tables have the same live threads, and give each the same value under `view`. -/
def Agree {α : Type} (view : ThreadRecord → α) (table table' : ThreadTable) : Prop :=
  ∀ id, (table'.get? id).map view = (table.get? id).map view

section Agree

variable {α β : Type} {view : ThreadRecord → α} {table' table'' : ThreadTable}

theorem Agree.refl (view : ThreadRecord → α) (table : ThreadTable) : Agree view table table :=
  fun _ => rfl

theorem Agree.trans (first : Agree view table table') (second : Agree view table' table'') :
    Agree view table table'' :=
  fun id => (second id).trans (first id)

theorem Agree.map (h : Agree view table table') (coarser : α → β) :
    Agree (coarser ∘ view) table table' := by
  intro id
  rw [← Option.map_map, ← Option.map_map, h id]

theorem Agree.contains (h : Agree view table table') (id : ThreadId) :
    table'.contains id = table.contains id := by
  have same := congrArg Option.isSome (h id)
  simpa [ThreadTable.contains] using same

theorem Agree.get? (h : Agree view table table') (live : table.get? id = some r) :
    ∃ r', table'.get? id = some r' ∧ view r' = view r := by
  have same := h id
  rw [live] at same
  exact Option.map_eq_some_iff.mp same

theorem Agree.get?_before {r' : ThreadRecord} (h : Agree view table table')
    (live : table'.get? id = some r') : ∃ r, table.get? id = some r ∧ view r' = view r := by
  have same := (h id).symm
  rw [live] at same
  obtain ⟨r, found, eq⟩ := Option.map_eq_some_iff.mp same
  exact ⟨r, found, eq.symm⟩

/-- A change of a record that keeps the value under `view` is one the view does not see. -/
theorem agree_modify (same : ∀ r, table.get? id = some r → view (f r) = view r) :
    Agree view table (table.modify id f) := by
  intro other
  rw [get?_modify]
  split
  · rename_i here
    subst here
    cases h : table.get? other with
    | none => rfl
    | some r => simp [same r h]
  · rfl

theorem Agree.waits (h : Agree (·.waitingOn) table table') (id : ThreadId) :
    table'.waits id = table.waits id := by
  have same := h id
  unfold ThreadTable.waits
  cases before : table.get? id <;> cases after : table'.get? id <;> simp_all

theorem Agree.ahead? (h : Agree (·.waitingOn) table table')
    (held : ∀ lock, table'.holder? lock = table.holder? lock) (id : ThreadId) :
    table'.ahead? id = table.ahead? id := by
  unfold ThreadTable.ahead?
  rw [h.waits id]
  cases table.waits id with
  | none => rfl
  | some lock => exact held lock

end Agree

end KernelSync.ThreadTable
