import KernelSync.Proofs.Conduct
import KernelSync.Proofs.Refusals

/-!
The thread table in use. A `Roll` is a table with the handles of its threads, those that were issued
and have not been taken back. Whatever is asked of the table, and however it ends, slots, free list,
live count and listing go on to tell of those threads and no others (`represents_members`): the
updates of records and holders leave the slots as they are (`Update.unseen`), and to create or
remove a thread concerns its slot alone.
-/

namespace KernelSync.ThreadTable

/-! ### Demands on a table -/

/-- What is asked of a table besides the beginning and the end of threads. -/
inductive Update where
  /-- Any change of one record. -/
  | amend (id : ThreadId) (f : ThreadRecord → ThreadRecord)
  | setHolder (lock : LockId) (holder : ThreadId)
  | clearHolder (lock : LockId)
  | addDonor (holder donor : ThreadId)
  | removeDonorsFor (holder : ThreadId) (lock : LockId)
  | adoptWaiters (holder : ThreadId) (lock : LockId)
  | donate (donor : ThreadId)
  | updateDonation (id : ThreadId)
  | changeBasePriority (id : ThreadId) (base : Priority) (mode : SchedulingMode)
  | register (lock : LockId) (me : ThreadId) (donates : Bool)
  | takeOwnership (lock : LockId) (me : ThreadId) (donates : Bool)
  | giveUp (lock : LockId) (me : ThreadId) (donates : Bool)

/-- The table that an update leaves, also when it is cut short. -/
def Update.perform (table : ThreadTable) : Update → ThreadTable
  | .amend id f => (ThreadTable.amend id f table).state
  | .setHolder lock holder => (ThreadTable.setHolder lock holder table).state
  | .clearHolder lock => (ThreadTable.clearHolder lock table).state
  | .addDonor holder donor => (Donation.addDonor holder donor table).state
  | .removeDonorsFor holder lock => (Donation.removeDonorsFor holder lock table).state
  | .adoptWaiters holder lock => (Donation.adoptWaiters holder lock table).state
  | .donate donor => (Donation.donate donor table).state
  | .updateDonation id => (Donation.updateDonation id table).state
  | .changeBasePriority id base mode => (Donation.changeBasePriority id base mode table).state
  | .register lock me donates => (Lock.register lock me donates table).state
  | .takeOwnership lock me donates => (Lock.takeOwnership lock me donates table).state
  | .giveUp lock me donates => (Lock.giveUp lock me donates table).state

/-- What is asked of a table. -/
inductive Operation where
  | spawn (name : String) (priority : Priority)
  | remove (id : ThreadId)
  | update (u : Update)

/-- A table with the handles of its threads, in the order in which they were issued. -/
structure Roll where
  table : ThreadTable
  members : List ThreadId

namespace Roll

def opened (capacity : Nat) : Roll := ⟨empty capacity, []⟩

/-- A handle is entered when it is issued, and struck off when its thread has been removed. An
operation that fails leaves the table as it was by then. -/
def perform (roll : Roll) : Operation → Roll
  | .spawn name priority =>
      let run := spawn name priority roll.table
      match run.outcome with
      | .ok (.ok id) => ⟨run.state, roll.members ++ [id]⟩
      | _ => ⟨run.state, roll.members⟩
  | .remove id =>
      let run := remove id roll.table
      match run.outcome with
      | .ok _ => ⟨run.state, roll.members.erase id⟩
      | .error _ => ⟨run.state, roll.members⟩
  | .update u => ⟨u.perform roll.table, roll.members⟩

def performAll (roll : Roll) (operations : List Operation) : Roll := operations.foldl perform roll

end Roll

/-! ### Updates -/

/-- Updates leave the slots of a table as they are, and nobody comes or goes. -/
theorem Update.unseen (u : Update) (table : ThreadTable) :
    Unseen presence table (u.perform table) := by
  have hides : ∀ donates, Tabular (Hides presence) (fun _ => True) donates := fun _ =>
    tabular_hides overlooks_presence
  cases u with
  | amend id f =>
    have amends : Hides presence (ThreadTable.amend id f) := hides_amend fun _ => rfl
    exact amends table
  | setHolder lock holder => exact (hides true).setHolder (fun _ => trivial) table
  | clearHolder lock => exact hides_holdings _ table
  | addDonor holder donor => exact (hides true).addDonor table
  | removeDonorsFor holder lock => exact (hides true).removeDonorsFor table
  | adoptWaiters holder lock => exact (hides true).adoptWaiters table
  | donate donor => exact (hides true).donate rfl (fun _ _ => trivial) hides_log table
  | updateDonation id => exact (hides true).updateDonation rfl table
  | changeBasePriority id base mode => exact Donation.hides_changeBase table
  | register lock me donates =>
    exact (hides donates).register (fun _ _ _ => trivial) (fun _ => hides_log) trivial table
  | takeOwnership lock me donates => exact (hides donates).takeOwnership (fun _ => trivial) table
  | giveUp lock me donates => exact (hides donates).giveUp (fun _ => trivial) table

/-! ### What a roll keeps -/

namespace Roll

variable {roll : Roll} {capacity : Nat}

/-- The representation of the table is sound, and its live threads are those on the roll. -/
structure Faithful (capacity : Nat) (roll : Roll) : Prop where
  arena : Arena roll.table
  capacity_eq : roll.table.capacity = capacity
  nodup : roll.members.Nodup
  mem_iff : ∀ t, t ∈ roll.members ↔ roll.table.contains t = true

theorem faithful_opened (small : capacity ≤ maxCapacity) : Faithful capacity (opened capacity) where
  arena := arena_empty small
  capacity_eq := rfl
  nodup := List.nodup_nil
  mem_iff := fun _ => ⟨fun mem => absurd mem List.not_mem_nil, nofun⟩

/-- The listing of a table has the threads on the roll, each once. -/
theorem Faithful.ids_perm (faithful : Faithful capacity roll) :
    roll.table.ids.Perm roll.members :=
  (List.perm_ext_iff_of_nodup (nodup_ids faithful.arena) faithful.nodup).mpr fun t =>
    (mem_ids_iff faithful.arena).trans (faithful.mem_iff t).symm

/-- There are as many threads as the live count says. -/
theorem Faithful.live_eq (faithful : Faithful capacity roll) :
    roll.table.live = roll.members.length := by
  rw [← length_ids faithful.arena]
  exact faithful.ids_perm.length_eq

/-- A demand for a new thread finds the table full, or the roll has room for one more handle. -/
theorem Faithful.spawn_cases (faithful : Faithful capacity roll) (name : String)
    (priority : Priority) :
    (capacity ≤ roll.members.length ∧
      spawn name priority roll.table = ⟨.ok (.error ⟨capacity⟩), roll.table, []⟩) ∨
    ∃ id after events, roll.members.length < capacity ∧ id ∉ roll.members ∧
      spawn name priority roll.table = ⟨.ok (.ok id), after, events⟩ ∧
      Gains roll.table id (.fresh name priority) after ∧ after.capacity = capacity := by
  rw [← faithful.live_eq, ← faithful.capacity_eq]
  by_cases full : roll.table.capacity ≤ roll.table.live
  · exact Or.inl ⟨full, spawn_full full⟩
  · obtain ⟨id, after, spawned, gains, same⟩ :=
      spawn_gains faithful.arena (Nat.lt_of_not_le full) name priority
    refine Or.inr ⟨id, after, _, Nat.lt_of_not_le full, fun mem => ?_, spawned, gains, same⟩
    exact nomatch gains.absent.symm.trans ((faithful.mem_iff id).mp mem)

/-- Whatever is asked, a roll goes on to name the threads of its table. -/
theorem Faithful.perform (faithful : Faithful capacity roll) (operation : Operation) :
    Faithful capacity (roll.perform operation) := by
  cases operation with
  | spawn name priority =>
    rcases faithful.spawn_cases name priority with
      ⟨-, refused⟩ | ⟨id, after, events, -, absent, spawned, gains, capacity_eq⟩
    · have same : roll.perform (.spawn name priority) = roll := by
        simp [Roll.perform, refused]
      rw [same]
      exact faithful
    · have entered : roll.perform (.spawn name priority) = ⟨after, roll.members ++ [id]⟩ := by
        simp [Roll.perform, spawned]
      rw [entered]
      refine ⟨gains.arena, capacity_eq, ?_, fun t => ?_⟩
      · refine List.nodup_append.mpr ⟨faithful.nodup, List.pairwise_singleton _ id, ?_⟩
        rintro t old _ new rfl
        exact absent (List.mem_singleton.mp new ▸ old)
      · rw [List.mem_append, List.mem_singleton, faithful.mem_iff, gains.contains, or_comm]
  | remove id =>
    rcases run : remove id roll.table with ⟨fault | r, after, events⟩
    · have same : roll.perform (.remove id) = roll := by
        have unchanged := remove_of_fails (congrArg Run.outcome run)
        simp [Roll.perform, unchanged]
      rw [same]
      exact faithful
    · have struck : roll.perform (.remove id) = ⟨after, roll.members.erase id⟩ := by
        simp [Roll.perform, run]
      obtain ⟨-, -, -, loses⟩ := remove_eq_ok faithful.arena run
      rw [struck]
      refine ⟨loses.arena, ?_, faithful.nodup.erase id, fun t => ?_⟩
      · rw [remove_eq_vacate run]
        exact faithful.capacity_eq
      · rw [faithful.nodup.mem_erase_iff, faithful.mem_iff, loses.contains]
  | update u =>
    have unseen := u.unseen roll.table
    exact ⟨unseen.shape.arena faithful.arena, unseen.shape.capacity.trans faithful.capacity_eq,
      faithful.nodup, fun t => (faithful.mem_iff t).trans (by
        rw [← unseen.agree.contains t]
        rfl)⟩

theorem Faithful.performAll (faithful : Faithful capacity roll) (operations : List Operation) :
    Faithful capacity (roll.performAll operations) := by
  induction operations generalizing roll with
  | nil => exact faithful
  | cons operation rest ih => exact ih (faithful.perform operation)

/-! ### What a table says of its threads -/

/-- Slots, free list, live count and listing all tell of the threads on the roll. -/
structure Represents (capacity : Nat) (roll : Roll) : Prop extends Faithful capacity roll where
  /-- The free list has the empty slots, wherever they are. -/
  mem_free_iff : ∀ index : Nat, index ∈ roll.table.free.map UInt32.toNat ↔
    ∃ generation, roll.table.slots[index]? = some ⟨generation, none⟩
  live_eq_countP : roll.table.live = roll.table.slots.countP (·.record.isSome)
  live_eq_length : roll.table.live = roll.members.length
  live_le : roll.table.live ≤ capacity
  length_le : roll.table.slots.length ≤ capacity
  /-- No slot number is cut short, that of a further slot included. -/
  number : ∀ index, index ≤ roll.table.slots.length → index.toUInt32.toNat = index
  ids_perm : roll.table.ids.Perm roll.members
  ids_ordered : roll.table.ids.Pairwise fun t u => t.slot < u.slot
  mem_entries_iff : ∀ t r, (t, r) ∈ roll.table.entries ↔ roll.table.get? t = some r

/-- The next thread is created if there is room for it, and nobody else notices. -/
structure Creates (capacity : Nat) (roll : Roll) (name : String) (priority : Priority) : Prop where
  /-- No assertion fails. -/
  answers : ∃ answer, (spawn name priority roll.table).outcome = .ok answer
  succeeds_iff : (∃ id, (spawn name priority roll.table).outcome = .ok (.ok id)) ↔
    roll.members.length < capacity
  refuses : capacity ≤ roll.members.length →
    spawn name priority roll.table = ⟨.ok (.error ⟨capacity⟩), roll.table, []⟩
  fresh : ∀ id, (spawn name priority roll.table).outcome = .ok (.ok id) →
    id ∉ roll.members ∧ (spawn name priority roll.table).state.get? id = some (.fresh name priority)
  others : ∀ t ∈ roll.members, (spawn name priority roll.table).state.get? t = roll.table.get? t

/-- A thread is removed without anybody else noticing, or the table stays as it is. -/
structure Removes (roll : Roll) (id : ThreadId) : Prop where
  /-- The live count has not gone below zero. -/
  counts : ∀ r, (remove id roll.table).outcome = .ok r →
    roll.table.live = (remove id roll.table).state.live + 1
  gone : ∀ r, (remove id roll.table).outcome = .ok r →
    roll.table.get? id = some r ∧ (remove id roll.table).state.get? id = none
  unchanged : ∀ fault, (remove id roll.table).outcome = .error fault →
    (remove id roll.table).state = roll.table
  others : ∀ t, t ≠ id → (remove id roll.table).state.get? t = roll.table.get? t

theorem Faithful.represents (faithful : Faithful capacity roll) : Represents capacity roll := by
  have arena := faithful.arena
  have length_le : roll.table.slots.length ≤ capacity := faithful.capacity_eq ▸ arena.length_le
  have number : ∀ index, index ≤ roll.table.slots.length → index.toUInt32.toNat = index :=
    fun index le => toNat_toUInt32 (Nat.lt_of_le_of_lt le arena.length_lt)
  refine ⟨faithful, fun index => ?_, arena.live_eq, faithful.live_eq, ?_, length_le, number,
    faithful.ids_perm, pairwise_ids arena, fun t r => ThreadTable.mem_entries_iff arena⟩
  · rw [List.mem_map]
    constructor
    · rintro ⟨slot, mem, rfl⟩
      exact (arena.mem_free_iff slot).mp mem
    · rintro ⟨generation, empty⟩
      obtain ⟨small, -⟩ := List.getElem?_eq_some_iff.mp empty
      have same := number index (Nat.le_of_lt small)
      exact ⟨index.toUInt32, (arena.mem_free_iff _).mpr ⟨generation, same.symm ▸ empty⟩, same⟩
  · rw [arena.live_eq]
    exact Nat.le_trans List.countP_le_length length_le

theorem Faithful.creates (faithful : Faithful capacity roll) (name : String) (priority : Priority) :
    Creates capacity roll name priority := by
  rcases faithful.spawn_cases name priority with
    ⟨full, refused⟩ | ⟨id, after, events, room, absent, spawned, gains, -⟩
  · refine ⟨?_, ?_, fun _ => refused, ?_, ?_⟩
    · exact ⟨_, congrArg Run.outcome refused⟩
    · rw [refused]
      exact ⟨nofun, fun room => absurd full (Nat.not_le_of_lt room)⟩
    · rw [refused]
      exact nofun
    · rw [refused]
      exact fun _ _ => rfl
  · refine ⟨?_, ?_, fun full => absurd full (Nat.not_le_of_lt room), ?_, ?_⟩
    · exact ⟨_, congrArg Run.outcome spawned⟩
    · exact ⟨fun _ => room, fun _ => ⟨id, congrArg Run.outcome spawned⟩⟩
    · rw [spawned]
      rintro _ ⟨⟩
      exact ⟨absent, (gains.get? id).trans (if_pos rfl)⟩
    · rw [spawned]
      intro t mem
      refine (gains.get? t).trans (if_neg ?_)
      rintro rfl
      exact absent mem

theorem Faithful.removes (faithful : Faithful capacity roll) (id : ThreadId) : Removes roll id := by
  rcases run : remove id roll.table with ⟨fault | r, after, events⟩
  · have unchanged := remove_of_fails (congrArg Run.outcome run)
    refine ⟨?_, ?_, ?_, ?_⟩
    · rw [unchanged]
      exact nofun
    · rw [unchanged]
      exact nofun
    · rw [unchanged]
      exact fun _ _ => rfl
    · rw [unchanged]
      exact fun _ _ => rfl
  · obtain ⟨found, -, -, loses⟩ := remove_eq_ok faithful.arena run
    have vacated := remove_eq_vacate run
    have some_live : 0 < roll.table.live := by
      rw [faithful.live_eq]
      exact List.length_pos_of_mem ((faithful.mem_iff id).mpr (contains_of_get? found))
    refine ⟨?_, ?_, ?_, ?_⟩
    · rw [run, vacated]
      exact fun _ _ => (Nat.sub_add_cancel some_live).symm
    · rw [run]
      rintro _ ⟨⟩
      exact ⟨found, (loses.get? id).trans (if_pos rfl)⟩
    · rw [run]
      exact nofun
    · rw [run]
      exact fun t other => (loses.get? t).trans (if_neg other)

end Roll

open Roll in
/-- A table of any capacity that 32 bits can number, after whatever sequence of new threads, removals
and updates, failed ones included: its parts agree on who its threads are, those created and not
removed; a further thread is created exactly if there are fewer than the capacity; and to create or
remove a thread concerns no other. -/
theorem represents_members {capacity : Nat} (small : capacity ≤ maxCapacity)
    (operations : List Operation) :
    ofCapacity capacity = .ok (opened capacity).table ∧
      Represents capacity ((opened capacity).performAll operations) ∧
      (∀ name priority, Creates capacity ((opened capacity).performAll operations) name priority) ∧
      ∀ id, Removes ((opened capacity).performAll operations) id := by
  have faithful := (faithful_opened small).performAll operations
  exact ⟨if_pos small, faithful.represents, faithful.creates, faithful.removes⟩

/-- The first of two threads holds a lock and cannot be removed; the second can, and makes room. -/
def reuse : List Operation :=
  [.spawn "first" .standard, .spawn "second" .standard, .update (.setHolder ⟨1⟩ ⟨0, 0⟩),
    .remove ⟨0, 0⟩, .remove ⟨1, 0⟩, .spawn "third" .highest]

/-- The third thread has the slot of the second, and a fourth one finds no room. -/
theorem third_fills_gap :
    ((Roll.opened 2).performAll reuse).members = [⟨0, 0⟩, ⟨1, 1⟩] ∧
      ((Roll.opened 2).performAll reuse).table.ids.Perm [⟨0, 0⟩, ⟨1, 1⟩] ∧
      spawn "fourth" .standard ((Roll.opened 2).performAll reuse).table =
        ⟨.ok (.error ⟨2⟩), ((Roll.opened 2).performAll reuse).table, []⟩ := by
  obtain ⟨-, represents, creates, -⟩ := @represents_members 2 (by decide) reuse
  have members : ((Roll.opened 2).performAll reuse).members = [⟨0, 0⟩, ⟨1, 1⟩] := rfl
  refine ⟨members, members ▸ represents.ids_perm, (creates "fourth" .standard).refuses ?_⟩
  rw [members]
  exact Nat.le_refl 2

end KernelSync.ThreadTable
