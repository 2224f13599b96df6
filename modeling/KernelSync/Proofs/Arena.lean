import KernelSync.Proofs.Records

/-!
The representation of the thread table. Slots, free list and live count say the same thing in three
ways; `Arena` is their agreement, and depends on the shape of the slots alone (`SameShape`). Under
it the entries of a table are exactly its live threads (`mem_entries_iff`), there are as many as the
count says (`length_ids`), and creating or removing a thread concerns the record of that thread
alone (`spawn_eq_ok`, `remove_eq_ok`). A slot is issued under one generation after the other: `next`
is the one that is due.
-/

namespace KernelSync.ThreadTable

variable {table table' : ThreadTable} {id : ThreadId} {r : ThreadRecord}

/-- Slots, free list, live count and capacity agree. -/
structure Arena (table : ThreadTable) : Prop where
  free_nodup : table.free.Nodup
  mem_free_iff : ∀ index : UInt32,
    index ∈ table.free ↔ ∃ generation, table.slots[index.toNat]? = some ⟨generation, none⟩
  length_le : table.slots.length ≤ table.capacity
  capacity_le : table.capacity ≤ maxCapacity
  live_eq : table.live = table.slots.countP (·.record.isSome)

theorem arena_empty {capacity : Nat} (small : capacity ≤ maxCapacity) : Arena (empty capacity) where
  free_nodup := List.nodup_nil
  mem_free_iff := by simp [empty]
  length_le := Nat.zero_le _
  capacity_le := small
  live_eq := rfl

/-- The number of slots fits a slot number. -/
theorem Arena.length_lt (arena : Arena table) : table.slots.length < UInt32.size :=
  calc table.slots.length ≤ table.capacity := arena.length_le
    _ ≤ maxCapacity := arena.capacity_le
    _ < UInt32.size := by decide

theorem toNat_toUInt32 {index : Nat} (small : index < UInt32.size) : index.toUInt32.toNat = index :=
  UInt32.toNat_ofNat_of_lt' small

/-! ### Tables of one shape -/

/-- What the slots are apart from what stands in their records: the generation of each, and whether
it has a record. -/
def shape (table : ThreadTable) : List (UInt32 × Bool) :=
  table.slots.map fun slot => (slot.generation, slot.record.isSome)

/-- The tables differ only in what stands in their records, and in the holders of locks. -/
structure SameShape (before after : ThreadTable) : Prop where
  shape : after.shape = before.shape
  free : after.free = before.free
  capacity : after.capacity = before.capacity
  live : after.live = before.live

theorem SameShape.refl (table : ThreadTable) : SameShape table table := ⟨rfl, rfl, rfl, rfl⟩

theorem SameShape.trans {table'' : ThreadTable} (first : SameShape table table')
    (second : SameShape table' table'') : SameShape table table'' where
  shape := second.shape.trans first.shape
  free := second.free.trans first.free
  capacity := second.capacity.trans first.capacity
  live := second.live.trans first.live

theorem sameShape_modify (id : ThreadId) (f : ThreadRecord → ThreadRecord) :
    SameShape table (table.modify id f) where
  shape := by
    apply List.ext_getElem?
    intro index
    unfold shape ThreadTable.modify
    rw [List.getElem?_map, List.getElem?_map, List.getElem?_modify]
    cases table.slots[index]? with
    | none => rfl
    | some slot =>
      by_cases here : id.slot.toNat = index
      · by_cases gen : slot.generation = id.generation
        · simp [here, gen]
        · simp [here, gen]
      · simp [here]
  free := rfl
  capacity := rfl
  live := rfl

theorem sameShape_holdings (holdings : Holdings) :
    SameShape table { table with holdings } := ⟨rfl, rfl, rfl, rfl⟩

/-- The shape tells which slots are empty. -/
theorem getElem?_shape_empty_iff {index : Nat} {generation : UInt32} :
    table.shape[index]? = some (generation, false) ↔
      table.slots[index]? = some ⟨generation, none⟩ := by
  unfold shape
  rw [List.getElem?_map, Option.map_eq_some_iff]
  constructor
  · rintro ⟨⟨_, record⟩, found, same⟩
    cases record with
    | none => cases same; exact found
    | some r => cases same
  · intro found
    exact ⟨_, found, rfl⟩

theorem countP_shape :
    table.shape.countP (·.2) = table.slots.countP (·.record.isSome) := by
  unfold shape
  rw [List.countP_map]
  rfl

theorem SameShape.length_eq (same : SameShape table table') :
    table'.slots.length = table.slots.length := by
  have lengths := congrArg List.length same.shape
  simp only [ThreadTable.shape, List.length_map] at lengths
  exact lengths

theorem SameShape.arena (same : SameShape table table') (arena : Arena table) : Arena table' where
  free_nodup := same.free ▸ arena.free_nodup
  mem_free_iff := by
    intro index
    rw [same.free, arena.mem_free_iff]
    refine exists_congr fun generation => ?_
    rw [← getElem?_shape_empty_iff, ← getElem?_shape_empty_iff, same.shape]
  length_le := by
    rw [same.length_eq, same.capacity]
    exact arena.length_le
  capacity_le := same.capacity ▸ arena.capacity_le
  live_eq := by rw [same.live, arena.live_eq, ← countP_shape, ← countP_shape, same.shape]

theorem Arena.modify (arena : Arena table) (id : ThreadId) (f : ThreadRecord → ThreadRecord) :
    Arena (table.modify id f) :=
  (sameShape_modify id f).arena arena

/-! ### The generations of a slot -/

/-- The generation under which a slot will be issued next. -/
def next (table : ThreadTable) (slot : UInt32) : UInt32 :=
  match table.shape[slot.toNat]? with
  | some (generation, occupied) => if occupied then generation + 1 else generation
  | none => 0

theorem SameShape.next (same : SameShape table table') (slot : UInt32) :
    table'.next slot = table.next slot := by
  unfold ThreadTable.next
  rw [same.shape]

theorem next_of_slot {slot : UInt32} {generation : UInt32} {record : Option ThreadRecord}
    (found : table.slots[slot.toNat]? = some ⟨generation, record⟩) :
    table.next slot = if record.isSome then generation + 1 else generation := by
  unfold next shape
  rw [List.getElem?_map, found]
  rfl

theorem next_congr {slot : UInt32}
    (same : table'.slots[slot.toNat]? = table.slots[slot.toNat]?) :
    table'.next slot = table.next slot := by
  unfold next shape
  rw [List.getElem?_map, List.getElem?_map, same]

/-- To put something else into one slot matters for the next generation of that slot alone. -/
theorem next_of_set {index : UInt32} {value : Slot} (small : index.toNat < table.slots.length)
    (put : table'.slots = table.slots.set index.toNat value) (slot : UInt32) :
    table'.next slot =
      if slot = index then if value.record.isSome then value.generation + 1 else value.generation
      else table.next slot := by
  split
  · rename_i here
    subst here
    have found : table'.slots[slot.toNat]? = some ⟨value.generation, value.record⟩ := by
      rw [put, List.getElem?_set, if_pos rfl, if_pos small]
    exact next_of_slot found
  · rename_i apart
    have other : index.toNat ≠ slot.toNat := fun same => apart (UInt32.toNat_inj.mp same.symm)
    refine next_congr ?_
    rw [put, List.getElem?_set, if_neg other]

/-! ### Entries -/

/-- The slot of a live thread. -/
theorem slot_of_get? (live : table.get? id = some r) :
    table.slots[id.slot.toNat]? = some ⟨id.generation, some r⟩ := by
  unfold get? at live
  cases hslot : table.slots[id.slot.toNat]? with
  | none => simp [hslot] at live
  | some slot =>
    rw [hslot] at live
    by_cases gen : slot.generation = id.generation
    · simp only [gen, if_true] at live
      rw [← gen, ← live]
    · simp [gen] at live

theorem mem_entries_iff (arena : Arena table) :
    (id, r) ∈ table.entries ↔ table.get? id = some r := by
  have bound := arena.length_lt
  unfold entries
  rw [List.mem_filterMap]
  constructor
  · rintro ⟨⟨slot, index⟩, mem, found⟩
    rw [List.mk_mem_zipIdx_iff_getElem?] at mem
    simp only [Option.map_eq_some_iff, Prod.mk.injEq] at found
    obtain ⟨record, here, rfl, rfl⟩ := found
    obtain ⟨small, -⟩ := List.getElem?_eq_some_iff.mp mem
    have number : index.toUInt32.toNat = index := toNat_toUInt32 (by omega)
    simp [get?, number, mem, here]
  · intro found
    have hslot := slot_of_get? found
    refine ⟨⟨_, id.slot.toNat⟩, List.mk_mem_zipIdx_iff_getElem?.mpr hslot, ?_⟩
    simp

theorem mem_ids_iff (arena : Arena table) : id ∈ table.ids ↔ table.contains id = true := by
  rw [contains_iff, ids, List.mem_map]
  constructor
  · rintro ⟨⟨id', r⟩, mem, rfl⟩
    exact ⟨r, (mem_entries_iff arena).mp mem⟩
  · rintro ⟨r, live⟩
    exact ⟨(id, r), (mem_entries_iff arena).mpr live, rfl⟩

/-- The threads of a table are listed in the order of their slots. -/
theorem pairwise_ids (arena : Arena table) : table.ids.Pairwise fun t u => t.slot < u.slot := by
  have bound := arena.length_lt
  unfold ids entries
  rw [List.pairwise_map, List.pairwise_filterMap, List.pairwise_iff_getElem]
  intro i j hi hj before
  rw [List.length_zipIdx] at hi hj
  rw [List.getElem_zipIdx, List.getElem_zipIdx]
  intro first listed second listed'
  simp only [Option.map_eq_some_iff] at listed listed'
  obtain ⟨_, -, rfl⟩ := listed
  obtain ⟨_, -, rfl⟩ := listed'
  rw [UInt32.lt_iff_toNat_lt, toNat_toUInt32 (by omega), toNat_toUInt32 (by omega)]
  omega

/-- No thread is listed twice. -/
theorem nodup_ids (arena : Arena table) : table.ids.Nodup := by
  refine (pairwise_ids arena).imp fun {t u} before => ?_
  rintro rfl
  exact UInt32.lt_irrefl t.slot before

/-- A slot is free, or that of a live thread. -/
theorem free_or_live (arena : Arena table) {index : UInt32}
    (small : index.toNat < table.slots.length) :
    index ∈ table.free ∨ ∃ id, table.contains id = true ∧ id.slot = index := by
  obtain ⟨⟨generation, held⟩, there⟩ : ∃ slot, table.slots[index.toNat]? = some slot :=
    ⟨_, List.getElem?_eq_getElem small⟩
  cases held with
  | none => exact Or.inl ((arena.mem_free_iff index).mpr ⟨generation, there⟩)
  | some r =>
    refine Or.inr ⟨⟨index, generation⟩, contains_iff.mpr ⟨r, ?_⟩, rfl⟩
    simp [get?, there]

/-- The live count is the number of live threads. -/
theorem length_ids (arena : Arena table) : table.ids.length = table.live := by
  rw [arena.live_eq, ids, List.length_map, entries, List.length_filterMap_eq_countP]
  have counted := List.countP_map (p := fun slot : Slot => slot.record.isSome)
    (f := Prod.fst) (l := table.slots.zipIdx)
  rw [List.zipIdx_map_fst] at counted
  rw [counted]
  apply List.countP_congr
  rintro ⟨slot, index⟩ -
  cases slot.record <;> simp

/-- Different live threads are no more than the live count says. -/
theorem length_le_live (arena : Arena table) {list : List ThreadId} (different : list.Nodup)
    (live : ∀ t ∈ list, table.contains t = true) : list.length ≤ table.live := by
  rw [← length_ids arena]
  exact different.length_le_of_subset fun t mem => (mem_ids_iff arena).mpr (live t mem)

/-! ### Creating threads -/

/-- `after` is `before` with one more thread in it. -/
structure Gains (before : ThreadTable) (id : ThreadId) (r : ThreadRecord) (after : ThreadTable) :
    Prop where
  absent : before.contains id = false
  get? : ∀ other, after.get? other = if other = id then some r else before.get? other
  holdings : after.holdings = before.holdings
  arena : Arena after
  generation : id.generation = before.next id.slot
  next : ∀ slot, after.next slot =
    if slot = id.slot then before.next slot + 1 else before.next slot
  length_le : before.slots.length ≤ after.slots.length

/-- The table with a record in an empty slot. -/
def refilled (table : ThreadTable) (index generation : UInt32) (free : List UInt32)
    (r : ThreadRecord) : ThreadTable :=
  { table with
    slots := table.slots.set index.toNat ⟨generation, some r⟩
    free
    live := table.live + 1 }

/-- The table with a record in a new slot. -/
def extended (table : ThreadTable) (r : ThreadRecord) : ThreadTable :=
  { table with slots := table.slots ++ [⟨0, some r⟩], live := table.live + 1 }

theorem get?_refilled {index generation : UInt32} {free : List UInt32} {other : ThreadId}
    (hslot : table.slots[index.toNat]? = some ⟨generation, none⟩) :
    (refilled table index generation free r).get? other =
      if other = ⟨index, generation⟩ then some r else table.get? other := by
  obtain ⟨small, atIndex⟩ := List.getElem?_eq_some_iff.mp hslot
  unfold get? refilled
  rw [List.getElem?_set]
  by_cases same : other.slot = index
  · subst same
    by_cases gen : other.generation = generation
    · have this : other = ⟨other.slot, generation⟩ := by cases other; simp_all
      rw [if_pos this]
      simp [small, gen]
    · have this : other ≠ ⟨other.slot, generation⟩ := fun eq => gen (congrArg (·.generation) eq)
      rw [if_neg this]
      simp [small, atIndex, Ne.symm gen]
  · have apart : index.toNat ≠ other.slot.toNat := fun eq => same (UInt32.toNat_inj.mp eq.symm)
    have this : other ≠ ⟨index, generation⟩ := fun eq => same (congrArg (·.slot) eq)
    rw [if_neg this]
    simp [apart]

theorem arena_refilled (arena : Arena table) {index generation : UInt32} {free : List UInt32}
    (hfree : table.free = index :: free)
    (hslot : table.slots[index.toNat]? = some ⟨generation, none⟩) :
    Arena (refilled table index generation free r) := by
  have nodup := arena.free_nodup
  rw [hfree] at nodup
  obtain ⟨fresh, nodup⟩ := List.nodup_cons.mp nodup
  obtain ⟨small, atIndex⟩ := List.getElem?_eq_some_iff.mp hslot
  refine ⟨nodup, ?_, by simpa [refilled] using arena.length_le, arena.capacity_le, ?_⟩
  · intro other
    have before := arena.mem_free_iff other
    rw [hfree, List.mem_cons] at before
    unfold refilled
    rw [List.getElem?_set]
    by_cases same : index.toNat = other.toNat
    · have eq : index = other := UInt32.toNat_inj.mp same
      subst eq
      simp [small, fresh]
    · have ne : other ≠ index := fun eq => same (congrArg _ eq.symm)
      simp only [ne, false_or] at before
      simpa [same] using before
  · have counted := List.countP_set (p := fun slot : Slot => slot.record.isSome)
      (a := ⟨generation, some r⟩) small
    unfold refilled
    simp only [counted, atIndex, ← arena.live_eq]
    simp

/-- A slot that was given up is issued again, under the generation it has. -/
theorem refilled_gains (arena : Arena table) {index generation : UInt32} {free : List UInt32}
    (hfree : table.free = index :: free)
    (hslot : table.slots[index.toNat]? = some ⟨generation, none⟩) (r : ThreadRecord) :
    Gains table ⟨index, generation⟩ r (refilled table index generation free r) := by
  obtain ⟨small, -⟩ := List.getElem?_eq_some_iff.mp hslot
  have issues : table.next index = generation := (next_of_slot hslot).trans (if_neg nofun)
  refine ⟨?_, fun other => get?_refilled hslot, rfl, arena_refilled arena hfree hslot,
    issues.symm, fun slot => ?_, Nat.le_of_eq List.length_set.symm⟩
  · simp [contains, get?, hslot]
  · rw [next_of_set small rfl slot]
    split
    · rename_i here
      rw [here, issues]
      rfl
    · rfl

/-- Without a free slot every slot has a record. -/
theorem Arena.live_of_free_nil (arena : Arena table) (hfree : table.free = []) :
    table.live = table.slots.length := by
  rw [arena.live_eq, List.countP_eq_length]
  intro slot mem
  obtain ⟨index, small, rfl⟩ := List.getElem_of_mem mem
  cases hrecord : table.slots[index].record with
  | some r => rfl
  | none =>
    have number : index.toUInt32.toNat = index :=
      toNat_toUInt32 (Nat.lt_trans small arena.length_lt)
    have listed := (arena.mem_free_iff index.toUInt32).mpr
      ⟨table.slots[index].generation, by rw [number, List.getElem?_eq_getElem small, ← hrecord]⟩
    rw [hfree] at listed
    exact absurd listed List.not_mem_nil

section Extended

variable (arena : Arena table)
include arena

theorem get?_extended (other : ThreadId) : (extended table r).get? other =
    if other = ⟨table.slots.length.toUInt32, 0⟩ then some r else table.get? other := by
  have number : table.slots.length.toUInt32.toNat = table.slots.length :=
    toNat_toUInt32 arena.length_lt
  unfold get? extended
  rw [List.getElem?_append]
  by_cases small : other.slot.toNat < table.slots.length
  · have this : other ≠ ⟨table.slots.length.toUInt32, 0⟩ := by
      intro eq
      rw [eq, number] at small
      exact Nat.lt_irrefl _ small
    simp [small, this]
  · by_cases last : other.slot.toNat = table.slots.length
    · have slot : other.slot = table.slots.length.toUInt32 :=
        UInt32.toNat_inj.mp (last.trans number.symm)
      by_cases gen : other.generation = 0
      · have this : other = ⟨table.slots.length.toUInt32, 0⟩ := by cases other; simp_all
        rw [if_pos this]
        simp [last, gen]
      · have this : other ≠ ⟨table.slots.length.toUInt32, 0⟩ := fun eq =>
          gen (congrArg (·.generation) eq)
        rw [if_neg this]
        simp [last, Ne.symm gen]
    · have this : other ≠ ⟨table.slots.length.toUInt32, 0⟩ := fun eq =>
        last ((congrArg (·.slot.toNat) eq).trans number)
      have beyond : 0 < other.slot.toNat - table.slots.length := by omega
      rw [if_neg this]
      simp [small, Nat.ne_of_gt beyond]

theorem next_length : table.next table.slots.length.toUInt32 = 0 := by
  unfold next shape
  rw [toNat_toUInt32 arena.length_lt, List.getElem?_map, List.getElem?_eq_none (Nat.le_refl _)]
  rfl

theorem next_extended (slot : UInt32) : (extended table r).next slot =
    if slot = table.slots.length.toUInt32 then table.next slot + 1 else table.next slot := by
  have number : table.slots.length.toUInt32.toNat = table.slots.length :=
    toNat_toUInt32 arena.length_lt
  split
  · rename_i here
    subst here
    have found : (extended table r).slots[table.slots.length.toUInt32.toNat]? =
        some ⟨0, some r⟩ := by
      rw [number]
      simp [extended]
    rw [next_of_slot found, next_length arena]
    rfl
  · rename_i apart
    have other : slot.toNat ≠ table.slots.length := fun same =>
      apart (UInt32.toNat_inj.mp (same.trans number.symm))
    refine next_congr ?_
    unfold extended
    rw [List.getElem?_append]
    split
    · rfl
    · rename_i beyond
      rw [List.getElem?_eq_none (Nat.le_of_not_lt beyond), List.getElem?_eq_none]
      simp only [List.length_singleton]
      omega

variable (hfree : table.free = []) (room : table.live < table.capacity)
include hfree room

theorem arena_extended : Arena (extended table r) := by
  have full := arena.live_of_free_nil hfree
  refine ⟨arena.free_nodup, ?_, ?_, arena.capacity_le, ?_⟩
  · intro index
    have before := arena.mem_free_iff index
    unfold extended
    simp only [hfree, List.not_mem_nil, false_iff, not_exists] at before ⊢
    intro generation
    rw [List.getElem?_append]
    split
    · exact before generation
    · rw [List.getElem?_singleton]
      split <;> simp
  · unfold extended
    simp only [List.length_append, List.length_singleton]
    omega
  · unfold extended
    simp only [List.countP_append, ← arena.live_eq]
    rfl

/-- If no slot is free, a new one is made at the end. -/
theorem extended_gains (r : ThreadRecord) :
    Gains table ⟨table.slots.length.toUInt32, 0⟩ r (extended table r) := by
  refine ⟨?_, get?_extended arena, rfl, arena_extended arena hfree room, (next_length arena).symm,
    next_extended arena, by simp [extended]⟩
  simp [contains, get?, toNat_toUInt32 arena.length_lt]

end Extended

/-- A record goes into a slot of its own. -/
theorem place_gains (arena : Arena table) (room : table.live < table.capacity)
    (r : ThreadRecord) :
    ∃ id table', place r table = .ok (id, table') ∧ Gains table id r table' := by
  unfold place
  cases hfree : table.free with
  | cons index free =>
    obtain ⟨generation, hslot⟩ := (arena.mem_free_iff index).mp (by simp [hfree])
    simp only [hslot]
    exact ⟨_, _, rfl, refilled_gains arena hfree hslot r⟩
  | nil =>
    have gains := extended_gains arena hfree room r
    unfold extended at gains
    rw [hfree] at gains
    exact ⟨_, _, rfl, gains⟩

/-- A full table answers that it is full, and stays as it is. -/
theorem spawn_full {name : String} {priority : Priority} (full : table.capacity ≤ table.live) :
    spawn name priority table = ⟨.ok (.error ⟨table.capacity⟩), table, []⟩ :=
  if_pos full

/-- As long as there is room, a new thread gets a handle. -/
theorem spawn_gains (arena : Arena table) (room : table.live < table.capacity) (name : String)
    (priority : Priority) :
    ∃ id table', spawn name priority table =
        ⟨.ok (.ok id), table', [.log (.threadAdded id priority)]⟩ ∧
      Gains table id (.fresh name priority) table' ∧ table'.capacity = table.capacity := by
  obtain ⟨id, table', placed, gains⟩ := place_gains arena room (.fresh name priority)
  have spawned : spawn name priority table =
      ⟨.ok (.ok id), table', [.log (.threadAdded id priority)]⟩ := by
    simp [spawn, Nat.not_le_of_lt room, placed]
  refine ⟨id, table', spawned, gains, ?_⟩
  unfold place at placed
  split at placed
  · split at placed
    · cases placed
      rfl
    · cases placed
  · cases placed
    rfl

/-- To create a thread either finds the table full and changes nothing, or adds a fresh record. -/
theorem spawn_eq_ok (arena : Arena table) {name : String} {priority : Priority}
    {result : Except Exhausted ThreadId} {events : List Event}
    (run : spawn name priority table = ⟨.ok result, table', events⟩) :
    (table.capacity ≤ table.live ∧ result = .error ⟨table.capacity⟩ ∧ table' = table) ∨
      ∃ id, result = .ok id ∧ Gains table id (.fresh name priority) table' := by
  by_cases full : table.capacity ≤ table.live
  · rw [spawn_full full] at run
    cases run
    exact Or.inl ⟨full, rfl, rfl⟩
  · obtain ⟨id, after, spawned, gains, -⟩ :=
      spawn_gains arena (Nat.lt_of_not_le full) name priority
    rw [spawned] at run
    cases run
    exact Or.inr ⟨id, rfl, gains⟩

/-! ### Removing threads -/

/-- `after` is `before` without one of its threads. -/
structure Loses (before : ThreadTable) (id : ThreadId) (after : ThreadTable) : Prop where
  get? : ∀ other, after.get? other = if other = id then none else before.get? other
  holdings : after.holdings = before.holdings
  arena : Arena after
  next : ∀ slot, after.next slot = before.next slot
  length_eq : after.slots.length = before.slots.length

/-- To vacate the slot of a live thread is to put the next generation in its place. -/
theorem vacate_slots (live : table.get? id = some r) :
    (table.vacate id).slots = table.slots.set id.slot.toNat ⟨id.generation + 1, none⟩ := by
  obtain ⟨small, atIndex⟩ := List.getElem?_eq_some_iff.mp (slot_of_get? live)
  apply List.ext_getElem?
  intro index
  unfold vacate
  rw [List.getElem?_modify, List.getElem?_set]
  by_cases here : id.slot.toNat = index
  · subst here
    simp [small, atIndex]
  · simp [here]

theorem get?_vacate (live : table.get? id = some r) (other : ThreadId) :
    (table.vacate id).get? other = if other = id then none else table.get? other := by
  have hslot := slot_of_get? live
  obtain ⟨small, -⟩ := List.getElem?_eq_some_iff.mp hslot
  unfold get?
  rw [vacate_slots live, List.getElem?_set]
  by_cases same : id.slot.toNat = other.slot.toNat
  · simp only [same, if_true]
    rw [← same, hslot]
    by_cases here : other = id
    · simp [here, small]
    · have slots : other.slot = id.slot := UInt32.toNat_inj.mp same.symm
      have gens : ¬ id.generation = other.generation := by
        intro eq
        exact here (by cases other; cases id; simp_all)
      simp [here, gens, small]
  · have this : other ≠ id := fun eq => same (by rw [eq])
    simp [same, this]

theorem arena_vacate (arena : Arena table) (live : table.get? id = some r) :
    Arena (table.vacate id) := by
  have hslot := slot_of_get? live
  obtain ⟨small, atIndex⟩ := List.getElem?_eq_some_iff.mp hslot
  have occupied : id.slot ∉ table.free := by
    intro listed
    obtain ⟨generation, empty⟩ := (arena.mem_free_iff id.slot).mp listed
    cases hslot.symm.trans empty
  refine ⟨List.nodup_cons.mpr ⟨occupied, arena.free_nodup⟩, ?_, ?_, arena.capacity_le, ?_⟩
  · intro index
    have before := arena.mem_free_iff index
    rw [vacate_slots live, List.getElem?_set]
    unfold vacate
    simp only [List.mem_cons, before]
    by_cases same : id.slot.toNat = index.toNat
    · have eq : index = id.slot := UInt32.toNat_inj.mp same.symm
      subst eq
      simp [small]
    · have ne : index ≠ id.slot := fun eq => same (by rw [eq])
      simp [same, ne]
  · simpa [vacate] using arena.length_le
  · have counted := List.countP_set (p := fun slot : Slot => slot.record.isSome)
      (a := ⟨id.generation + 1, none⟩) small
    rw [vacate_slots live, counted, atIndex, ← arena.live_eq]
    simp [vacate]

theorem vacate_loses (arena : Arena table) (live : table.get? id = some r) :
    Loses table id (table.vacate id) := by
  have hslot := slot_of_get? live
  obtain ⟨small, -⟩ := List.getElem?_eq_some_iff.mp hslot
  refine ⟨get?_vacate live, rfl, arena_vacate arena live, fun index => ?_,
    List.length_modify ..⟩
  rw [next_of_set small (vacate_slots live) index]
  split
  · rename_i here
    subst here
    rw [next_of_slot hslot]
    rfl
  · rfl

/-- A thread that could be removed held no lock, waited for none, and is the only one gone. -/
theorem remove_eq_ok (arena : Arena table) {events : List Event}
    (run : remove id table = ⟨.ok r, table', events⟩) :
    table.get? id = some r ∧ r.waitingOn = none ∧ table.holdings.heldBy id = [] ∧
      Loses table id table' := by
  cases live : table.get? id with
  | none => simp [remove, Stretch.bind_run, record_run_of_stale live] at run
  | some found =>
    simp only [remove, Stretch.bind_run, Stretch.read_run, record_run live] at run
    cases held : table.holdings.heldBy id with
    | cons lock rest => simp [held] at run
    | nil =>
      cases awaited : found.waitingOn with
      | some lock => simp [held, awaited] at run
      | none =>
        simp only [held, awaited, Stretch.bind_run, Stretch.update_run, Stretch.log,
          Stretch.report_run, Stretch.pure_run, Run.mk.injEq, Except.ok.injEq] at run
        obtain ⟨rfl, rfl, -⟩ := run
        exact ⟨rfl, awaited, rfl, vacate_loses arena live⟩

end KernelSync.ThreadTable
