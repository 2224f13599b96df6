import KernelSync.Stretch

/-!
The thread table: a bounded arena of thread records addressed by handles, and the holder of each
lock. A slot that is given up is issued again, last given up first, under its next generation; so
a handle reaches the record of its own thread or nothing.
-/

namespace KernelSync

/-- The locks that are held, each with its holder, by ascending number. -/
abbrev Holdings := List (LockId × ThreadId)

namespace Holdings

def holder? (holdings : Holdings) (lock : LockId) : Option ThreadId :=
  (holdings.find? fun entry => entry.1 = lock).map Prod.snd

def insert (lock : LockId) (holder : ThreadId) : Holdings → Holdings
  | [] => [(lock, holder)]
  | entry :: rest =>
      if lock = entry.1 then (lock, holder) :: rest
      else if lock.number < entry.1.number then (lock, holder) :: entry :: rest
      else entry :: insert lock holder rest

def erase (lock : LockId) (holdings : Holdings) : Holdings :=
  holdings.filter fun entry => entry.1 ≠ lock

def heldBy (holdings : Holdings) (thread : ThreadId) : List LockId :=
  (holdings.filter fun entry => entry.2 = thread).map Prod.fst

theorem holder?_insert (holdings : Holdings) (lock other : LockId) (holder : ThreadId) :
    (holdings.insert lock holder).holder? other =
      if other = lock then some holder else holdings.holder? other := by
  induction holdings with
  | nil => by_cases h : other = lock <;> simp [insert, holder?, h, eq_comm]
  | cons entry rest ih =>
    unfold holder? at ih ⊢
    by_cases h : other = lock
    · subst h
      simp only [insert]
      split
      · simp
      · split
        · simp
        · rename_i h₁ _
          simpa [Ne.symm h₁] using ih
    · simp only [h, if_false] at ih ⊢
      simp only [insert]
      split
      · rename_i h₁
        simp [← h₁, Ne.symm h]
      · split
        · simp [Ne.symm h]
        · by_cases h₂ : entry.1 = other
          · simp [h₂]
          · simpa [h₂] using ih

theorem holder?_erase (holdings : Holdings) (lock other : LockId) :
    (holdings.erase lock).holder? other =
      if other = lock then none else holdings.holder? other := by
  induction holdings with
  | nil => simp [erase, holder?]
  | cons entry rest ih =>
    unfold holder? erase at *
    by_cases h : entry.1 = lock
    · by_cases h₁ : other = lock
      · simp [h₁]
      · simpa [h, h₁, Ne.symm h₁] using ih
    · by_cases h₁ : entry.1 = other
      · simp [h₁, show other ≠ lock from fun e => h (h₁.trans e)]
      · simpa [h, h₁] using ih

theorem mem_heldBy {holdings : Holdings} {thread : ThreadId} {lock : LockId} :
    lock ∈ holdings.heldBy thread ↔ (lock, thread) ∈ holdings := by
  simp [heldBy]

end Holdings

/-- A slot: the generation for which it is, or will next be, issued, and the record in it. -/
structure Slot where
  generation : UInt32
  record : Option ThreadRecord
  deriving DecidableEq, Repr

/-- The arena of thread records, with the holder of each lock. -/
structure ThreadTable where
  slots : List Slot
  /-- The empty slots, last given up first. -/
  free : List UInt32
  holdings : Holdings
  capacity : Nat
  /-- How many slots have a record. -/
  live : Nat
  deriving DecidableEq, Repr

namespace ThreadTable

/-- The largest number of threads that 32-bit slots can number. -/
def maxCapacity : Nat := 0xFFFFFFFF

def empty (capacity : Nat) : ThreadTable := ⟨[], [], [], capacity, 0⟩

/-- An empty table for `capacity` threads. -/
def ofCapacity (capacity : Nat) : Except Fault ThreadTable :=
  if capacity ≤ maxCapacity then .ok (empty capacity) else .error .tableTooLarge

/-! ### Looking up -/

/-- The record of a thread, if the handle is not stale. -/
def get? (table : ThreadTable) (id : ThreadId) : Option ThreadRecord :=
  match table.slots[id.slot.toNat]? with
  | some slot => if slot.generation = id.generation then slot.record else none
  | none => none

def contains (table : ThreadTable) (id : ThreadId) : Bool := (table.get? id).isSome

/-- The live threads in slot order. -/
def entries (table : ThreadTable) : List (ThreadId × ThreadRecord) :=
  table.slots.zipIdx.filterMap fun (slot, index) =>
    slot.record.map fun record => (⟨index.toUInt32, slot.generation⟩, record)

def ids (table : ThreadTable) : List ThreadId := table.entries.map Prod.fst

def holder? (table : ThreadTable) (lock : LockId) : Option ThreadId :=
  table.holdings.holder? lock

/-- The record of a thread that has to be live. -/
def record (id : ThreadId) : Stretch ThreadTable ThreadRecord := do
  match ← Stretch.read (·.get? id) with
  | some r => pure r
  | none => Stretch.fail (.staleHandle id)

def priority (id : ThreadId) : Stretch ThreadTable Priority := do return (← record id).priority

def basePriority (id : ThreadId) : Stretch ThreadTable Priority := do
  return (← record id).basePriority

def waitingOn (id : ThreadId) : Stretch ThreadTable (Option LockId) := do
  return (← record id).waitingOn

def donors (id : ThreadId) : Stretch ThreadTable (List ThreadId) := do return (← record id).donors

theorem record_run {table : ThreadTable} {id : ThreadId} {r : ThreadRecord}
    (h : table.get? id = some r) : record id table = ⟨.ok r, table, []⟩ := by
  simp [record, Stretch.bind_run, h]

theorem record_run_of_stale {table : ThreadTable} {id : ThreadId} (h : table.get? id = none) :
    record id table = ⟨.error (.staleHandle id), table, []⟩ := by
  simp [record, Stretch.bind_run, h]

theorem priority_run {table : ThreadTable} {id : ThreadId} {r : ThreadRecord}
    (h : table.get? id = some r) : priority id table = ⟨.ok r.priority, table, []⟩ := by
  simp [priority, Stretch.bind_run, record_run h]

/-! ### Changing records -/

/-- Puts `f record` in place of the record of `id`; a stale handle changes nothing. -/
def modify (table : ThreadTable) (id : ThreadId) (f : ThreadRecord → ThreadRecord) : ThreadTable :=
  { table with
    slots := table.slots.modify id.slot.toNat fun slot =>
      if slot.generation = id.generation then { slot with record := slot.record.map f } else slot }

/-- Changes the record of a thread that has to be live. -/
def amend (id : ThreadId) (f : ThreadRecord → ThreadRecord) : Stretch ThreadTable Unit := do
  let _ ← record id
  Stretch.update (·.modify id f)

theorem get?_modify (table : ThreadTable) (id other : ThreadId) (f : ThreadRecord → ThreadRecord) :
    (table.modify id f).get? other =
      if other = id then (table.get? id).map f else table.get? other := by
  unfold modify get?
  by_cases h : other.slot.toNat = id.slot.toNat
  · have hs : other.slot = id.slot := UInt32.toNat_inj.1 h
    simp only [List.getElem?_modify, h, if_true]
    cases hg : table.slots[id.slot.toNat]? with
    | none => simp
    | some slot =>
      by_cases hi : slot.generation = id.generation
      · by_cases ho : other.generation = id.generation
        · have : other = id := by cases other; cases id; simp_all
          simp [hi, this]
        · have : other ≠ id := fun e => ho (e ▸ rfl)
          simp [hi, Ne.symm ho, this]
      · by_cases ho : other = id
        · simp [hi, ho]
        · simp [hi, ho]
  · have : other ≠ id := fun e => h (e ▸ rfl)
    simp [this, Ne.symm h]

theorem amend_run {table : ThreadTable} {id : ThreadId} {r : ThreadRecord}
    (h : table.get? id = some r) (f : ThreadRecord → ThreadRecord) :
    amend id f table = ⟨.ok (), table.modify id f, []⟩ := by
  simp [amend, Stretch.bind_run, record_run h]

def setPriority (id : ThreadId) (priority : Priority) : Stretch ThreadTable Unit :=
  amend id ({ · with priority })

def setBasePriority (id : ThreadId) (basePriority : Priority) : Stretch ThreadTable Unit :=
  amend id ({ · with basePriority })

def setWaitingOn (id : ThreadId) (waitingOn : Option LockId) : Stretch ThreadTable Unit :=
  amend id ({ · with waitingOn })

def setDonors (id : ThreadId) (donors : List ThreadId) : Stretch ThreadTable Unit :=
  amend id ({ · with donors })

/-- Records the holder of a lock that has to be free. -/
def setHolder (lock : LockId) (holder : ThreadId) : Stretch ThreadTable Unit := do
  let before ← Stretch.read (·.holder? lock)
  Stretch.update fun table => { table with holdings := table.holdings.insert lock holder }
  match before with
  | none => pure ()
  | some other => Stretch.fail (.handedWhileHeld lock holder other)

def clearHolder (lock : LockId) : Stretch ThreadTable Unit :=
  Stretch.update fun table => { table with holdings := table.holdings.erase lock }

/-! ### Adding and removing threads -/

/-- Puts a record into the slot given up last, or else into a new slot at the end. -/
def place (record : ThreadRecord) (table : ThreadTable) :
    Except Fault (ThreadId × ThreadTable) :=
  match table.free with
  | index :: free =>
      match table.slots[index.toNat]? with
      | some ⟨generation, none⟩ =>
          .ok (⟨index, generation⟩,
            { table with
              slots := table.slots.set index.toNat ⟨generation, some record⟩
              free
              live := table.live + 1 })
      | _ => .error (.freeSlotOccupied index)
  | [] =>
      .ok (⟨table.slots.length.toUInt32, 0⟩,
        { table with
          slots := table.slots ++ [⟨0, some record⟩]
          live := table.live + 1 })

/-- Creates a thread, unless the table is full. -/
def spawn (name : String) (priority : Priority) :
    Stretch ThreadTable (Except Exhausted ThreadId) := fun table =>
  if table.capacity ≤ table.live then ⟨.ok (.error ⟨table.capacity⟩), table, []⟩
  else
    match place (.fresh name priority) table with
    | .ok (id, table) => ⟨.ok (.ok id), table, [.log (.threadAdded id priority)]⟩
    | .error fault => ⟨.error fault, table, []⟩

/-- Empties the slot of `id` and gives it up for its next generation. -/
def vacate (table : ThreadTable) (id : ThreadId) : ThreadTable :=
  { table with
    slots := table.slots.modify id.slot.toNat fun slot => ⟨slot.generation + 1, none⟩
    free := id.slot :: table.free
    live := table.live - 1 }

/-- Removes a thread, which may hold no lock and wait for none, and returns its record. -/
def remove (id : ThreadId) : Stretch ThreadTable ThreadRecord := do
  let held ← Stretch.read (·.holdings.heldBy id)
  let r ← record id
  match held, r.waitingOn with
  | lock :: _, _ => Stretch.fail (.exitHolding id r.name lock)
  | [], some lock => Stretch.fail (.exitWaiting id r.name lock)
  | [], none =>
      Stretch.update (·.vacate id)
      Stretch.log (.threadRemoved id)
      pure r

end ThreadTable

end KernelSync
