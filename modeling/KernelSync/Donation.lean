import KernelSync.ThreadTable

/-!
Priority donation. A thread that waits for a lock donates its priority to the holder, so that the
holder is not kept from running by threads of a priority in between. Two things make this more
than one assignment. The holder may itself wait, so a donation follows the chain of waiting
threads to its end. And a thread may hold several locks, so that after the release of one its
priority is recomputed from the donors that remain.
-/

namespace KernelSync.Donation

open ThreadTable

/-! ### Lists in order of priority -/

/-- The priority of a thread for comparison; a stale handle counts as the lowest. -/
def rank (table : ThreadTable) (id : ThreadId) : Priority :=
  match table.get? id with
  | some r => r.priority
  | none => .lowest

/-- The most urgent first, equals in the order they had. -/
def sortedByRank (table : ThreadTable) (list : List ThreadId) : List ThreadId :=
  list.mergeSort fun s t => decide (rank table t ≤ rank table s)

/-- Sorts live threads. A list too short to need sorting is not looked at. -/
def sortByPriority (list : List ThreadId) : Stretch ThreadTable (List ThreadId) := fun table =>
  if list.length < 2 then ⟨.ok list, table, []⟩
  else
    match list.find? fun id => !table.contains id with
    | some id => ⟨.error (.staleHandle id), table, []⟩
    | none => ⟨.ok (sortedByRank table list), table, []⟩

/-- Puts `id` in front of the first member of lower priority than `priority`. -/
def insertAt (priority : Priority) (id : ThreadId) :
    List ThreadId → Stretch ThreadTable (List ThreadId)
  | [] => pure [id]
  | member :: rest => do
      if (← ThreadTable.priority member) < priority then pure (id :: member :: rest)
      else return member :: (← insertAt priority id rest)

/-- Puts `id` behind the members of its own priority. -/
def insertByPriority (id : ThreadId) (list : List ThreadId) :
    Stretch ThreadTable (List ThreadId) := do
  insertAt (← priority id) id list

/-! ### Donor lists

A donor list is taken out of its record while it is worked on. -/

/-- Takes the donors of a thread out of its record. -/
def takeDonors (id : ThreadId) : Stretch ThreadTable (List ThreadId) := do
  let list ← donors id
  setDonors id []
  pure list

/-- Makes `donor` a donor of `holder`, once. -/
def addDonor (holder donor : ThreadId) : Stretch ThreadTable Unit := do
  let list ← takeDonors holder
  setDonors holder (← insertByPriority donor (list.filter (· ≠ donor)))

/-- The members that do not wait for `lock`. -/
def withoutWaiters (lock : LockId) : List ThreadId → Stretch ThreadTable (List ThreadId)
  | [] => pure []
  | donor :: rest => do
      let awaited ← waitingOn donor
      let kept ← withoutWaiters lock rest
      pure (if awaited = some lock then kept else donor :: kept)

/-- Removes the donors that wait for `lock`, and counts them. -/
def removeDonorsFor (holder : ThreadId) (lock : LockId) : Stretch ThreadTable Nat := do
  let list ← takeDonors holder
  let kept ← withoutWaiters lock list
  setDonors holder kept
  pure (list.length - kept.length)

/-- The threads other than `holder` that wait for `lock`, in slot order. -/
def waitersOf (table : ThreadTable) (holder : ThreadId) (lock : LockId) : List ThreadId :=
  (table.entries.filter fun (id, r) => id ≠ holder && r.waitingOn = some lock).map Prod.fst

def addDonors (holder : ThreadId) : List ThreadId → Stretch ThreadTable Unit
  | [] => pure ()
  | donor :: rest => do
      addDonor holder donor
      addDonors holder rest

/-- Makes every other thread that waits for `lock` a donor of `holder`, and counts them. -/
def adoptWaiters (holder : ThreadId) (lock : LockId) : Stretch ThreadTable Nat := do
  let waiters ← Stretch.read (waitersOf · holder lock)
  addDonors holder waiters
  pure waiters.length

/-! ### Effective priorities -/

/-- Walks on from `walker`, which is `hops` hops from `donor`, and raises each holder on the way
to the priority of the thread that waits for it. With no hop `left` the walk stops. -/
def walk (donor : ThreadId) (left : Nat) (walker : ThreadId) (hops : Nat) :
    Stretch ThreadTable Nat := do
  match ← waitingOn walker with
  | none => pure hops
  | some lock =>
      match ← Stretch.read (·.holder? lock) with
      | none =>
          Stretch.log (.holderMissing walker lock hops)
          pure hops
      | some holder =>
          Stretch.require (holder ≠ donor) (.donationCycle donor lock)
          match left with
          | 0 =>
              Stretch.log (.chainRevisits donor walker lock hops)
              pure hops
          | left + 1 =>
              let urgency ← priority walker
              if (← priority holder) < urgency then
                Stretch.log (.donating walker holder lock urgency)
                setPriority holder urgency
              walk donor left holder (hops + 1)

/-- Donates the priority of `donor` along its wait chain, and counts the hops. A chain that does
not revisit a thread has fewer hops than there are live threads. -/
def donate (donor : ThreadId) : Stretch ThreadTable Nat := do
  walk donor (← Stretch.read (·.live)) donor 0

/-- Recomputes the priority of a thread from its base priority and its donors. -/
def updateDonation (id : ThreadId) : Stretch ThreadTable Priority := do
  let list ← sortByPriority (← takeDonors id)
  let base ← basePriority id
  let effective ← match list with
    | top :: _ => do pure (max (← priority top) base)
    | [] => pure base
  setDonors id list
  let before ← priority id
  if before ≠ effective then
    Stretch.log (.restoring id before effective)
  setPriority id effective
  pure effective

/-- Sets the base priority of a thread. Under donation the effective priority follows from it and
from the donors, and is passed on if the thread waits; otherwise it is set along with it. -/
def changeBasePriority (id : ThreadId) (base : Priority) (mode : SchedulingMode) :
    Stretch ThreadTable Priority := do
  setBasePriority id base
  if mode.donates then
    let effective ← updateDonation id
    if (← waitingOn id).isSome then
      let _ ← donate id
    pure effective
  else
    setPriority id base
    pure base

end KernelSync.Donation
