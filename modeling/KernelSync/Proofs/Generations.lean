import KernelSync.Proofs.Arena

/-!
The generations of slots. A slot is issued under one generation after the other, so the generation
of a handle counts the threads that have had the slot before (`Numbered`). Generations are 32 bits
wide: no handle is issued a second time before a slot has gone through all of them.

A `Ledger` is a table that serves demands for new threads and for the end of threads, with the
handles it has issued and those it has taken back. As long as no slot is given up 2³² times, the
handles of a ledger never stand for one another (`handles_never_alias`).
-/

namespace KernelSync.ThreadTable

variable {table table' : ThreadTable} {issued : List ThreadId} {t u id : ThreadId} {r : ThreadRecord}

/-! ### Numbering -/

/-- The next generation of a slot is the number of threads that have had it. Before the generations
start again, each of those has a generation of its own. -/
structure Numbered (table : ThreadTable) (issued : List ThreadId) : Prop where
  next : ∀ slot, table.next slot = UInt32.ofNat (issued.countP (·.slot = slot))
  below : (∀ slot, issued.countP (·.slot = slot) ≤ UInt32.size) →
    ∀ t ∈ issued, t.generation.toNat < issued.countP (·.slot = t.slot)
  nodup : (∀ slot, issued.countP (·.slot = slot) ≤ UInt32.size) → issued.Nodup

theorem numbered_empty (capacity : Nat) : Numbered (empty capacity) [] where
  next := fun _ => rfl
  below := fun _ _ mem => absurd mem List.not_mem_nil
  nodup := fun _ => List.nodup_nil

/-- Only the next generations matter. -/
theorem Numbered.congr (numbered : Numbered table issued)
    (next : ∀ slot, table'.next slot = table.next slot) : Numbered table' issued :=
  { numbered with next := fun slot => (next slot).trans (numbered.next slot) }

theorem countP_slot_concat (issued : List ThreadId) (t : ThreadId) (slot : UInt32) :
    (issued ++ [t]).countP (·.slot = slot) =
      issued.countP (·.slot = slot) + if slot = t.slot then 1 else 0 := by
  rw [List.countP_append, List.countP_singleton]
  by_cases here : slot = t.slot
  · simp [here]
  · simp [here, Ne.symm here]

/-- A new thread has the generation that no thread before it had. -/
theorem Numbered.concat (numbered : Numbered table issued)
    (generation : t.generation = table.next t.slot)
    (next : ∀ slot, table'.next slot =
      if slot = t.slot then table.next slot + 1 else table.next slot) :
    Numbered table' (issued ++ [t]) := by
  have grown := countP_slot_concat issued t
  have own : (issued ++ [t]).countP (·.slot = t.slot) = issued.countP (·.slot = t.slot) + 1 :=
    (grown _).trans (congrArg _ (if_pos rfl))
  have number (few : ∀ slot, (issued ++ [t]).countP (·.slot = slot) ≤ UInt32.size) :
      t.generation.toNat = issued.countP (·.slot = t.slot) := by
    have bound := few t.slot
    rw [generation, numbered.next]
    exact UInt32.toNat_ofNat_of_lt' (by omega)
  have fewer (few : ∀ slot, (issued ++ [t]).countP (·.slot = slot) ≤ UInt32.size) (slot : UInt32) :
      issued.countP (·.slot = slot) ≤ UInt32.size :=
    Nat.le_trans (Nat.le.intro (grown slot).symm) (few slot)
  refine ⟨fun slot => ?_, fun few u mem => ?_, fun few => ?_⟩
  · rw [next, numbered.next, grown]
    split
    · exact (UInt32.ofNat_add _ 1).symm
    · rfl
  · rw [List.mem_append, List.mem_singleton] at mem
    rcases mem with old | rfl
    · have before := numbered.below (fewer few) u old
      exact Nat.lt_of_lt_of_le before (Nat.le.intro (grown u.slot).symm)
    · rw [number few, own]
      exact Nat.lt_succ_self _
  · rw [List.nodup_append]
    refine ⟨numbered.nodup (fewer few), List.pairwise_singleton _ t, fun u old v mem same => ?_⟩
    rw [List.mem_singleton.mp mem] at same
    subst same
    exact Nat.lt_irrefl _ (number few ▸ numbered.below (fewer few) u old)

/-- Live threads have slots of their own. -/
theorem eq_of_slot (first : table.contains t = true) (second : table.contains u = true)
    (same : t.slot = u.slot) : t = u := by
  obtain ⟨r, found⟩ := contains_iff.mp first
  obtain ⟨r', found'⟩ := contains_iff.mp second
  have slots := slot_of_get? found
  rw [same, slot_of_get? found', Option.some.injEq, Slot.mk.injEq] at slots
  cases t
  cases u
  simp_all

/-- The slot in which a thread is created was vacant. -/
theorem Gains.vacant (gains : Gains table id r table') (live : table.contains u = true) :
    u.slot ≠ id.slot := by
  intro same
  have apart : u ≠ id := by
    rintro rfl
    exact Bool.false_ne_true (gains.absent.symm.trans live)
  have stays : table'.contains u = true := by
    unfold contains
    rw [gains.get?, if_neg apart]
    exact live
  have created : table'.contains id = true := contains_of_get? ((gains.get? id).trans (if_pos rfl))
  exact apart (eq_of_slot stays created same)

/-! ### Ledgers -/

/-- What is asked of a table: a new thread, or the end of one. -/
inductive Demand
  | spawn (name : String) (priority : Priority)
  | remove (id : ThreadId)
  deriving DecidableEq

/-- A table with the handles it has issued and those whose threads have been removed, in order. -/
structure Ledger where
  table : ThreadTable
  issued : List ThreadId
  removed : List ThreadId

namespace Ledger

/-- The ledger of a table that has served no demand. -/
def opened (table : ThreadTable) : Ledger := ⟨table, [], []⟩

/-- A demand that ends in a fault leaves what the table was left at. -/
def serve (ledger : Ledger) : Demand → Ledger
  | .spawn name priority =>
      let run := ThreadTable.spawn name priority ledger.table
      match run.outcome with
      | .ok (.ok id) => { ledger with table := run.state, issued := ledger.issued ++ [id] }
      | _ => { ledger with table := run.state }
  | .remove id =>
      let run := ThreadTable.remove id ledger.table
      match run.outcome with
      | .ok _ => { ledger with table := run.state, removed := ledger.removed ++ [id] }
      | .error _ => { ledger with table := run.state }

def serveAll (ledger : Ledger) (demands : List Demand) : Ledger := demands.foldl serve ledger

/-- No slot has been given up 2³² times. -/
def Unworn (ledger : Ledger) : Prop := ∀ slot, ledger.removed.countP (·.slot = slot) < UInt32.size

variable {ledger : Ledger}

/-- What a ledger that only serves demands can say of itself: nobody in it holds or awaits a lock,
its threads are numbered, and a slot was issued as often as it was given up, once more if it is
taken. -/
structure Kept (ledger : Ledger) : Prop where
  arena : Arena ledger.table
  unheld : ledger.table.holdings = []
  idle : ∀ id r, ledger.table.get? id = some r → r.waitingOn = none
  numbered : Numbered ledger.table ledger.issued
  taken : ∀ slot, ledger.issued.countP (·.slot = slot) ≤ ledger.removed.countP (·.slot = slot) + 1
  vacant : ∀ slot, (∀ id, ledger.table.contains id = true → id.slot ≠ slot) →
    ledger.issued.countP (·.slot = slot) ≤ ledger.removed.countP (·.slot = slot)

theorem kept_opened {capacity : Nat} (small : capacity ≤ maxCapacity) :
    Kept (opened (empty capacity)) where
  arena := arena_empty small
  unheld := rfl
  idle := fun _ _ found => nomatch found
  numbered := numbered_empty capacity
  taken := fun _ => Nat.zero_le _
  vacant := fun _ _ => Nat.zero_le _

/-- Without slots that are worn out, all handles that were issued are different. -/
theorem Kept.issued_nodup (kept : Kept ledger) (unworn : Unworn ledger) : ledger.issued.Nodup :=
  kept.numbered.nodup fun slot => Nat.le_trans (kept.taken slot) (unworn slot)

/-- The ways in which a demand can be served. -/
inductive Serves (ledger : Ledger) : Demand → Ledger → Prop
  | full {name : String} {priority : Priority} : Serves ledger (.spawn name priority) ledger
  | issues {name : String} {priority : Priority} {id : ThreadId} {table : ThreadTable}
      (gains : Gains ledger.table id (.fresh name priority) table) :
      Serves ledger (.spawn name priority) ⟨table, ledger.issued ++ [id], ledger.removed⟩
  | misses {id : ThreadId} (stale : ledger.table.get? id = none) : Serves ledger (.remove id) ledger
  | removes {id : ThreadId} {table : ThreadTable} (live : ledger.table.contains id = true)
      (loses : Loses ledger.table id table) :
      Serves ledger (.remove id) ⟨table, ledger.issued, ledger.removed ++ [id]⟩

/-- A new thread is denied only for want of room, and a live one can always be removed. -/
theorem Kept.serves (kept : Kept ledger) (demand : Demand) :
    Serves ledger demand (ledger.serve demand) := by
  cases demand with
  | spawn name priority =>
    by_cases full : ledger.table.capacity ≤ ledger.table.live
    · have same : ledger.serve (.spawn name priority) = ledger := by
        simp [serve, spawn_full full]
      rw [same]
      exact .full
    · obtain ⟨id, table, spawned, gains, -⟩ :=
        spawn_gains kept.arena (Nat.lt_of_not_le full) name priority
      have served : ledger.serve (.spawn name priority) =
          ⟨table, ledger.issued ++ [id], ledger.removed⟩ := by
        simp [serve, spawned]
      rw [served]
      exact .issues gains
  | remove id =>
    cases found : ledger.table.get? id with
    | none =>
      have same : ledger.serve (.remove id) = ledger := by
        simp [serve, ThreadTable.remove, Stretch.bind_run, record_run_of_stale found]
      rw [same]
      exact .misses found
    | some r =>
      have unheld : ledger.table.holdings.heldBy id = [] := by
        rw [kept.unheld]
        rfl
      have served : ledger.serve (.remove id) =
          ⟨ledger.table.vacate id, ledger.issued, ledger.removed ++ [id]⟩ := by
        simp [serve, ThreadTable.remove, Stretch.bind_run, record_run found, unheld,
          kept.idle id r found]
      rw [served]
      exact .removes (contains_of_get? found) (vacate_loses kept.arena found)

/-- Whatever is demanded, a ledger goes on to tell the truth. -/
theorem Kept.serve (kept : Kept ledger) (demand : Demand) : Kept (ledger.serve demand) := by
  have served := kept.serves demand
  generalize ledger.serve demand = after at served ⊢
  cases served with
  | full => exact kept
  | misses stale => exact kept
  | @issues name priority id table gains =>
    have grown := countP_slot_concat ledger.issued id
    refine ⟨gains.arena, gains.holdings.trans kept.unheld, fun other r found => ?_,
      kept.numbered.concat gains.generation gains.next, fun slot => ?_, fun slot empty => ?_⟩
    · rw [gains.get?] at found
      split at found
      · cases found
        rfl
      · exact kept.idle other r found
    · rw [grown]
      split
      · rename_i here
        have few := kept.vacant slot fun u live => here ▸ gains.vacant live
        exact Nat.succ_le_succ few
      · exact kept.taken slot
    · have apart : slot ≠ id.slot := by
        rintro rfl
        exact empty id (contains_of_get? ((gains.get? id).trans (if_pos rfl))) rfl
      rw [grown, if_neg apart]
      refine kept.vacant slot fun u live => empty u ?_
      unfold contains
      rw [gains.get?]
      split
      · rfl
      · exact live
  | @removes id table live loses =>
    have grown := countP_slot_concat ledger.removed id
    refine ⟨loses.arena, loses.holdings.trans kept.unheld, fun other r found => ?_,
      kept.numbered.congr loses.next, fun slot => ?_, fun slot empty => ?_⟩
    · rw [loses.get?] at found
      split at found
      · exact nomatch found
      · exact kept.idle other r found
    · rw [grown]
      exact Nat.le_trans (kept.taken slot) (by omega)
    · rw [grown]
      split
      · exact kept.taken slot
      · rename_i apart
        refine kept.vacant slot fun u held => ?_
        by_cases gone : u = id
        · rw [gone]
          exact Ne.symm apart
        · refine empty u ?_
          unfold contains
          rw [loses.get?, if_neg gone]
          exact held

theorem Kept.serveAll (kept : Kept ledger) (demands : List Demand) :
    Kept (ledger.serveAll demands) := by
  induction demands generalizing ledger with
  | nil => exact kept
  | cons demand rest ih => exact ih (kept.serve demand)

/-- No handle is taken out of a ledger. -/
theorem Kept.issued_prefix (kept : Kept ledger) (demand : Demand) :
    ledger.issued <+: (ledger.serve demand).issued := by
  have served := kept.serves demand
  generalize ledger.serve demand = after at served ⊢
  cases served with
  | full | misses | removes => exact List.prefix_refl _
  | issues => exact List.prefix_append _ _

theorem Kept.issued_prefix_serveAll (kept : Kept ledger) (demands : List Demand) :
    ledger.issued <+: (ledger.serveAll demands).issued := by
  induction demands generalizing ledger with
  | nil => exact List.prefix_refl _
  | cons demand rest ih => exact (kept.issued_prefix demand).trans (ih (kept.serve demand))

/-! ### One handle -/

variable {id : ThreadId}

/-- The handle of a new thread is entered, and found to stand for it. -/
theorem Kept.serve_spawn (kept : Kept ledger) {name : String} {priority : Priority}
    (issues : (ThreadTable.spawn name priority ledger.table).outcome = .ok (.ok id)) :
    id ∈ (ledger.serve (.spawn name priority)).issued ∧
      (ledger.serve (.spawn name priority)).table.get? id = some (.fresh name priority) := by
  rcases run : ThreadTable.spawn name priority ledger.table with ⟨outcome, table, events⟩
  rw [run] at issues
  cases issues
  have served : ledger.serve (.spawn name priority) =
      ⟨table, ledger.issued ++ [id], ledger.removed⟩ := by
    simp [Ledger.serve, run]
  rw [served]
  rcases spawn_eq_ok kept.arena run with ⟨-, full, -⟩ | ⟨id', same, gains⟩
  · exact nomatch full
  · cases same
    exact ⟨List.mem_append_right _ (List.mem_singleton_self id), (gains.get? id).trans (if_pos rfl)⟩

/-- What is found under a handle that was issued changes only when its thread is removed, as long as
the handle is not issued again. -/
theorem Kept.get?_serve (kept : Kept ledger) (mem : id ∈ ledger.issued) (demand : Demand)
    (nodup : (ledger.serve demand).issued.Nodup) :
    (ledger.serve demand).table.get? id =
      if demand = .remove id then none else ledger.table.get? id := by
  have served := kept.serves demand
  generalize ledger.serve demand = after at served nodup ⊢
  cases served with
  | full => rw [if_neg nofun]
  | @issues name priority new table gains =>
    have apart : id ≠ new := by
      rintro rfl
      exact (List.nodup_append.mp nodup).2.2 id mem id (List.mem_singleton_self id) rfl
    rw [if_neg nofun, gains.get?, if_neg apart]
  | @misses other stale =>
    split
    · rename_i same
      cases same
      exact stale
    · rfl
  | @removes other table live loses =>
    rw [loses.get?]
    by_cases same : id = other
    · rw [if_pos same, if_pos (congrArg _ same.symm)]
    · rw [if_neg same, if_neg fun eq => same (Demand.remove.inj eq).symm]

theorem Kept.get?_serveAll (kept : Kept ledger) (mem : id ∈ ledger.issued) (demands : List Demand)
    (nodup : (ledger.serveAll demands).issued.Nodup) :
    (ledger.serveAll demands).table.get? id =
      if .remove id ∈ demands then none else ledger.table.get? id := by
  induction demands generalizing ledger with
  | nil => rw [if_neg List.not_mem_nil]; rfl
  | cons demand rest ih =>
    have kept' := kept.serve demand
    have mem' := (kept.issued_prefix demand).subset mem
    have nodup' := ((kept'.issued_prefix_serveAll rest).sublist).nodup nodup
    have found := ih kept' mem' nodup
    rw [kept.get?_serve mem demand nodup'] at found
    refine found.trans ?_
    by_cases now : demand = .remove id
    · simp [now]
    · simp [now, Ne.symm now]

end Ledger

/-- The handle names the thread with this record: it is found, and can be changed. -/
structure Reaches (table : ThreadTable) (id : ThreadId) (r : ThreadRecord) : Prop where
  get? : table.get? id = some r
  contains : table.contains id = true
  record : record id table = ⟨.ok r, table, []⟩
  amend : ∀ f, amend id f table = ⟨.ok (), table.modify id f, []⟩ ∧
    (table.modify id f).get? id = some (f r)

/-- The handle names nobody: nothing is found, and to insist on it is a fault. -/
structure Misses (table : ThreadTable) (id : ThreadId) : Prop where
  get? : table.get? id = none
  contains : table.contains id = false
  record : record id table = ⟨.error (.staleHandle id), table, []⟩
  amend : ∀ f, amend id f table = ⟨.error (.staleHandle id), table, []⟩ ∧
    (table.modify id f).get? id = none

theorem reaches_of_get? (found : table.get? id = some r) : Reaches table id r where
  get? := found
  contains := contains_of_get? found
  record := record_run found
  amend f := ⟨amend_run found f, by rw [get?_modify, if_pos rfl, found]; rfl⟩

theorem misses_of_get? (stale : table.get? id = none) : Misses table id where
  get? := stale
  contains := by rw [contains, stale]; rfl
  record := record_run_of_stale stale
  amend f := ⟨by simp [ThreadTable.amend, Stretch.bind_run, record_run_of_stale stale],
    by rw [get?_modify, if_pos rfl, stale]; rfl⟩

open Ledger in
/-- Whatever threads are created and removed, in tables of every size: as long as no slot is given
up 2³² times, all handles that are issued are different, and each reaches the record for which it
was issued from then on until its thread is removed, and nothing ever after, whoever has the slot by
then. -/
theorem handles_never_alias {capacity : Nat} {table : ThreadTable}
    (opens : ofCapacity capacity = .ok table) (demands : List Demand)
    (unworn : Unworn ((opened table).serveAll demands)) :
    ((opened table).serveAll demands).issued.Nodup ∧
      ∀ before name priority later rest id,
        demands = before ++ .spawn name priority :: (later ++ rest) →
        (spawn name priority ((opened table).serveAll before).table).outcome = .ok (.ok id) →
        let now := ((opened table).serveAll (before ++ .spawn name priority :: later)).table
        if .remove id ∈ later then Misses now id else Reaches now id (.fresh name priority) := by
  have kept : Kept (opened table) := by
    unfold ofCapacity at opens
    split at opens
    · rename_i small
      cases opens
      exact kept_opened small
    · cases opens
  have nodup := (kept.serveAll demands).issued_nodup unworn
  refine ⟨nodup, ?_⟩
  rintro before name priority later rest id rfl issues now
  have keptBefore := kept.serveAll before
  obtain ⟨mem, found⟩ := keptBefore.serve_spawn issues
  have keptThen := keptBefore.serve (.spawn name priority)
  have here : now =
      ((((opened table).serveAll before).serve (.spawn name priority)).serveAll later).table := by
    simp only [now, serveAll, List.foldl_append, List.foldl_cons]
  have nodupNow : ((((opened table).serveAll before).serve (.spawn name priority)).serveAll
      later).issued.Nodup := by
    refine List.Sublist.nodup ?_ nodup
    have ahead := ((keptThen.serveAll later).issued_prefix_serveAll rest).sublist
    simpa only [serveAll, List.foldl_append, List.foldl_cons] using ahead
  have foundNow := keptThen.get?_serveAll mem later nodupNow
  rw [← here, found] at foundNow
  split
  · rename_i removed
    rw [if_pos removed] at foundNow
    exact misses_of_get? foundNow
  · rename_i kept
    rw [if_neg kept] at foundNow
    exact reaches_of_get? foundNow

/-- In a table with one slot the first thread makes room for the second, whose handle differs. -/
theorem second_tenant_has_own_handle :
    ([⟨0, 0⟩, ⟨0, 1⟩] : List ThreadId).Nodup ∧
      Misses ((Ledger.opened (empty 1)).serveAll
        [.spawn "first" .standard, .remove ⟨0, 0⟩, .spawn "second" .highest]).table ⟨0, 0⟩ ∧
      Reaches ((Ledger.opened (empty 1)).serveAll
        [.spawn "first" .standard, .remove ⟨0, 0⟩, .spawn "second" .highest]).table ⟨0, 1⟩
        (.fresh "second" .highest) := by
  have unworn : ((Ledger.opened (empty 1)).serveAll
      [.spawn "first" .standard, .remove ⟨0, 0⟩, .spawn "second" .highest]).Unworn := by
    intro slot
    have few : ([⟨0, 0⟩] : List ThreadId).countP (·.slot = slot) ≤ 1 := List.countP_le_length
    exact Nat.lt_of_le_of_lt few (by decide)
  obtain ⟨nodup, each⟩ := @handles_never_alias 1 _ rfl _ unworn
  refine ⟨nodup, ?_, ?_⟩
  · exact each [] "first" .standard [.remove ⟨0, 0⟩, .spawn "second" .highest] [] ⟨0, 0⟩ rfl rfl
  · exact each [.spawn "first" .standard, .remove ⟨0, 0⟩] "second" .highest [] [] ⟨0, 1⟩ rfl rfl

end KernelSync.ThreadTable
