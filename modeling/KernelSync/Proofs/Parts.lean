import KernelSync.Proofs.ShortCalls

/-!
What computations are made of. Many a property of computations passes from the parts to the whole,
so that it is enough to know of the smallest parts that they have it. `Tabular` says so of a property
of computations on the thread table, `Tries` of one that calls without a wait may have, and `Conveys`
of one that stretches of longer calls may have. The one way through the text of the primitives is
gone here, for all these properties. Where a property also passes to accesses, the primitives on
semaphores and condition variables have it too (`Composes.conveys`).
-/

namespace KernelSync

open Stretch Kernel Donation

variable {α β : Type}

/-! ### On the thread table -/

/-- The property passes along sequences and holds of the steps that the primitives take on a thread
table. Priorities are written under donation alone. The property may ask for more of faults, and of
the report that a donation was stopped by its bound. -/
structure Tabular (T : {α : Type} → Stretch ThreadTable α → Prop) (may : Fault → Prop)
    (donates : Bool) : Prop where
  inspects {α : Type} {x : Stretch ThreadTable α} : Inspects x → T x
  bind {α β : Type} {x : Stretch ThreadTable α} {f : α → Stretch ThreadTable β} :
    T x → (∀ a, T (f a)) → T (x >>= f)
  fail {α : Type} {fault : Fault} : may fault → T (Stretch.fail fault : Stretch ThreadTable α)
  log {entry : LogEntry} : ¬ Revisits (.log entry) → T (Stretch.log entry)
  setDonors (id : ThreadId) (list : List ThreadId) : T (ThreadTable.setDonors id list)
  setWaitingOn (id : ThreadId) (lock : Option LockId) : T (ThreadTable.setWaitingOn id lock)
  setPriority (id : ThreadId) (priority : Priority) :
    donates = true → T (ThreadTable.setPriority id priority)
  holdings (f : Holdings → Holdings) :
    T (update fun table => { table with holdings := f table.holdings })

namespace Tabular

open ThreadTable

variable {T : {α : Type} → Stretch ThreadTable α → Prop} {may : Fault → Prop} {donates : Bool}
  {id me holder donor : ThreadId} {lock : LockId} {list : List ThreadId}
  (tabular : Tabular T may donates)
include tabular

theorem value (a : α) : T (Pure.pure a) := tabular.inspects (inspects_pure a)

theorem require {condition : Prop} [Decidable condition] {fault : Fault} (allowed : may fault) :
    T (Stretch.require condition fault) := by
  unfold Stretch.require
  split
  · exact tabular.value ()
  · exact tabular.fail allowed

theorem takeDonors : T (Donation.takeDonors id) :=
  tabular.bind (tabular.inspects inspects_donors) fun _ =>
    tabular.bind (tabular.setDonors _ _) fun _ => tabular.value _

theorem addDonor : T (Donation.addDonor holder donor) :=
  tabular.bind tabular.takeDonors fun _ =>
    tabular.bind (tabular.inspects inspects_insertByPriority) fun _ => tabular.setDonors _ _

theorem removeDonorsFor : T (Donation.removeDonorsFor holder lock) :=
  tabular.bind tabular.takeDonors fun _ =>
    tabular.bind (tabular.inspects inspects_withoutWaiters) fun _ =>
      tabular.bind (tabular.setDonors _ _) fun _ => tabular.value _

theorem addDonors : T (Donation.addDonors holder list) := by
  induction list with
  | nil => exact tabular.value ()
  | cons donor rest ih => exact tabular.bind tabular.addDonor fun _ => ih

theorem adoptWaiters : T (Donation.adoptWaiters holder lock) :=
  tabular.bind (tabular.inspects (inspects_read _)) fun _ =>
    tabular.bind tabular.addDonors fun _ => tabular.value _

section Donating

variable (donating : donates = true)
include donating

theorem updateDonation : T (Donation.updateDonation id) := by
  unfold Donation.updateDonation
  refine tabular.bind tabular.takeDonors fun taken =>
    tabular.bind (tabular.inspects inspects_sortByPriority) fun list =>
      tabular.bind (tabular.inspects inspects_basePriority) fun base => ?_
  have finish : ∀ effective, T (do
      ThreadTable.setDonors id list
      let before ← priority id
      if before ≠ effective then
        Stretch.log (.restoring id before effective)
      ThreadTable.setPriority id effective
      Pure.pure effective) := by
    refine fun effective => tabular.bind (tabular.setDonors _ _) fun _ =>
      tabular.bind (tabular.inspects inspects_priority) fun before => ?_
    have sets : T (do ThreadTable.setPriority id effective; Pure.pure effective) :=
      tabular.bind (tabular.setPriority _ _ donating) fun _ => tabular.value effective
    split
    · exact tabular.bind (tabular.log (by simp [Revisits])) fun _ => sets
    · exact sets
  cases list with
  | nil => exact tabular.bind (tabular.value _) finish
  | cons top rest =>
    exact tabular.bind (tabular.inspects inspects_priority) fun _ =>
      tabular.bind (tabular.value _) finish

variable (cycle : ∀ donor lock, may (.donationCycle donor lock))
  (entries : ∀ entry, T (Stretch.log entry))
include cycle entries

theorem walk {left hops : Nat} {walker : ThreadId} : T (Donation.walk donor left walker hops) := by
  induction left generalizing walker hops with
  | zero =>
    unfold Donation.walk
    refine tabular.bind (tabular.inspects inspects_waitingOn) fun awaited => ?_
    cases awaited with
    | none => exact tabular.value _
    | some lock =>
      refine tabular.bind (tabular.inspects (inspects_read _)) fun held => ?_
      cases held with
      | none => exact tabular.bind (entries _) fun _ => tabular.value _
      | some holder =>
        exact tabular.bind (tabular.require (cycle _ _)) fun _ =>
          tabular.bind (entries _) fun _ => tabular.value _
  | succ left ih =>
    unfold Donation.walk
    refine tabular.bind (tabular.inspects inspects_waitingOn) fun awaited => ?_
    cases awaited with
    | none => exact tabular.value _
    | some lock =>
      refine tabular.bind (tabular.inspects (inspects_read _)) fun held => ?_
      cases held with
      | none => exact tabular.bind (entries _) fun _ => tabular.value _
      | some holder =>
        refine tabular.bind (tabular.require (cycle _ _)) fun _ =>
          tabular.bind (tabular.inspects inspects_priority) fun urgency =>
            tabular.bind (tabular.inspects inspects_priority) fun rank => ?_
        split
        · exact tabular.bind (entries _) fun _ =>
            tabular.bind (tabular.setPriority _ _ donating) fun _ => ih
        · exact ih

theorem donate : T (Donation.donate donor) :=
  tabular.bind (tabular.inspects (inspects_read _)) fun _ => tabular.walk donating cycle entries

end Donating

/-- A base priority that may be written may be changed, if the effective one may follow it. -/
theorem changeBase {base : Priority} {mode : SchedulingMode} (same : mode.donates = donates)
    (writes : T (setBasePriority id base))
    (follows : donates = false → T (ThreadTable.setPriority id base))
    (cycle : donates = true → ∀ donor lock, may (.donationCycle donor lock))
    (entries : donates = true → ∀ entry, T (Stretch.log entry)) :
    T (changeBasePriority id base mode) := by
  unfold changeBasePriority
  refine tabular.bind writes fun _ => ?_
  rw [same]
  split
  · rename_i donating
    refine tabular.bind (tabular.updateDonation donating) fun effective =>
      tabular.bind (tabular.inspects inspects_waitingOn) fun awaited => ?_
    split
    · exact tabular.bind (tabular.donate donating (cycle donating) (entries donating)) fun _ =>
        tabular.value effective
    · exact tabular.value effective
  · rename_i plain
    exact tabular.bind (follows (Bool.eq_false_iff.mpr plain)) fun _ => tabular.value base

section Register

variable (cycle : donates = true → ∀ donor lock, may (.donationCycle donor lock))
  (entries : donates = true → ∀ entry, T (Stretch.log entry))
include cycle entries

/-- What registers the caller with a holder. -/
theorem enroll (me holder : ThreadId) (lock : LockId) : T (do
    ThreadTable.setWaitingOn me (some lock)
    Donation.addDonor holder me
    if donates then
      let hops ← Donation.donate me
      Stretch.log (.donated me holder lock hops)) := by
  refine tabular.bind (tabular.setWaitingOn _ _) fun _ => tabular.bind tabular.addDonor fun _ => ?_
  split
  · rename_i donating
    exact tabular.bind (tabular.donate donating (cycle donating) (entries donating)) fun _ =>
      entries donating _
  · exact tabular.value ()

theorem register (reacquired : may (.reacquired me lock)) : T (Lock.register lock me donates) := by
  unfold Lock.register
  refine tabular.bind (tabular.inspects (inspects_read _)) fun held => ?_
  cases held with
  | none => exact tabular.value ()
  | some holder =>
    exact tabular.bind (tabular.require reacquired) fun _ =>
      tabular.enroll cycle entries me holder lock

end Register

theorem setHolder (handed : ∀ other, may (.handedWhileHeld lock me other)) :
    T (ThreadTable.setHolder lock me) := by
  unfold ThreadTable.setHolder
  refine tabular.bind (tabular.inspects (inspects_read _)) fun before =>
    tabular.bind (tabular.holdings _) fun _ => ?_
  cases before with
  | none => exact tabular.value ()
  | some other => exact tabular.fail (handed other)

theorem takeOwnership (handed : ∀ other, may (.handedWhileHeld lock me other)) :
    T (Lock.takeOwnership lock me donates) := by
  unfold Lock.takeOwnership
  refine tabular.bind (tabular.setHolder handed) fun _ =>
    tabular.bind tabular.adoptWaiters fun adopted => ?_
  split
  · rename_i adopts
    exact tabular.bind (tabular.updateDonation adopts.2) fun _ =>
      tabular.log (by simp [Revisits])
  · exact tabular.value ()

theorem claim (handed : ∀ other, may (.handedWhileHeld lock me other)) :
    T (Lock.claim lock me donates) :=
  tabular.bind (tabular.setWaitingOn _ _) fun _ => tabular.takeOwnership handed

/-- What the holder of a lock does to give it up. -/
theorem withdraw : T (do
    let withdrawn ← Donation.removeDonorsFor me lock
    if donates then
      let priority ← Donation.updateDonation me
      Stretch.log (.donationsWithdrawn me lock withdrawn priority)
    clearHolder lock) := by
  refine tabular.bind tabular.removeDonorsFor fun withdrawn => ?_
  split
  · rename_i donating
    exact tabular.bind (tabular.updateDonation donating) fun _ =>
      tabular.bind (tabular.log (by simp [Revisits])) fun _ => tabular.holdings _
  · exact tabular.holdings _

theorem giveUp (notHeld : ∀ other, may (.notReleasable me lock other)) :
    T (Lock.giveUp lock me donates) :=
  tabular.bind (tabular.inspects (inspects_read _)) fun _ =>
    tabular.bind (tabular.require (notHeld _)) fun _ => tabular.withdraw

end Tabular

/-! ### On the kernel -/

namespace Kernel

section Cells

variable {cells : List (Cell β)} {i j : Nat} {other : Cell β}

theorem getD_modify_of_ne {f : Cell β → Cell β} (apart : i ≠ j) :
    (cells.modify i f).getD j other = cells.getD j other := by
  simp [List.getD, apart]

theorem busy_getD_modify_value {value : β} :
    ((cells.modify i ({ · with value })).getD j other).busy = (cells.getD j other).busy := by
  by_cases here : i = j
  · subst here
    rw [List.getD_eq_getElem?_getD, List.getD_eq_getElem?_getD, List.getElem?_modify]
    cases cells[i]? with
    | none => rfl
    | some cell => simp
  · rw [getD_modify_of_ne here]

end Cells

/-- The change touches no flag of a cell, and does the same at every depth. -/
structure Writes (f : Kernel → Kernel) : Prop where
  depth : ∀ (k : Kernel) depth, f { k with depth } = { f k with depth }
  busy : ∀ (k : Kernel) cell, (f k).busy cell = k.busy cell

/-- What does the same at every depth leaves the depth. -/
theorem Writes.depth_eq {f : Kernel → Kernel} (writes : Writes f) (k : Kernel) :
    (f k).depth = k.depth :=
  calc (f k).depth = (f { k with depth := k.depth }).depth := rfl
    _ = k.depth := by rw [writes.depth]

theorem writes_setSemaphore (s : SemaphoreId) (value : Semaphore) :
    Writes (·.setSemaphore s value) where
  depth _ _ := rfl
  busy k cell := by
    cases cell with
    | semaphore t => exact busy_getD_modify_value
    | threads | condvar | data => rfl

theorem writes_setWaiters (c : CondvarId) {list : Kernel → List Waiter}
    (blind : ∀ (k : Kernel) depth, list { k with depth } = list k) :
    Writes fun k => k.setWaiters c (list k) where
  depth k depth := by
    show ({ k with depth } : Kernel).setWaiters c (list { k with depth }) = _
    rw [blind]
    rfl
  busy k cell := by
    cases cell with
    | condvar d => exact busy_getD_modify_value
    | threads | semaphore | data => rfl

/-- A new semaphore is not being accessed. -/
theorem writes_addSemaphore (count : Nat) : Writes (·.addSemaphore count) where
  depth _ _ := rfl
  busy k cell := by
    cases cell with
    | semaphore s =>
      simp only [busy, semaphoreCell, addSemaphore, List.getD_eq_getElem?_getD,
        List.getElem?_append]
      split
      · rfl
      · rename_i beyond
        rw [List.getElem?_singleton, List.getElem?_eq_none (Nat.le_of_not_lt beyond)]
        split
        · rfl
        · rfl
    | threads | condvar | data => rfl

end Kernel

/-- The property passes along sequences on the kernel. -/
structure Passes (P : {α : Type} → Stretch Kernel α → Prop) (may : Fault → Prop) : Prop where
  value {α : Type} (a : α) : P (Pure.pure a : Stretch Kernel α)
  bind {α β : Type} {x : Stretch Kernel α} {f : α → Stretch Kernel β} :
    P x → (∀ a, P (f a)) → P (x >>= f)
  read {α : Type} {f : Kernel → α} : (∀ (k : Kernel) depth, f { k with depth } = f k) →
    P (Stretch.read f)
  require {condition : Prop} [Decidable condition] {fault : Fault} : may fault →
    P (Stretch.require condition fault)
  log {entry : LogEntry} : ¬ Revisits (.log entry) → P (Stretch.log entry)

/-- The property also passes to accesses, and holds of changes of values and of looks at the thread
table. -/
structure Composes (P : {α : Type} → Stretch Kernel α → Prop) (may : Fault → Prop) : Prop
    extends Passes P may where
  update {f : Kernel → Kernel} : Writes f → P (Stretch.update f)
  accessing {α : Type} {cell : CellId} {body : Stretch Kernel α} : P body →
    P (Kernel.accessing cell body)
  inspects {α : Type} {body : Stretch ThreadTable α} : Inspects body → P (withThreads body)

/-- The property holds of what calls without a wait are made of. The mode is one of `modes` wherever
the property matters. -/
structure Tries (P : {α : Type} → Stretch Kernel α → Prop) (may : Fault → Prop)
    (modes : Bool → Prop) : Prop extends Passes P may where
  byMode {α : Type} {f : Bool → Stretch Kernel α} : (∀ donates, modes donates → P (f donates)) →
    P (Stretch.read (·.mode.donates) >>= f)
  looks {α : Type} (f : ThreadTable → α) : P (withThreads (Stretch.read f))
  tryDown (s : SemaphoreId) : P (Semaphore.tryDown s)

/-- The property holds of what stretches of longer calls are made of, and `Q`, its like, of those that
end in the progress of a call. -/
structure Conveys (P : {α : Type} → Stretch Kernel α → Prop) (Q : Stretch Kernel Progress → Prop)
    (may : Fault → Prop) (modes : Bool → Prop) : Prop extends Tries P may modes where
  ends {progress : Progress} : (∀ saved, Frame.leave saved ∉ progress.frames) →
    Q (Pure.pure progress)
  goesOn {α : Type} {x : Stretch Kernel α} {f : α → Stretch Kernel Progress} : P x →
    (∀ a, Q (f a)) → Q (x >>= f)
  goesOnByMode {f : Bool → Stretch Kernel Progress} :
    (∀ donates, modes donates → Q (f donates)) → Q (Stretch.read (·.mode.donates) >>= f)
  downOrQueue (me : ThreadId) (s : SemaphoreId) : P (Semaphore.downOrQueue me s)
  release (s : SemaphoreId) : may .countOverflow → P (Semaphore.release s)
  register (me : ThreadId) (c : CondvarId) (lock : LockId) :
    (∀ holder, may (.lockNotHeld .wait me lock holder)) → P (Condvar.register me c lock)
  takeMostUrgent (c : CondvarId) : P (Condvar.takeMostUrgent c)

section Primitives

variable {P : {α : Type} → Stretch Kernel α → Prop} {may : Fault → Prop} {me : ThreadId}
  {lock : LockId}

theorem Passes.requireCanWait {call : WaitingCall} (passes : Passes P may)
    (allowed : may (.waitsInInterrupt call)) : P (requireCanWait call) :=
  passes.bind (passes.read fun _ _ => rfl) fun _ => passes.require allowed

theorem Passes.requireHolds {call : CondvarCall} (passes : Passes P may)
    (looks : P (withThreads (Stretch.read (·.holder? lock))))
    (allowed : ∀ holder, may (.lockNotHeld call me lock holder)) :
    P (Condvar.requireHolds call me lock) :=
  passes.bind looks fun _ => passes.require (allowed _)

namespace Composes

variable (composes : Composes P may)
include composes

theorem tryDown (s : SemaphoreId) : P (Semaphore.tryDown s) := by
  refine composes.accessing (composes.bind (composes.read fun _ _ => rfl) fun state => ?_)
  split
  · exact composes.bind (composes.update (writes_setSemaphore _ _)) fun _ => composes.value true
  · exact composes.value false

theorem downOrQueue (s : SemaphoreId) : P (Semaphore.downOrQueue me s) := by
  refine composes.accessing (composes.bind (composes.read fun _ _ => rfl) fun state => ?_)
  split
  · exact composes.bind (composes.update (writes_setSemaphore _ _)) fun _ => composes.value true
  · exact composes.bind (composes.inspects inspects_insertByPriority) fun _ =>
      composes.bind (composes.update (writes_setSemaphore _ _)) fun _ => composes.value false

theorem release (s : SemaphoreId) (allowed : may .countOverflow) : P (Semaphore.release s) := by
  refine composes.accessing (composes.bind (composes.read fun _ _ => rfl) fun state =>
    composes.bind (composes.require allowed) fun _ =>
      composes.bind (composes.update (writes_setSemaphore _ _)) fun _ => ?_)
  split
  · exact composes.value none
  · refine composes.bind (composes.inspects inspects_sortByPriority) fun sorted => ?_
    cases sorted with
    | nil => exact composes.value none
    | cons woken waiters =>
      exact composes.bind (composes.update (writes_setSemaphore _ _)) fun _ => composes.value _

theorem register (c : CondvarId) (allowed : ∀ holder, may (.lockNotHeld .wait me lock holder)) :
    P (Condvar.register me c lock) := by
  refine composes.bind (composes.requireHolds (composes.inspects (inspects_read _)) allowed)
    fun _ => composes.bind (composes.read fun _ _ => rfl) fun s =>
      composes.bind (composes.update (writes_addSemaphore _)) fun _ => ?_
  exact composes.bind (composes.accessing (composes.update (writes_setWaiters c fun _ _ => rfl)))
    fun _ => composes.value s

theorem takeMostUrgent (c : CondvarId) : P (Condvar.takeMostUrgent c) := by
  refine composes.accessing (composes.bind (composes.read fun _ _ => rfl) fun list =>
    composes.bind (composes.inspects (Condvar.inspects_sortByPriority _)) fun sorted => ?_)
  cases sorted with
  | nil => exact composes.value none
  | cons first rest =>
    exact composes.bind (composes.update (writes_setWaiters c fun _ _ => rfl)) fun _ =>
      composes.value _

theorem conveys {Q : Stretch Kernel Progress → Prop}
    (ends : ∀ {progress : Progress}, (∀ saved, Frame.leave saved ∉ progress.frames) →
      Q (Pure.pure progress))
    (goesOn : ∀ {α : Type} {x : Stretch Kernel α} {f : α → Stretch Kernel Progress}, P x →
      (∀ a, Q (f a)) → Q (x >>= f)) : Conveys P Q may fun _ => True where
  toPasses := composes.toPasses
  byMode next := composes.bind (composes.read fun _ _ => rfl) fun donates => next donates trivial
  ends := ends
  goesOn := goesOn
  goesOnByMode next := goesOn (composes.read fun _ _ => rfl) fun donates => next donates trivial
  looks _ := composes.inspects (inspects_read _)
  tryDown := composes.tryDown
  downOrQueue _ := composes.downOrQueue
  release := composes.release
  register _ c _ := composes.register c
  takeMostUrgent := composes.takeMostUrgent

end Composes

end Primitives

/-! ### Stretches -/

/-- What follows when the caller has registered for a lock. -/
def Frame.takeOrQueue (me : ThreadId) (lock : Lock) (donates : Bool) : Stretch Kernel Progress := do
  if ← Semaphore.downOrQueue me lock.semaphore then
    withThreads (Lock.claim lock.id me donates)
    Stretch.log (.acquired me lock.id)
    return ⟨[], .proceed⟩
  else
    Stretch.log (.downBlocks me)
    return ⟨[.acquireQueued lock], .block⟩

/-- What a property must grant besides, to hold of the stretch from a place. The places where
sections begin and end are left out. -/
def Frame.Admits (P : {α : Type} → Stretch Kernel α → Prop) (may : Fault → Prop)
    (modes : Bool → Prop) (me : ThreadId) : Frame → Prop
  | .call _ | .leave _ => False
  | .acquire lock => ∀ donates, modes donates →
      P (withThreads (Lock.register lock.id me donates)) ∧
        P (withThreads (Lock.claim lock.id me donates))
  | .giveUp lock => ∀ donates, modes donates → P (withThreads (Lock.giveUp lock.id me donates))
  | .up _ => may .countOverflow
  | .claim purpose lock => ∀ holder, may (.lockNotHeld purpose me lock.id holder)
  | .down _ | .downQueued _ | .acquireQueued _ | .check | .signal _ | .broadcast _ | .signaled _ =>
      True

/-- What a call does before it enters its section. -/
def Call.guard : Call → Stretch Kernel Unit
  | .down _ => requireCanWait .down
  | .acquire _ => requireCanWait .acquire
  | _ => Pure.pure ()

/-- A call that is not refused enters its section. -/
theorem Frame.begin_of_opening {me : ThreadId} {call : Call} {frames : List Frame}
    (opening : call.opening = some frames) : Frame.begin me call = (do
      call.guard
      return ⟨frames ++ [.leave (← enter)], .proceed⟩) := by
  cases call with
  | wait => cases opening
  | down | up | acquire | release | signal | broadcast =>
    cases opening
    rfl

namespace Conveys

variable {P : {α : Type} → Stretch Kernel α → Prop} {Q : Stretch Kernel Progress → Prop}
  {may : Fault → Prop} {modes : Bool → Prop} {me : ThreadId} (conveys : Conveys P Q may modes)
include conveys

theorem tells {entry : LogEntry} {progress : Progress} (other : ¬ Revisits (.log entry))
    (closed : ∀ saved, Frame.leave saved ∉ progress.frames) :
    Q (Stretch.log entry >>= fun _ => Pure.pure progress) :=
  conveys.goesOn (conveys.log other) fun _ => conveys.ends closed

theorem afterRelease {woken : Option ThreadId} : Q (Frame.afterRelease woken) := by
  cases woken with
  | none => exact conveys.ends (by simp)
  | some t => exact conveys.tells (by simp [Revisits]) (by simp)

theorem signalOne {c : CondvarId} {next : List Frame}
    (closed : ∀ saved, Frame.leave saved ∉ next) : Q (Frame.signalOne c next) := by
  refine conveys.goesOn (conveys.takeMostUrgent c) fun found => ?_
  cases found with
  | none => exact conveys.ends (by simp)
  | some waiter => exact conveys.tells (by simp [Revisits]) (by simpa using closed)

theorem takeOrQueue {lock : Lock} {donates : Bool}
    (claims : P (withThreads (Lock.claim lock.id me donates))) :
    Q (Frame.takeOrQueue me lock donates) := by
  refine conveys.goesOn (conveys.downOrQueue me _) fun taken => ?_
  split
  · exact conveys.goesOn claims fun _ => conveys.tells (by simp [Revisits]) (by simp)
  · exact conveys.tells (by simp [Revisits]) (by simp)

/-- Between the beginning of a call and its end, a stretch has the property if its parts have it. -/
theorem advance {frame : Frame} (admits : frame.Admits P may modes me) :
    Q (frame.advance me) := by
  cases frame with
  | call made => exact admits.elim
  | leave saved => exact admits.elim
  | down s =>
    refine conveys.goesOn (conveys.downOrQueue me s) fun taken => ?_
    split
    · exact conveys.ends (by simp)
    · exact conveys.tells (by simp [Revisits]) (by simp)
  | downQueued | acquireQueued | signaled => exact conveys.tells (by simp [Revisits]) (by simp)
  | acquire lock =>
    refine conveys.goesOnByMode fun donates mode => ?_
    obtain ⟨registers, claims⟩ := admits donates mode
    exact conveys.goesOn registers fun _ => conveys.takeOrQueue claims
  | up s => exact conveys.goesOn (conveys.release s admits) fun _ => conveys.afterRelease
  | check => exact conveys.ends (by simp)
  | giveUp lock =>
    exact conveys.goesOnByMode fun donates mode => conveys.goesOn (admits donates mode) fun _ =>
      conveys.tells (by simp [Revisits]) (by simp)
  | claim purpose lock =>
    exact conveys.goesOn (conveys.requireHolds (conveys.looks _) admits) fun _ =>
      conveys.ends (by simp)
  | signal c => exact conveys.signalOne (by simp)
  | broadcast c => exact conveys.signalOne (by simp)

/-- A wait registers in a section of its own, and leaves it before it goes on. -/
theorem beginWait {c : CondvarId} {lock : Lock} (allowed : may (.waitsInInterrupt .wait))
    (registers : P (inSection fun _ => Condvar.register me c lock.id)) :
    Q (Frame.begin me (.wait c lock)) :=
  conveys.goesOn (conveys.requireCanWait allowed) fun _ => conveys.goesOn registers fun _ =>
    conveys.tells (by simp [Revisits]) (by simp)

theorem guard (allowed : ∀ call, may (.waitsInInterrupt call)) (call : Call) : P call.guard := by
  cases call with
  | down | acquire => exact conveys.requireCanWait (allowed _)
  | up | release | wait | signal | broadcast => exact conveys.value ()

/-- A call begins well if its section does. -/
theorem begin {call : Call} (allowed : ∀ call, may (.waitsInInterrupt call))
    (enters : ∀ frames, Q (enter >>= fun saved =>
      Pure.pure ⟨frames ++ [.leave saved], .proceed⟩))
    (registers : ∀ c lock, P (inSection fun _ => Condvar.register me c lock)) :
    Q (Frame.begin me call) := by
  cases opening : call.opening with
  | some frames =>
    rw [Frame.begin_of_opening opening]
    exact conveys.goesOn (conveys.guard allowed call) fun _ => enters frames
  | none =>
    cases call with
    | wait c lock => exact conveys.beginWait (allowed .wait) (registers c lock.id)
    | down | up | acquire | release | signal | broadcast => cases opening

end Conveys

section Calls

variable {P : {α : Type} → Stretch Kernel α → Prop} {may : Fault → Prop} {modes : Bool → Prop}
  {me : ThreadId}

/-- To give up a call is to leave its sections. -/
theorem Passes.unwind (passes : Passes P may) (leaves : ∀ saved, P (leave saved))
    {frames : List Frame} : P (Frame.unwind frames) := by
  induction frames with
  | nil => exact passes.value ()
  | cons frame rest ih =>
    cases frame with
    | leave saved => exact passes.bind (leaves saved) fun _ => ih
    | _ => exact ih

/-- A call without a wait has the property if sections pass it on and a lock may be tried. -/
theorem Tries.run (tries : Tries P may modes) {call : ShortCall}
    (sections : ∀ {x : Stretch Kernel Bool}, P x → P (inSection fun _ => x))
    (owns : ∀ lock, call = .tryAcquire lock → may (.retried me lock.id) ∧
      ∀ donates, modes donates → P (withThreads (Lock.takeOwnership lock.id me donates))) :
    P (call.run me) := by
  cases call with
  | tryDown s => exact sections (tries.tryDown s)
  | tryAcquire lock =>
    obtain ⟨allowed, takes⟩ := owns lock rfl
    refine sections (tries.bind (tries.looks _) fun holder =>
      tries.bind (tries.require allowed) fun _ => tries.bind (tries.tryDown _) fun taken => ?_)
    split
    · exact tries.byMode fun donates mode => tries.bind (takes donates mode) fun _ =>
        tries.bind (tries.log (by simp [Revisits])) fun _ => tries.value true
    · exact tries.bind (tries.log (by simp [Revisits])) fun _ => tries.value false
  | held lock => exact sections (tries.bind (tries.looks _) fun _ => tries.value _)

end Calls

end KernelSync
