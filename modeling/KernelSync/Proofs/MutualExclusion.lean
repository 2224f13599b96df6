import KernelSync.Proofs.MoveOutcomes
import KernelSync.Proofs.OrderlyMove

/-!
Mutual exclusion. Who holds a lock is recorded in the thread table, and whether it can be had in the
count of its semaphore; the two agree wherever another thread or the caller can look. So from the
moment at which a call for a lock has succeeded, no other call for it does until the holder has
given it up, and a call that does not wait succeeds exactly if there is no holder.
-/

namespace KernelSync.System

open Stretch ThreadTable

variable {s s' s'' : System} {t u : ThreadId} {l : Lock} {move : Move} {events : List Event}

/-! ### Taking a lock -/

/-- A free lock that a thread may claim becomes the thread's. -/
theorem takeOwnership_ok (orderly : Orderly s) (live : s.Live t) (idle : s.table.waits t = none)
    (free : s.table.holder? l.id = none) (donates : Bool) :
    (Lock.takeOwnership l.id t donates s.table).outcome = .ok () := by
  obtain ⟨donors, priority, events, run, -⟩ := Lock.claim_run orderly.sound.arena
    orderly.sound.accounted live free (Or.inl idle) donates
  rw [← Lock.claim_of_idle live idle, run]

section TryAcquire

variable (orderly : Orderly s) (allowed : s.Allowed (.short t (.tryAcquire l)))
include orderly allowed

/-- A call for a lock that does not wait answers whether the lock is free; to the holder it is
refused. -/
theorem tryAcquire_outcome :
    ((ShortCall.tryAcquire l).run t (s.kernelAt t)).outcome =
      if s.table.holder? l.id = some t then .error (.retried t l.id)
      else .ok (s.table.holder? l.id).isNone := by
  obtain ⟨free, idle, mem⟩ := allowed
  have quits := orderly.placed.waits_of_idle idle.2
  have agrees := orderly.permit_free free mem
  have runs : ((ShortCall.tryAcquire l).run t (s.kernelAt t)).outcome =
      (Lock.tryAcquire t l { s.kernelAt t with depth := (s.kernelAt t).depth + 1 }).outcome := rfl
  have quiet : ({ s.kernelAt t with depth := (s.kernelAt t).depth + 1 } : Kernel).Quiet :=
    (orderly.quiet.withDepth _).withDepth _
  rw [runs, tryAcquire_run quiet]
  have table : ({ s.kernelAt t with depth := (s.kernelAt t).depth + 1 } : Kernel).table =
    s.table := rfl
  have count : (({ s.kernelAt t with depth := (s.kernelAt t).depth + 1 } : Kernel).semaphore
    l.semaphore).count = (s.kernel.semaphore l.semaphore).count := rfl
  rw [table, count, agrees]
  by_cases mine : s.table.holder? l.id = some t
  · rw [if_pos mine, if_pos mine]
  rw [if_neg mine, if_neg mine]
  cases held : s.table.holder? l.id with
  | some holder => rfl
  | none =>
    have owns := takeOwnership_ok orderly idle.1 quits held s.kernel.mode.donates
    have mode : ({ s.kernelAt t with depth := (s.kernelAt t).depth + 1 } : Kernel).mode.donates =
      s.kernel.mode.donates := rfl
    rw [if_pos rfl, if_pos Nat.one_pos, mode]
    rcases taken : Lock.takeOwnership l.id t s.kernel.mode.donates s.table with
      ⟨outcome, table, events⟩
    rw [taken] at owns
    subst owns
    rfl

end TryAcquire

/-! ### Success -/

/-- The move ends a call of `t` for the lock with success: a stretch that tried the lock has not
come to queue for it, or the answer of a call that does not wait is yes. -/
def Made.Grants (made : Made) (l : Lock) (t : ThreadId) : Prop :=
  match made.move with
  | .go u => u = t ∧ made.before.at? t = some (.acquire l) ∧
      made.after.at? t ≠ some (.acquireQueued l)
  | .short u call => u = t ∧ call = .tryAcquire l ∧
      (call.run t (made.before.kernelAt t)).outcome = .ok true
  | _ => False

/-- The move is the stretch in which `t` gives up the lock. -/
def Made.GivesUp (made : Made) (l : Lock) (t : ThreadId) : Prop :=
  made.move = .go t ∧ made.before.at? t = some (.giveUp l)

section Step

variable (orderly : Orderly s) (allowed : s.Allowed move)
  (ends : perform move s = ⟨.ok (), s', events⟩)
include orderly allowed ends

/-- A call for a lock succeeds only if the lock is free, and makes the caller the holder. -/
theorem held_of_grants (grants : Made.Grants ⟨s, move, s'⟩ l t) :
    s.table.holder? l.id = none ∧ s'.table.holder? l.id = some t := by
  have moved := moved_of_ok orderly.quiet orderly.sound.arena allowed ends
  cases move with
  | go u =>
    obtain ⟨rfl, here, notQueued⟩ := grants
    cases moved with
    | @went _ head rest kernel progress busy advances =>
      have change := change_after orderly busy allowed.1 allowed.2.1 advances
      have holds := change.holder? orderly.sound l.id
      cases here.symm.trans (at?_of_frames busy)
      cases advances with
      | acquires => exact ⟨change.free_of_claim, holds.trans (if_pos rfl)⟩
      | registers => exact absurd at?_after_self notQueued
  | short u call =>
    obtain ⟨rfl, rfl, answered⟩ := grants
    have outcome := (tryAcquire_outcome orderly allowed).symm.trans answered
    split at outcome
    · exact nomatch outcome
    refine ⟨Option.isNone_iff_eq_none.mp (Except.ok.inj outcome), ?_⟩
    have quiet : (s.kernelAt u).Quiet := orderly.quiet.withDepth _
    rw [short_run] at ends
    rcases ran : (ShortCall.tryAcquire l).run u (s.kernelAt u) with ⟨result, kernel, reported⟩
    rw [ran] at ends answered
    cases answered
    cases ends
    cases answers_of_ok quiet ran with
    | acquires notMine permit claims =>
      have change := change_of_grant orderly allowed.1 allowed.2.1 allowed.2.2 permit
      exact (change.holder? orderly.sound l.id).trans (if_pos rfl)
  | newSemaphore | newLock | newCondvar | spawn | remove | setBase | setEffective | interrupt
  | call => exact grants.elim

/-- A lock keeps its holder until the holder gives it up. -/
theorem holder_keeps (mem : l ∈ s.locks) (held : s.table.holder? l.id = some t)
    (keeps : ¬ Made.GivesUp ⟨s, move, s'⟩ l t) : s'.table.holder? l.id = some t := by
  have moved := moved_of_ok orderly.quiet orderly.sound.arena allowed ends
  obtain ⟨deed, change, -, -, -, gives⟩ := moved.change orderly allowed
  have holds := change.holder? orderly.sound l.id
  cases deed with
  | claim id u =>
    by_cases same : l.id = id
    · subst same
      exact nomatch held.symm.trans change.free_of_claim
    · exact holds.trans ((if_neg same).trans held)
  | giveUp id u =>
    by_cases same : l.id = id
    · subst same
      obtain ⟨rfl, m, memm, is, here⟩ := gives _ u rfl
      obtain rfl := orderly.furnished.lock_id m memm l mem is
      obtain rfl := Option.some.inj (held.symm.trans change.held_of_giveUp)
      exact absurd ⟨rfl, here⟩ keeps
    · exact holds.trans ((if_neg same).trans held)
  | rest | register | spawn | remove | setBase | setEffective => exact holds.trans held

end Step

/-- Locks stay. -/
theorem Moved.mem_locks (moved : Moved s move s') (mem : l ∈ s.locks) : l ∈ s'.locks := by
  cases moved with
  | newLock => exact List.mem_append_left _ mem
  | newSemaphore | newCondvar | spawned | full | removed | rebased | reranked | interrupt | called
  | answered | went => exact mem

/-- On a path on which the holder does not give up a lock it stays the holder, and no other call
for the lock succeeds. -/
theorem excluded_of_path {path : List Made} (reachable : Reachable anyMove s)
    (leads : Path s path s') (mem : l ∈ s.locks) (held : s.table.holder? l.id = some t)
    (keeps : ∀ made ∈ path, ¬ made.GivesUp l t) :
    s'.table.holder? l.id = some t ∧ ∀ made ∈ path, ∀ u, ¬ made.Grants l u := by
  induction leads with
  | rest => exact ⟨held, fun _ mem => absurd mem List.not_mem_nil⟩
  | @move s s' s'' move events path allowed ends goesOn ih =>
    have orderly := reachable.orderly
    have next := holder_keeps orderly allowed ends mem held (keeps _ List.mem_cons_self)
    have after := ih (.move reachable allowed trivial ends)
      ((reachable.moved allowed ends).mem_locks mem) next
      fun made later => keeps made (List.mem_cons_of_mem _ later)
    refine ⟨after.1, fun made mem u grants => ?_⟩
    rcases List.mem_cons.mp mem with rfl | later
    · exact nomatch held.symm.trans (held_of_grants orderly allowed ends grants).1
    · exact after.2 made later u grants

/-! ### No hand-over of a held lock -/

/-- No stretch that tries a lock comes to hand over a held one: the permit is there only if nobody
holds the lock. -/
theorem acquire_unhanded (orderly : Orderly s) (allowed : s.Allowed (.go t))
    (here : s.at? t = some (.acquire l)) {fault : Fault}
    (fails : ((Frame.acquire l).advance t (s.kernelAt t)).outcome = .error fault) :
    ¬ Handed fault := by
  obtain ⟨rest, busy⟩ := busy_of_at? here
  have mine : l ∈ s.locks := (fine_of_busy orderly busy rfl).1
  have agrees := permit_of_not_up orderly allowed.1 mine (by rw [here]; simp)
  have quiet : (s.kernelAt t).Quiet := orderly.quiet.withDepth _
  rw [Frame.acquire_run quiet] at fails
  have registers := (Lock.unhanded_register : Unhanded
    (Lock.register l.id t (s.kernelAt t).mode.donates)).outcome (s.kernelAt t).table
  cases held : s.table.holder? l.id with
  | some holder =>
    have empty := agrees.trans (if_neg (by simp [held]))
    rcases ran : Lock.register l.id t (s.kernelAt t).mode.donates (s.kernelAt t).table with
      ⟨other | ⟨⟩, table, events⟩ <;> rw [ran] at fails registers
    · cases fails
      exact registers fault rfl
    · obtain ⟨id, rfl⟩ := Frame.takeOrQueue_of_empty (quiet.setTable table) empty fails
      simp [Handed]
  | none =>
    have permit : 0 < ((s.kernelAt t).semaphore l.semaphore).count := by
      have one := agrees.trans (if_pos held)
      exact one ▸ Nat.one_pos
    have table : (s.kernelAt t).table = s.table := rfl
    rw [table, Lock.register_run_unheld held] at fails
    obtain ⟨donors, priority, events, claims, -⟩ := Lock.claim_run orderly.sound.arena
      orderly.sound.accounted allowed.2.1 held (orderly.mayRegister here)
      (s.kernelAt t).mode.donates
    have takes := Frame.takeOrQueue_of_permit (quiet.setTable s.table) permit
      (congrArg Run.outcome claims)
    cases fails.symm.trans takes

/-- No move ends with a lock handed over while it is held. -/
theorem perform_unhanded (orderly : Orderly s) (allowed : s.Allowed move) {fault : Fault}
    (fails : (perform move s).outcome = .error fault) : ¬ Handed fault := by
  cases move with
  | setBase t base =>
    rw [setBase_run orderly.quiet] at fails
    rcases ran : Donation.changeBasePriority t base s.kernel.mode s.table with
      ⟨other | priority, table, events⟩ <;> rw [ran] at fails
    · cases fails
      exact Donation.unhanded_changeBase.outcome s.table fault (congrArg Run.outcome ran)
    · cases fails
  | go t =>
    cases busy : (s.activity t).frames with
    | nil => exact absurd busy allowed.2.2.1
    | cons head rest =>
      rw [go_eq_error_iff busy] at fails
      by_cases tries : ∃ lock, head = .acquire lock
      · obtain ⟨lock, rfl⟩ := tries
        exact acquire_unhanded orderly allowed (at?_of_frames busy) fails
      · have notTry : ∀ lock, head ≠ .acquire lock := fun lock is => tries ⟨lock, is⟩
        exact (Frame.calm_advance notTry).outcome _ fault fails
  | short t call =>
    by_cases tries : ∃ lock, call = .tryAcquire lock
    · obtain ⟨lock, rfl⟩ := tries
      rw [short_run, tryAcquire_outcome orderly allowed] at fails
      split at fails
      · cases fails
        simp [Handed]
      · cases fails
    · have notTry : ∀ u lock, Move.short t call ≠ .short u (.tryAcquire lock) := by
        rintro u lock is
        exact tries ⟨lock, (Move.short.inj is).2⟩
      refine (calm_perform ?_ notTry ?_).outcome s fault fails
      · simp
      · simp
  | newSemaphore | newLock | newCondvar | spawn | remove | setEffective | interrupt | call =>
    refine (calm_perform ?_ ?_ ?_).outcome s fault fails
    · simp
    · simp
    · simp

/-! ### Exclusion -/

/-- A lock has its permit exactly if it has no holder, wherever no thread is in the middle of a
section, so whenever the scheduler is called and whenever a call returns. Once a call for it has
succeeded no other does until the caller has given it up. Without a wait it goes to a thread other
than the holder exactly if there is no holder. And no move hands it over while it is held. -/
theorem mutual_exclusion (reachable : Reachable anyMove s) (mem : l ∈ s.locks) :
    ((∀ t, s.phase ≠ .within t) → (s.kernel.semaphore l.semaphore).count =
        if s.table.holder? l.id = none then 1 else 0) ∧
      (∀ made path s', Path s (made :: path) s' → ∀ t, made.Grants l t →
        (∀ later ∈ path, ¬ later.GivesUp l t) →
          s'.table.holder? l.id = some t ∧ ∀ later ∈ path, ∀ u, ¬ later.Grants l u) ∧
      (∀ t, s.Allowed (.short t (.tryAcquire l)) → s.table.holder? l.id ≠ some t →
        ((ShortCall.tryAcquire l).run t (s.kernelAt t)).outcome =
          .ok (s.table.holder? l.id).isNone) ∧
      ∀ move, s.Allowed move → ∀ id t other,
        (perform move s).outcome ≠ .error (.handedWhileHeld id t other) := by
  have orderly := reachable.orderly
  refine ⟨?_, ?_, ?_, ?_⟩
  · intro outside
    exact orderly.balanced.permit l mem fun t raising =>
      outside t (orderly.balanced.raising t l mem raising).1
  · intro made path s' leads t grants keeps
    cases leads with
    | move allowed ends goesOn =>
      have held := (held_of_grants orderly allowed ends grants).2
      exact excluded_of_path (.move reachable allowed trivial ends) goesOn
        ((reachable.moved allowed ends).mem_locks mem) held keeps
  · intro t allowed notMine
    exact (tryAcquire_outcome orderly allowed).trans (if_neg notMine)
  · intro move allowed id t other fails
    exact perform_unhanded orderly allowed fails ⟨id, t, other, rfl⟩

/-- One of two threads has taken a lock. -/
def taking : List Move :=
  [.newLock, .spawn "first" .standard, .spawn "second" .standard,
    .call ⟨0, 0⟩ (.acquire ⟨⟨1⟩, ⟨0⟩⟩), .go ⟨0, 0⟩, .go ⟨0, 0⟩, .go ⟨0, 0⟩]

/-- The lock is without its permit, and the other thread cannot have it. -/
theorem taken_lock_is_refused : ∃ s, play anyMove taking (start 2 .feedbackQueue) = some s ∧
    (s.kernel.semaphore ⟨0⟩).count = 0 ∧
      ((ShortCall.tryAcquire ⟨⟨1⟩, ⟨0⟩⟩).run ⟨1, 0⟩ (s.kernelAt ⟨1, 0⟩)).outcome = .ok false := by
  have plays : (play anyMove taking (start 2 .feedbackQueue)).map (fun s =>
      decide (⟨⟨1⟩, ⟨0⟩⟩ ∈ s.locks ∧ s.table.holder? ⟨1⟩ = some ⟨0, 0⟩ ∧ s.phase = .free ∧
        s.Allowed (.short ⟨1, 0⟩ (.tryAcquire ⟨⟨1⟩, ⟨0⟩⟩)))) = some true := by
    decide +kernel
  obtain ⟨s, played, facts⟩ := Option.map_eq_some_iff.mp plays
  obtain ⟨mem, held, free, allowed⟩ := of_decide_eq_true facts
  have reachable : Reachable anyMove s := (Reachable.start (by decide)).play played
  obtain ⟨agrees, -, answers, -⟩ := mutual_exclusion reachable mem
  refine ⟨s, played, ?_, ?_⟩
  · rw [agrees (by simp [free])]
    exact if_neg (by simp [held])
  · rw [answers ⟨1, 0⟩ allowed (by rw [held]; decide), held]
    rfl

end KernelSync.System
