import KernelSync.Proofs.DeadlockDetection
import KernelSync.Proofs.FaultyRuns

/-!
Runs without donation. The donor lists are kept in this mode too, but no priority follows from them:
each is what was last stored from outside (`feedback_mode_donates_nothing`). It is read off the moves
that were tried, whatever else has happened in between, and however the moves have ended.
-/

namespace KernelSync

open Stretch hiding pure bind
open ThreadTable Donation

/-- One of the two priorities of a thread. -/
inductive Rating where
  | effective
  | base
  deriving DecidableEq, Repr

def Rating.of : Rating → ThreadRecord → Priority
  | effective, r => r.priority
  | base, r => r.basePriority

namespace System

variable {rating : Rating} {s s' : System} {t : ThreadId} {move : Move}
  {outcome : Except Fault Unit} {events : List Event} {path : List Attempt} {capacity : Nat}
  {r : ThreadRecord}

/-! ### What is stored from outside -/

/-- What a move has stored as a priority of `t`: the priority with which it has created the thread, or
the one that it has set. To set the base priority is to set both; a move that fails stores nothing. -/
def Attempt.stored? (rating : Rating) (t : ThreadId) (a : Attempt) : Option Priority :=
  match a.outcome, a.move with
  | .ok (), .spawn _ priority =>
      if a.after.issued = a.before.issued ++ [t] then some priority else none
  | .ok (), .setBase u base => if u = t then some base else none
  | .ok (), .setEffective u priority =>
      if u = t ∧ rating = .effective then some priority else none
  | _, _ => none

/-- The value that was last stored for `t`. -/
def lastStored (rating : Rating) (t : ThreadId) (path : List Attempt) : Option Priority :=
  (path.filterMap (·.stored? rating t)).getLast?

theorem lastStored_append {a : Attempt} : lastStored rating t (path ++ [a]) =
    (a.stored? rating t).or (lastStored rating t path) := by
  unfold lastStored
  rw [List.filterMap_append, List.getLast?_append]
  cases stored : a.stored? rating t with
  | none => simp [stored]
  | some priority => simp [stored]

/-! ### What a move leaves -/

/-- The priorities of `t` are those of before, but for what the move has stored. -/
def Accounts (s s' : System) (move : Move) (outcome : Except Fault Unit) : Prop :=
  ∀ rating t r, s'.table.get? t = some r →
    (Attempt.stored? rating t ⟨s, move, outcome, s'⟩).or ((s.table.get? t).map rating.of) =
      some (rating.of r)

/-- What leaves the priorities alone, and stores nothing. -/
theorem accounts_of_agree (agree : Agree priorities s.table s'.table)
    (nothing : ∀ rating t, Attempt.stored? rating t ⟨s, move, outcome, s'⟩ = none) :
    Accounts s s' move outcome := by
  intro rating t r found
  obtain ⟨r', before, same⟩ := agree.get?_before found
  rw [nothing, before, Option.none_or, Option.map_some]
  obtain ⟨effective, base⟩ := Prod.mk.inj same
  cases rating with
  | effective => exact congrArg some effective.symm
  | base => exact congrArg some base.symm

theorem accounts_of_kernel (same : s'.kernel = s.kernel)
    (nothing : ∀ rating t, Attempt.stored? rating t ⟨s, move, outcome, s'⟩ = none) :
    Accounts s s' move outcome := by
  apply accounts_of_agree _ nothing
  unfold System.table
  rw [same]
  exact .refl _ _

theorem accounts_of_conducts {k : Kernel} {α : Type} {run : Run Kernel α}
    (conducts : Conducts priorities k run) (table : k.table = s.table) (same : s'.kernel = run.state)
    (nothing : ∀ rating t, Attempt.stored? rating t ⟨s, move, outcome, s'⟩ = none) :
    Accounts s s' move outcome := by
  apply accounts_of_agree _ nothing
  unfold System.table at table ⊢
  rw [same, ← table]
  exact conducts.table.agree

theorem accounts_of_spawn {name : String} {priority : Priority}
    (unharmed : Unharmed s .feedbackQueue)
    (ends : perform (.spawn name priority) s = ⟨outcome, s', events⟩) :
    Accounts s s' (.spawn name priority) outcome := by
  cases outcome with
  | error fault =>
    have fails := onTable_bind_error unharmed.quiet (fun result s => by cases result <;> rfl) ends
    apply accounts_of_agree _ fun _ _ => rfl
    rw [fails.2, (spawn_of_fails fails.1).1]
    exact .refl _ _
  | ok =>
    obtain ⟨result, mid, _, _, spawns, rest, -⟩ := bind_eq_ok.mp ends
    obtain ⟨table, reported, adds, rfl⟩ := onTable_eq_ok unharmed.quiet spawns
    rcases spawn_eq_ok unharmed.arena adds with ⟨full, rfl, rfl⟩ | ⟨id, rfl, gains⟩
    · cases rest
      apply accounts_of_kernel rfl
      intro rating t
      simp [Attempt.stored?]
    · cases rest
      intro rating t r found
      have found : table.get? t = some r := found
      rw [gains.get?] at found
      by_cases here : t = id
      · subst here
        rw [if_pos rfl] at found
        cases found
        cases rating <;> simp [Attempt.stored?, withTable, Rating.of, ThreadRecord.fresh]
      · rw [if_neg here] at found
        simp [Attempt.stored?, Ne.symm here, found]

theorem accounts_of_remove (unharmed : Unharmed s .feedbackQueue)
    (ends : perform (.remove t) s = ⟨outcome, s', events⟩) : Accounts s s' (.remove t) outcome := by
  cases outcome with
  | error fault =>
    have fails := onTable_bind_error unharmed.quiet (fun _ _ => rfl) ends
    apply accounts_of_agree _ fun _ _ => rfl
    rw [fails.2, remove_of_fails fails.1]
    exact .refl _ _
  | ok =>
    obtain ⟨removed, mid, _, _, removes, rest, -⟩ := bind_eq_ok.mp ends
    obtain ⟨table, reported, takes, rfl⟩ := onTable_eq_ok unharmed.quiet removes
    obtain ⟨-, -, -, loses⟩ := remove_eq_ok unharmed.arena takes
    cases rest
    intro rating u r found
    have found : table.get? u = some r := found
    rw [loses.get?] at found
    split at found
    · cases found
    · simp [Attempt.stored?, found]

/-- A base priority that is set is the effective one too. -/
theorem accounts_of_setBase {base : Priority} (unharmed : Unharmed s .feedbackQueue)
    (ends : perform (.setBase t base) s = ⟨outcome, s', events⟩) :
    Accounts s s' (.setBase t base) outcome := by
  have mode := unharmed.mode
  rw [setBase_run unharmed.quiet, mode] at ends
  cases found : s.table.get? t with
  | none =>
    rw [changeBase_run_of_stale found] at ends
    cases ends
    exact accounts_of_kernel rfl fun _ _ => rfl
  | some r =>
    rw [changeBase_run_plain found rfl] at ends
    cases ends
    intro rating u r' found'
    have found' : ((rebased s.table t base).modify t ({ · with priority := base })).get? u = some r' :=
      found'
    rw [get?_modify, rebased, get?_modify_self found, get?_modify] at found'
    by_cases here : u = t
    · subst here
      rw [if_pos rfl] at found'
      cases found'
      cases rating <;> simp [Attempt.stored?, Except.map, Rating.of]
    · rw [if_neg here, if_neg here] at found'
      simp [Attempt.stored?, Except.map, Ne.symm here, found']

theorem accounts_of_setEffective {priority : Priority} (unharmed : Unharmed s .feedbackQueue)
    (ends : perform (.setEffective t priority) s = ⟨outcome, s', events⟩) :
    Accounts s s' (.setEffective t priority) outcome := by
  have sets : onTable (setPriority t priority) s = ⟨outcome, s', events⟩ := ends
  rw [onTable_run unharmed.quiet] at sets
  cases found : s.table.get? t with
  | none =>
    have stale : setPriority t priority s.table = ⟨.error (.staleHandle t), s.table, []⟩ := by
      simp [setPriority, amend, bind_run, record_run_of_stale found]
    rw [stale] at sets
    cases sets
    exact accounts_of_kernel rfl fun _ _ => rfl
  | some r =>
    rw [setPriority, amend_run found] at sets
    cases sets
    intro rating u r' found'
    have found' : (s.table.modify t ({ · with priority })).get? u = some r' := found'
    rw [get?_modify, found] at found'
    by_cases here : u = t
    · subst here
      rw [if_pos rfl] at found'
      cases found'
      cases rating <;> simp [Attempt.stored?, Rating.of, found]
    · rw [if_neg here] at found'
      simp [Attempt.stored?, Ne.symm here, found']

/-- Without donation every move accounts for the priorities that it leaves. -/
theorem accounts_of_tries (unharmed : Unharmed s .feedbackQueue)
    (ends : perform move s = ⟨outcome, s', events⟩) : Accounts s s' move outcome := by
  have overlooks : Overlooks priorities s.kernel.mode.donates := by
    rw [unharmed.mode]
    exact overlooks_priorities
  cases move with
  | newSemaphore | newLock | newCondvar | interrupt | call =>
    cases ends
    exact accounts_of_agree (.refl _ _) fun _ _ => rfl
  | spawn name priority => exact accounts_of_spawn unharmed ends
  | remove t => exact accounts_of_remove unharmed ends
  | setBase t base => exact accounts_of_setBase unharmed ends
  | setEffective t priority => exact accounts_of_setEffective unharmed ends
  | short t call =>
    have conducts : Conducts priorities (s.kernelAt t) (call.run t (s.kernelAt t)) :=
      ShortCall.conducted_run overlooks _ (unharmed.quiet.withDepth _) rfl
    rw [short_run] at ends
    cases ends
    apply accounts_of_conducts conducts rfl rfl
    intro rating u
    unfold Attempt.stored?
    cases (call.run t (s.kernelAt t)).outcome <;> rfl
  | go t =>
    have conducts : Conducts priorities (s.kernelAt t)
        (Frame.step t (s.activity t).frames (s.kernelAt t)) :=
      Frame.conducted_step overlooks _ (unharmed.quiet.withDepth _) rfl
    have same := (go_kernel (s := s) (t := t)).1
    rw [ends] at same
    apply accounts_of_conducts conducts rfl same
    intro rating u
    cases outcome <;> rfl

/-- What a thread does when its call was cut short stores no priority. -/
theorem stored?_aftermath : Attempt.stored? rating t ⟨s, move, outcome, s'.aftermath move outcome⟩ =
    Attempt.stored? rating t ⟨s, move, outcome, s'⟩ := by
  unfold Attempt.stored?
  rw [issued_aftermath]

/-! ### Whole runs -/

/-- At every moment of a run without donation the priorities of a live thread are the values that were
last stored for it: the effective priority by the move that has created the thread, or has set its
base priority or its effective priority; the base priority by one of the first two. Threads may
contend for locks, wait for each other in chains and in circles, hand locks over, come and go, and
fail on the way. No move ends in the fault of a donation that has come back to its donor. -/
theorem feedback_mode_donates_nothing (endures : Endures capacity .feedbackQueue path s) :
    (∀ t r, s.table.get? t = some r →
      lastStored .effective t path = some r.priority ∧
      lastStored .base t path = some r.basePriority) ∧
    ∀ move, s.Allowed move → ∀ donor lock,
      (perform move s).outcome ≠ .error (.donationCycle donor lock) := by
  constructor
  · have stored : ∀ rating t r, s.table.get? t = some r →
        lastStored rating t path = some (rating.of r) := by
      induction endures with
      | start small =>
        intro rating t r found
        simp [System.start, System.table, Kernel.table, ThreadTable.empty, get?] at found
      | @tries path s s' move outcome events before allowed ends ih =>
        intro rating t r found
        unfold System.table at found
        rw [kernel_aftermath] at found
        have accounts := accounts_of_tries before.unharmed ends rating t r found
        rw [lastStored_append, stored?_aftermath, ← accounts]
        cases was : s.table.get? t with
        | none =>
          rw [was] at accounts
          rw [Option.map_none, Option.or_none] at accounts ⊢
          rw [accounts, Option.some_or]
        | some r' => rw [ih rating t r' was, Option.map_some]
      | cuts before mayGo busy ih => exact ih
    intro t r found
    exact ⟨stored .effective t r found, stored .base t r found⟩
  · intro move _ donor lock fails
    exact (survives_perform endures.unharmed move).due _ fails (.cycle rfl donor lock)

/-! ### A circle -/

/-- Each of two threads holds a lock and waits for that of the other. The one waits at the end of a
chain first; it fails when it asks for its own lock once more, and its effective priority is lowered
while it waits. -/
def circle : List Move :=
  let first : Lock := ⟨⟨1⟩, ⟨0⟩⟩
  let second : Lock := ⟨⟨2⟩, ⟨1⟩⟩
  let low : ThreadId := ⟨0, 0⟩
  let high : ThreadId := ⟨1, 0⟩
  [.newLock, .newLock, .spawn "low" .lowest, .spawn "high" .highest,
    .call low (.acquire first), .go low, .go low, .go low,
    .call high (.acquire second), .go high, .go high, .go high,
    .call low (.acquire first), .go low, .go low,
    .call high (.acquire first), .go high, .go high, .setEffective high .standard,
    .call low (.acquire second), .go low, .go low]

/-- In a circle of threads the priorities are still those that were stored. -/
theorem circle_donates_nothing : ∃ path s r,
    Endures 4 .feedbackQueue path s ∧ s.table.Awaits ⟨0, 0⟩ ⟨1, 0⟩ ∧ s.table.Awaits ⟨1, 0⟩ ⟨0, 0⟩ ∧
      s.table.get? ⟨1, 0⟩ = some r ∧ r.donors = [⟨0, 0⟩] ∧
      lastStored .effective ⟨1, 0⟩ path = some r.priority ∧ r.priority = .standard ∧
      lastStored .base ⟨1, 0⟩ path = some r.basePriority ∧ r.basePriority = .highest := by
  have plays : (tryAll circle [] (start 4 .feedbackQueue)).map (fun tried =>
      (tried.2.table.ahead? ⟨0, 0⟩, tried.2.table.ahead? ⟨1, 0⟩,
        (tried.2.table.get? ⟨1, 0⟩).map fun r => (r.donors, r.priority, r.basePriority))) =
      some (some ⟨1, 0⟩, some ⟨0, 0⟩, some ([⟨0, 0⟩], .standard, .highest)) := by
    decide +kernel
  obtain ⟨⟨path, s⟩, tried, facts⟩ := Option.map_eq_some_iff.mp plays
  obtain ⟨ahead, facts⟩ := Prod.mk.inj facts
  obtain ⟨behind, facts⟩ := Prod.mk.inj facts
  obtain ⟨r, found, facts⟩ := Option.map_eq_some_iff.mp facts
  obtain ⟨donors, facts⟩ := Prod.mk.inj facts
  obtain ⟨effective, base⟩ := Prod.mk.inj facts
  have endures : Endures 4 .feedbackQueue path s := Endures.tryAll (.start (by decide)) tried
  obtain ⟨stored, stored'⟩ := (feedback_mode_donates_nothing endures).1 ⟨1, 0⟩ r found
  exact ⟨path, s, r, endures, ahead, behind, found, donors, stored, effective, stored', base⟩

end System

end KernelSync
