import KernelSync.Proofs.Broadcasts
import KernelSync.Proofs.PermitBalance
import KernelSync.Proofs.Refusals

/-!
Commitment: the part of a call in which it can no longer be refused. A call is refused in its first
stretch or in the first one inside its section; from there on each condition that a primitive checks
holds of itself (`Committed`). A waiter's semaphore has no permit when it is signaled, since nobody
else has to do with it (`Unspent`), and the lock of a wait is held until the wait gives it up.
-/

namespace KernelSync

/-- Whether a place is one from which a call is not refused, whatever the state; in a wait, the call
for its permit is refused to handlers alone. -/
def Frame.settled (inWait : Bool) : Frame → Bool
  | .down _ | .downQueued _ | .check | .signal _ | .broadcast _ | .leave _ => true
  | .call (.down _) => inWait
  | _ => false

/-- From a settled place a stretch leads to settled places, but for the permit of a waiter that it
signals. -/
theorem Advances.settled {me : ThreadId} {k k' : Kernel} {frame : Frame} {progress : Progress}
    {inWait : Bool} (advances : Advances me k frame k' progress)
    (settled : frame.settled inWait = true) : k'.table = k.table ∧
      (progress.frames.all (Frame.settled inWait) = true ∨
        ∃ c first next, Delists k k' frame progress c first ∧
          progress.frames = .up first.semaphore :: next ∧
            next.all (Frame.settled inWait) = true) := by
  cases advances with
  | @opens call frames opening =>
    cases call with
    | down =>
      cases opening
      exact ⟨rfl, Or.inl rfl⟩
    | up | acquire | release | wait | signal | broadcast => cases settled
  | takes | queues | retries | checks | signalsNobody | broadcastsNobody | leaves =>
    exact ⟨rfl, Or.inl rfl⟩
  | signals sorted =>
    exact ⟨rfl, Or.inr ⟨_, _, [], delists_of_sorted (Or.inl rfl) sorted, rfl, rfl⟩⟩
  | broadcasts sorted =>
    exact ⟨rfl, Or.inr ⟨_, _, [_], delists_of_sorted (Or.inr rfl) sorted, rfl, rfl⟩⟩
  | waits | acquires | registers | reacquires | raises | wakes | givesUp | holds | returns =>
    cases settled

namespace System

variable {s s' : System} {t u : ThreadId} {move : Move} {head : Frame} {rest : List Frame}
  {kernel : Kernel} {progress : Progress} {c : CondvarId} {w : Waiter} {l : Lock} {rule : Rule}
  {events : List Event} {mayWait inWait : Bool}

/-! ### Registrations that nobody has signaled -/

/-- The registration `w` on `c` is the only one with its semaphore, which does not stand alone; it has
no permit, and nobody is about to add one. -/
structure Unspent (s : System) (c : CondvarId) (w : Waiter) : Prop where
  apart : w.semaphore ∉ s.standalone
  listed : ∀ d, s.kernel.listed w.semaphore d = if d = c then [w] else []
  permits : s.kernel.permits w.semaphore = 0
  raising : ∀ u, s.tally u (Frame.adds w.semaphore) = 0

/-- A wait begins with a registration that nobody has signaled. -/
theorem Standing.unspent (standing : Standing s c w .registered) : Unspent s c w where
  apart := standing.unshared.2
  listed := fun d => by simpa using standing.listed d
  permits := standing.permits
  raising := standing.raising nofun

/-- A semaphore that stands alone has been made to do so. -/
theorem Moved.standalone_cases {x : SemaphoreId} (moved : Moved s move s')
    (mem : x ∈ s'.standalone) : x ∈ s.standalone ∨ x = s.kernel.nextSemaphore := by
  cases moved with
  | newSemaphore => exact (List.mem_append.mp mem).imp_right List.mem_singleton.mp
  | newLock | newCondvar | spawned | full | removed | rebased | reranked | interrupt | called
  | answered | went => exact Or.inl mem

section Unspent

variable (unspent : Unspent s c w)
include unspent

theorem Unspent.eq_of_semaphore {d : CondvarId} {v : Waiter} (mem : v ∈ s.kernel.waiters d)
    (same : v.semaphore = w.semaphore) : d = c ∧ v = w := by
  have listed := Kernel.mem_listed.mpr ⟨mem, same⟩
  rw [unspent.listed d] at listed
  split at listed
  · rename_i here
    exact ⟨here, List.mem_singleton.mp listed⟩
  · cases listed

theorem Unspent.not_raising : s.at? u ≠ some (.up w.semaphore) := by
  intro raises
  obtain ⟨below, busy⟩ := busy_of_at? raises
  have none := unspent.raising u
  rw [tally_of_busy busy] at none
  simp [Frame.adds] at none

/-- A registration that is still there is not the one that a signal takes out. -/
theorem Unspent.apart_of_signals {d : CondvarId} {v : Waiter}
    (signals : Made.Signals d v ⟨s, move, s'⟩) (still : w ∈ s'.kernel.waiters c) :
    v.semaphore ≠ w.semaphore := by
  intro same
  obtain ⟨rfl, rfl⟩ :=
    unspent.eq_of_semaphore (signals.removed.mem_iff.mp List.mem_cons_self) same
  have perm := signals.removed.filter fun w => w.semaphore = v.semaphore
  rw [List.filter_cons_of_pos (by simp)] at perm
  have alone : s.kernel.listed v.semaphore d = [v] := (unspent.listed d).trans (if_pos rfl)
  unfold Kernel.listed at alone
  rw [alone] at perm
  have twice := perm.length_eq
  have left : v ∈ (s'.kernel.waiters d).filter fun w => w.semaphore = v.semaphore :=
    List.mem_filter.mpr ⟨still, by simp⟩
  rw [List.eq_nil_of_length_eq_zero (Nat.succ.inj twice)] at left
  cases left

section Moved

variable (reachable : Reachable rule s) (allowed : s.Allowed move)
  (ends : perform move s = ⟨.ok (), s', events⟩) (still : w ∈ s'.kernel.waiters c)
  (earlier : w ∈ s.kernel.waiters c)
include reachable allowed ends

include still in
/-- The lists change by other registrations, if at all. -/
theorem Unspent.listed_moved (fresh : s.kernel.nextSemaphore ≠ w.semaphore) (d : CondvarId) :
    s'.kernel.listed w.semaphore d = s.kernel.listed w.semaphore d := by
  have orderly := reachable.orderly
  unfold Kernel.listed
  rcases (reachable.moved allowed ends).waiters orderly reachable.waitsBegin with
    ⟨e, l, v, registers⟩ | ⟨e, v, signals⟩ | same
  · by_cases here : d = e
    · subst here
      have other : ¬ v.semaphore = w.semaphore := registers.fresh ▸ fresh
      rw [show s'.kernel.waiters d = _ from registers.added, List.filter_append]
      simp [other]
    · rw [show s'.kernel.waiters d = _ from registers.others d here]
  · by_cases here : d = e
    · subst here
      have perm := signals.removed.filter fun v => v.semaphore = w.semaphore
      rw [List.filter_cons_of_neg
        (by simpa using unspent.apart_of_signals signals still)] at perm
      have listed := unspent.listed d
      unfold Kernel.listed at listed
      rw [listed] at perm ⊢
      split at perm
      · rename_i here
        rw [if_pos here]
        exact List.perm_singleton.mp perm
      · rename_i elsewhere
        rw [if_neg elsewhere]
        exact List.perm_nil.mp perm
    · rw [show s'.kernel.waiters d = _ from signals.others d here]
  · rw [same d]

include earlier in
theorem Unspent.permits_moved : s'.kernel.permits w.semaphore = 0 := by
  have orderly := reachable.orderly
  cases handles_of_ok orderly allowed ends (orderly.furnished.registered c w earlier).1 with
  | leaves _ _ _ permits => exact permits.trans unspent.permits
  | gets _ _ _ permits | grabs _ _ _ permits =>
    exact nomatch unspent.permits.symm.trans permits
  | raises _ _ raises =>
    cases move with
    | go u => exact absurd (of_decide_eq_true raises) unspent.not_raising
    | newSemaphore | newLock | newCondvar | spawn | remove | setBase | setEffective | interrupt
    | call | short => cases raises

include still earlier in
theorem Unspent.raising_moved (u : ThreadId) : s'.tally u (Frame.adds w.semaphore) = 0 := by
  have orderly := reachable.orderly
  have none := unspent.raising u
  cases reachable.moved allowed ends with
  | newSemaphore | newLock | newCondvar | spawned | full | rebased | reranked | interrupt
  | answered => exact none
  | @removed t table =>
    by_cases here : u = t
    · exact congrArg (List.countP _) (congrArg Activity.frames (if_pos here))
    · exact (tally_of_frames (congrArg Activity.frames (if_neg here))).trans none
  | @called t made =>
    by_cases here : u = t
    · have frames : ((s.become t { s.activity t with frames := [.call made] }).activity u).frames =
          [.call made] := congrArg Activity.frames (if_pos here)
      unfold tally
      rw [frames]
      cases made with
      | up x =>
        have other : x ≠ w.semaphore := fun same => unspent.apart (same ▸ allowed.2.2)
        simp [Frame.adds, other]
      | down | acquire | release | wait | signal | broadcast => rfl
    · exact (tally_of_frames (congrArg Activity.frames (if_neg here))).trans none
  | @went t head rest kernel progress busy advances =>
    by_cases here : u = t
    · subst here
      show (after s u rest kernel progress).tally u _ = 0
      rw [tally_of_busy busy] at none
      rw [tally_after_self]
      rcases advances.raising (p := w.semaphore) with
        same | ⟨rfl, -⟩ | ⟨lock, rfl, same⟩ | ⟨d, first, delists, same, -⟩
      · rw [same, none]
      · exact absurd (at?_of_frames busy) unspent.not_raising
      · exact absurd same
          ((orderly.furnished.registered c w earlier).2 lock (fine_of_busy orderly busy rfl).1)
      · exact absurd same
          (unspent.apart_of_signals (signals_of_delists orderly busy delists) still)
    · exact (tally_after_of_ne here).trans none

include still earlier in
/-- As long as the registration is there nobody signals it. -/
theorem Unspent.moved : Unspent s' c w := by
  have fresh : s.kernel.nextSemaphore ≠ w.semaphore := fun same =>
    Nat.lt_irrefl _ (same ▸ (reachable.orderly.furnished.registered c w earlier).1)
  refine ⟨fun mem => ?_, fun d => ?_, unspent.permits_moved reachable allowed ends earlier,
    unspent.raising_moved reachable allowed ends still earlier⟩
  · exact ((reachable.moved allowed ends).standalone_cases mem).elim unspent.apart fresh.symm
  · exact (unspent.listed_moved reachable allowed ends still fresh d).trans (unspent.listed d)

end Moved

end Unspent

/-- Nobody adds a permit for a registration before it has been taken out. -/
theorem Reachable.unspent (reachable : Reachable rule s) (mem : w ∈ s.kernel.waiters c) :
    Unspent s c w := by
  induction reachable with
  | start small => cases mem
  | @move s s' move events before allowed obeys ends ih =>
    have moved := before.moved allowed ends
    have stays : w ∈ s.kernel.waiters c → Unspent s' c w := fun earlier =>
      (ih earlier).moved before allowed ends mem earlier
    rcases moved.waiters before.orderly before.waitsBegin with
      ⟨d, l, v, registers⟩ | ⟨d, v, signals⟩ | same
    · by_cases here : c = d
      · subst here
        rw [show s'.kernel.waiters c = _ from registers.added] at mem
        rcases List.mem_append.mp mem with earlier | new
        · exact stays earlier
        · obtain rfl := List.mem_singleton.mp new
          exact (moved.standing_of_registers before.orderly before.waitsBegin registers).unspent
      · exact stays (registers.others c here ▸ mem)
    · by_cases here : c = d
      · subst here
        exact stays (signals.removed.mem_iff.mp (List.mem_cons_of_mem _ mem))
      · exact stays (signals.others c here ▸ mem)
    · exact stays (same c ▸ mem)

/-! ### Calls that are past refusals -/

/-- What comes after the section: nothing, or in a wait the way back to its lock, which the thread has
given up. -/
inductive Returns (s : System) (t : ThreadId) : Bool → List Frame → Prop where
  | ends : Returns s t false []
  | lock {l : Lock} (unheld : s.table.holder? l.id ≠ some t) : Returns s t true [.signaled l]

theorem Returns.of_table {frames : List Frame} (returns : s.Returns t inWait frames)
    (same : s'.table = s.table) : s'.Returns t inWait frames := by
  cases returns with
  | ends => exact .ends
  | lock unheld => exact .lock (by rwa [same])

/-- Where a thread is in a call that can no longer be refused, but to an interrupt handler if the call
may wait: at settled places; about to add a permit where there is none; in the loop for a lock that it
does not hold; or in a wait, on the way to give up the lock that it holds, or to take it again. -/
inductive Committed (s : System) (t : ThreadId) (mayWait : Bool) : Prop where
  | settled {inWait : Bool} {above below : List Frame} (waits : inWait = true → mayWait = true)
      (frames : (s.activity t).frames = above ++ below)
      (settled : above.all (Frame.settled inWait) = true) (returns : s.Returns t inWait below)
  | raises {inWait : Bool} {x : SemaphoreId} {above below : List Frame}
      (waits : inWait = true → mayWait = true)
      (frames : (s.activity t).frames = .up x :: (above ++ below))
      (settled : above.all (Frame.settled inWait) = true) (returns : s.Returns t inWait below)
      (inside : s.phase = .within t) (empty : s.kernel.permits x = 0)
  | tries {l : Lock} {saved : Nat} (frames : (s.activity t).frames = [.acquire l, .leave saved] ∨
      (s.activity t).frames = [.acquireQueued l, .leave saved])
      (unheld : s.table.holder? l.id ≠ some t)
  | registered {l : Lock} {x : SemaphoreId} (waits : mayWait = true)
      (frames : (s.activity t).frames = [.call (.release l), .call (.down x), .signaled l])
      (has : s.Has t l)
  | releases {l : Lock} {x : SemaphoreId} {saved : Nat} (waits : mayWait = true)
      (frames : (s.activity t).frames =
        [.giveUp l, .leave saved, .call (.down x), .signaled l])
      (has : s.Has t l)
  | returns {l : Lock} (waits : mayWait = true)
      (frames : (s.activity t).frames = [.call (.acquire l)])
      (unheld : s.table.holder? l.id ≠ some t)

theorem committed_of_all {frames : List Frame} (now : (s.activity t).frames = frames)
    (settled : frames.all (Frame.settled false) = true) : Committed s t mayWait := by
  have waits : false = true → mayWait = true := nofun
  exact .settled waits (now.trans (List.append_nil _).symm) settled .ends

theorem committed_of_up {x : SemaphoreId} {frames : List Frame}
    (now : (s.activity t).frames = .up x :: frames)
    (settled : frames.all (Frame.settled false) = true) (inside : s.phase = .within t)
    (empty : s.kernel.permits x = 0) : Committed s t mayWait := by
  have waits : false = true → mayWait = true := nofun
  exact .raises waits (now.trans (by rw [List.append_nil])) settled .ends inside empty

/-- Where a call is committed the next stretch is not refused. -/
theorem Committed.refusal? (committed : Committed s t mayWait)
    (busy : (s.activity t).frames = head :: rest)
    (outside : mayWait = true → s.kernel.inInterrupt = false) :
    head.refusal? t (s.kernelAt t) = none := by
  have barred : ∀ call, mayWait = true → (s.kernelAt t).barsWait call = none :=
    fun call waits => Kernel.barsWait_eq_none.mpr (outside waits)
  cases committed with
  | @settled inWait above below waits frames settled returns =>
    cases above with
    | nil =>
      cases returns with
      | ends => cases busy.symm.trans frames
      | lock =>
        cases busy.symm.trans frames
        rfl
    | cons first others =>
      cases busy.symm.trans frames
      have here := (List.all_eq_true.mp settled) head List.mem_cons_self
      match head, here with
      | .down _, _ | .downQueued _, _ | .check, _ | .signal _, _ | .broadcast _, _ | .leave _, _ =>
        rfl
      | .call (.down _), inWait => exact barred .down (waits inWait)
  | raises waits frames settled returns inside empty =>
    cases busy.symm.trans frames
    exact if_pos (Nat.lt_of_le_of_lt (Nat.le_of_eq empty) (by decide))
  | tries frames unheld =>
    rcases frames with frames | frames
    · cases busy.symm.trans frames
      exact if_neg unheld
    · cases busy.symm.trans frames
      rfl
  | registered waits frames has =>
    cases busy.symm.trans frames
    rfl
  | releases waits frames has =>
    cases busy.symm.trans frames
    exact if_pos has.held
  | returns waits frames unheld =>
    cases busy.symm.trans frames
    exact barred .acquire waits

section Stretch

variable (reachable : Reachable rule s) (allowed : s.Allowed (.go t))
  (busy : (s.activity t).frames = head :: rest)
  (advances : Advances t (s.kernelAt t) head kernel progress)
include reachable busy advances

/-- From a settled place the call stays committed. -/
theorem committed_of_settled {above below : List Frame} (waits : inWait = true → mayWait = true)
    (is : rest = above ++ below) (here : head.settled inWait = true)
    (settled : above.all (Frame.settled inWait) = true) (returns : s.Returns t inWait below) :
    Committed (after s t rest kernel progress) t mayWait := by
  subst is
  obtain ⟨same, onward⟩ := advances.settled here
  have returns' : (after s t (above ++ below) kernel progress).Returns t inWait below :=
    returns.of_table same
  rcases onward with onward | ⟨c, first, next, delists, is, onward⟩
  · refine .settled waits (frames_after_self.trans (List.append_assoc ..).symm) ?_ returns'
    rw [List.all_append, onward, settled]
    rfl
  · have unspent := reachable.unspent (delists.taken.mem_iff.mp List.mem_cons_self)
    obtain ⟨-, inside⟩ := raises_after reachable.orderly busy delists
    have permits : kernel.permits first.semaphore = s.kernel.permits first.semaphore := by
      have at_ := delists.signals
      cases advances with
      | signals | broadcasts | signalsNobody | broadcastsNobody => rfl
      | opens | waits | takes | queues | retries | acquires | registers | reacquires | raises
      | wakes | checks | givesUp | holds | returns | leaves => rcases at_ with ⟨⟨⟩⟩ | ⟨⟨⟩⟩
    have frames : ((after s t (above ++ below) kernel progress).activity t).frames =
        .up first.semaphore :: ((next ++ above) ++ below) := by
      rw [frames_after_self, is, List.cons_append, List.append_assoc]
    refine .raises waits frames ?_ returns' inside (permits.trans unspent.permits)
    rw [List.all_append, onward, settled]
    rfl

/-- A thread that has given up a lock goes on to add its permit, of which there is none. -/
theorem raises_of_givesUp (allowed : s.Allowed (.go t)) (is : head = .giveUp l) :
    progress.frames = [.up l.semaphore] ∧
      (after s t rest kernel progress).phase = .within t ∧
      kernel.permits l.semaphore = 0 ∧ kernel.table.holder? l.id ≠ some t := by
  subst is
  have orderly := reachable.orderly
  have mem : l ∈ s.locks := (fine_of_busy orderly busy rfl).1
  have frames : progress.frames = [.up l.semaphore] := by
    cases advances
    rfl
  have orderly' : Orderly (after s t rest kernel progress) :=
    (Moved.went busy advances).orderly orderly allowed
  have here : (after s t rest kernel progress).at? t = some (.up l.semaphore) := by
    rw [at?_after_self, frames]
    rfl
  obtain ⟨inside, free, empty⟩ := orderly'.balanced.raising t l mem here
  have unheld : kernel.table.holder? l.id = none := free
  exact ⟨frames, inside, empty, by rw [unheld]; exact nofun⟩

include allowed in
/-- A stretch leaves a call committed. -/
theorem committed_after (committed : Committed s t mayWait) :
    Committed (after s t rest kernel progress) t mayWait := by
  have orderly := reachable.orderly
  have frames : ((after s t rest kernel progress).activity t).frames = progress.frames ++ rest :=
    frames_after_self
  have holder := holder_after orderly busy allowed.1 allowed.2.1 advances
  cases committed with
  | @settled inWait above below waits now settled returns =>
    cases above with
    | nil =>
      cases returns with
      | ends => cases busy.symm.trans now
      | lock unheld =>
        cases busy.symm.trans now
        cases advances
        exact .returns (waits rfl) frames unheld
    | cons first others =>
      cases busy.symm.trans now
      rw [List.all_cons, Bool.and_eq_true] at settled
      exact committed_of_settled reachable busy advances waits rfl settled.1 settled.2 returns
  | @raises inWait x above below waits now settled returns =>
    cases busy.symm.trans now
    cases advances with
    | raises | wakes =>
      have now : ((after s t _ _ _).activity t).frames = (.check :: above) ++ below := frames
      exact .settled waits now settled (returns.of_table rfl)
  | tries now unheld =>
    rcases now with now | now
    · cases busy.symm.trans now
      cases advances with
      | acquires => exact committed_of_all frames rfl
      | registers =>
        refine .tries (Or.inr frames) fun held => unheld ((holder _).symm.trans held)
    · cases busy.symm.trans now
      cases advances
      exact .tries (Or.inl frames) unheld
  | registered waits now has =>
    cases busy.symm.trans now
    cases advances with
    | opens opening =>
      cases opening
      exact .releases waits frames (has.after rfl)
  | @releases l x saved waits now has =>
    cases busy.symm.trans now
    obtain ⟨is, inside, empty, unheld⟩ := raises_of_givesUp reachable busy advances allowed rfl
    have onward : [Frame.leave saved, .call (.down x), .signaled l] =
        [Frame.leave saved, .call (.down x)] ++ [.signaled l] := rfl
    exact .raises (fun _ => waits) (frames.trans (by rw [is, onward, List.singleton_append])) rfl
      (.lock unheld) inside empty
  | returns waits now unheld =>
    cases busy.symm.trans now
    cases advances with
    | opens opening =>
      cases opening
      exact .tries (Or.inl frames) unheld

end Stretch

/-- What others do leaves a call committed. -/
theorem Committed.aside (committed : Committed s t mayWait) (reachable : Reachable rule s)
    (allowed : s.Allowed move) (ends : perform move s = ⟨.ok (), s', events⟩)
    (busy : (s.activity t).frames ≠ []) (other : move ≠ .go t) : Committed s' t mayWait := by
  have orderly := reachable.orderly
  have moved := reachable.moved allowed ends
  rcases moved.frames_eq_or_removed allowed busy other with same | ⟨-, gone⟩
  · have unheld : ∀ {id}, s.table.holder? id ≠ some t → s'.table.holder? id ≠ some t :=
      moved.unheld orderly allowed busy other
    have returns' : ∀ {inWait below}, s.Returns t inWait below → s'.Returns t inWait below := by
      rintro _ _ (_ | away)
      · exact .ends
      · exact .lock (unheld away)
    have keeps : ∀ {l}, s.Has t l → s'.Has t l := fun has =>
      has.keeps orderly allowed ends fun gives => other gives.1
    cases committed with
    | settled waits frames settled returns =>
      exact .settled waits (same.trans frames) settled (returns' returns)
    | raises _ _ _ _ inside => exact absurd (eq_go_of_within allowed inside) other
    | tries frames away => exact .tries (same ▸ frames) (unheld away)
    | registered waits frames has => exact .registered waits (same.trans frames) (keeps has)
    | releases waits frames has => exact .releases waits (same.trans frames) (keeps has)
    | returns waits frames away => exact .returns waits (same.trans frames) (unheld away)
  · exact committed_of_all gone rfl

/-- A call stays committed until it is over. -/
theorem Committed.along {path : List Made} (committed : Committed s t mayWait)
    (reachable : Reachable anyMove s) (leads : Path s path s')
    (busy : ∀ made ∈ path, (made.before.activity t).frames ≠ []) : Committed s' t mayWait := by
  induction leads with
  | rest => exact committed
  | @move s s' s'' move events path allowed ends _ ih =>
    refine ih ?_ (.move reachable allowed trivial ends)
      fun made later => busy made (List.mem_cons_of_mem _ later)
    by_cases self : move = .go t
    · subst self
      cases reachable.moved allowed ends with
      | went now advances => exact committed_after reachable allowed now advances committed
    · exact committed.aside reachable allowed ends (busy _ List.mem_cons_self) self

end System

end KernelSync
