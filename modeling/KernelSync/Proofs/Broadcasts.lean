import KernelSync.Proofs.MostUrgent
import KernelSync.Proofs.MutualExclusion
import KernelSync.Proofs.WakeOrder

/-!
Broadcasts on a condition variable that is always used with the same lock. To register there, and to
take a registration out, one must hold the lock. So while the holder broadcasts nobody else does
either, whoever is woken and whoever runs in between: a broadcast wakes those that are registered when
it is called, the most urgent first, and is over after as many stretches as that takes
(`broadcast_exact`).
-/

namespace KernelSync

/-- Whether a frame has to do with a condition variable. -/
def Frame.concerns (c : CondvarId) : Frame → Bool
  | .call (.wait d _) | .call (.signal d _) | .call (.broadcast d _) | .signal d | .broadcast d =>
      d = c
  | _ => false

/-- Whether a call names the lock `l` if it is one on `c`. -/
def Call.pairs (c : CondvarId) (l : Lock) : Call → Bool
  | .wait d m | .signal d m | .broadcast d m => d ≠ c || m = l
  | _ => true

/-- A stretch from a place that has nothing to do with a condition variable leads to no other. -/
theorem concerns_of_advances {me : ThreadId} {k k' : Kernel} {frame : Frame} {progress : Progress}
    {c : CondvarId} (advances : Advances me k frame k' progress)
    (away : frame.concerns c = false) : ∀ f ∈ progress.frames, f.concerns c = false := by
  cases advances with
  | @opens call frames opening =>
    cases call with
    | wait => cases opening
    | down | up | acquire | release =>
      cases opening
      simp [Frame.concerns]
    | signal d lock | broadcast d lock =>
      cases opening
      have apart : d ≠ c := of_decide_eq_false away
      simp [Frame.concerns, apart]
  | @broadcasts d =>
    have apart : d ≠ c := of_decide_eq_false away
    simp [Frame.concerns, apart]
  | waits | takes | queues | retries | acquires | registers | reacquires | raises | wakes | checks
  | givesUp | holds | signalsNobody | signals | broadcastsNobody | returns | leaves =>
    simp [Frame.concerns]

/-- No deed but a claim of its own makes a thread the holder of a lock. -/
theorem Change.unheld {mode : SchedulingMode} {table after : ThreadTable} {deed : Deed}
    {id : LockId} {t : ThreadId} (change : Change mode table deed after)
    (sound : Sound table) (apart : ∀ lock, deed ≠ .claim lock t)
    (unheld : table.holder? id ≠ some t) : after.holder? id ≠ some t := by
  rw [change.holder? sound id]
  cases deed with
  | claim lock u =>
    unfold Deed.holder?
    dsimp only
    split
    · exact fun same => apart lock (Option.some.inj same ▸ rfl)
    · exact unheld
  | giveUp lock u =>
    unfold Deed.holder?
    dsimp only
    split
    · exact nofun
    · exact unheld
  | rest | register | spawn | remove | setBase | setEffective => exact unheld

namespace System

variable {s s' : System} {t u : ThreadId} {move : Move} {head : Frame} {rest : List Frame}
  {kernel : Kernel} {progress : Progress} {c : CondvarId} {l : Lock} {events : List Event}
  {path : List Made} {w : Waiter}

/-! ### Calls with one lock -/

/-- Allows calls on `c` with the lock `l` alone. -/
def paired (c : CondvarId) (l : Lock) : Rule
  | _, .call _ made => made.pairs c l = true
  | _, _ => True

instance : (s : System) → (move : Move) → Decidable (paired c l s move)
  | _, .call _ made => inferInstanceAs (Decidable (made.pairs c l = true))
  | _, .newSemaphore _ | _, .newLock | _, .newCondvar | _, .spawn _ _ | _, .remove _
  | _, .setBase _ _ | _, .setEffective _ _ | _, .interrupt _ | _, .short _ _ | _, .go _ =>
    instDecidableTrue

/-- A thread has the lock. -/
structure Has (s : System) (u : ThreadId) (l : Lock) : Prop where
  mem : l ∈ s.locks
  held : s.table.holder? l.id = some u

/-- Where a thread stands with a condition variable: it has nothing to do with it; or it is about to
make a call on it, or to show that it has the lock; or it has the lock, and signals or broadcasts. -/
inductive Stands (s : System) (u : ThreadId) (c : CondvarId) (l : Lock) : Prop where
  | away (away : ∀ f ∈ (s.activity u).frames, f.concerns c = false)
  | about {made : Call} (frames : (s.activity u).frames = [.call made])
      (pairs : made.pairs c l = true)
  | claims {purpose : CondvarCall} {last : Frame} {saved : Nat}
      (frames : (s.activity u).frames = [.claim purpose l, last, .leave saved])
      (last : last = .signal c ∨ last = .broadcast c)
  | signals {saved : Nat} (frames : (s.activity u).frames = [.signal c, .leave saved])
      (has : s.Has u l)
  | broadcasts {above : List Frame} {saved : Nat}
      (frames : (s.activity u).frames = above ++ [.broadcast c, .leave saved])
      (above : above = [] ∨ (∃ x, above = [.up x]) ∨ above = [.check]) (has : s.Has u l)

section Stretch

variable (orderly : Orderly s) (busy : (s.activity t).frames = head :: rest)
  (advances : Advances t (s.kernelAt t) head kernel progress)

/-- A stretch that leaves the thread table alone leaves the lock with whoever has it. -/
theorem Has.after (has : s.Has u l) (same : kernel.table = s.table) :
    (after s t rest kernel progress).Has u l :=
  ⟨has.mem, (congrArg (·.holder? l.id) same).trans has.held⟩

include orderly busy advances in
/-- To go on with a call on a condition variable one has shown that one has the lock. -/
theorem stands_after (stands : Stands s t c l) : Stands (after s t rest kernel progress) t c l := by
  have frames : ((after s t rest kernel progress).activity t).frames = progress.frames ++ rest :=
    frames_after_self
  have leaves : (∀ f ∈ progress.frames ++ rest, f.concerns c = false) →
      Stands (after s t rest kernel progress) t c l := fun away => .away (frames ▸ away)
  cases stands with
  | away away =>
    refine leaves fun f mem => ?_
    rcases List.mem_append.mp mem with new | below
    · exact concerns_of_advances advances (away head (busy ▸ List.mem_cons_self)) f new
    · exact away f (busy ▸ List.mem_cons_of_mem _ below)
  | @about made now pairs =>
    cases busy.symm.trans now
    cases advances with
    | waits => exact leaves (by simp [Frame.concerns])
    | opens opening =>
      cases made with
      | wait => cases opening
      | down | up | acquire | release =>
        cases opening
        exact leaves (by simp [Frame.concerns])
      | signal d m | broadcast d m =>
        cases opening
        by_cases here : d = c
        · subst here
          obtain rfl : m = l := by simpa [Call.pairs] using pairs
          exact .claims frames (by simp)
        · exact leaves (by simp [Frame.concerns, here])
  | claims now last =>
    have mem : l ∈ s.locks :=
      orderly.fine t (.claim _ l) (by rw [now]; exact List.mem_cons_self)
    cases busy.symm.trans now
    cases advances with
    | holds held =>
      have has : s.Has t l := ⟨mem, held⟩
      rcases last with rfl | rfl
      · exact .signals frames (has.after rfl)
      · exact .broadcasts frames (Or.inl rfl) (has.after rfl)
  | signals now has =>
    cases busy.symm.trans now
    cases advances with
    | signalsNobody | signals => exact leaves (by simp [Frame.concerns])
  | broadcasts now above has =>
    rcases above with rfl | ⟨x, rfl⟩ | rfl
    · cases busy.symm.trans now
      cases advances with
      | broadcastsNobody => exact leaves (by simp [Frame.concerns])
      | broadcasts => exact .broadcasts frames (Or.inr (Or.inl ⟨_, rfl⟩)) (has.after rfl)
    · cases busy.symm.trans now
      cases advances with
      | raises | wakes => exact .broadcasts frames (Or.inr (Or.inr rfl)) (has.after rfl)
    · cases busy.symm.trans now
      cases advances with
      | checks => exact .broadcasts frames (Or.inl rfl) (has.after rfl)

end Stretch

/-- Where a thread stands does not depend on what others do, as long as it keeps the lock. -/
theorem Stands.aside (stands : Stands s u c l)
    (same : (s'.activity u).frames = (s.activity u).frames) (keeps : s.Has u l → s'.Has u l) :
    Stands s' u c l := by
  cases stands with
  | away away => exact .away (same ▸ away)
  | about frames pairs => exact .about (same.trans frames) pairs
  | claims frames last => exact .claims (same.trans frames) last
  | signals frames has => exact .signals (same.trans frames) (keeps has)
  | broadcasts frames above has => exact .broadcasts (same.trans frames) above (keeps has)

section Step

variable (orderly : Orderly s) (allowed : s.Allowed move)
  (ends : perform move s = ⟨.ok (), s', events⟩)
include orderly allowed ends

/-- What others do leaves the lock with whoever has it. -/
theorem Has.keeps (has : s.Has u l) (keeps : ¬ Made.GivesUp ⟨s, move, s'⟩ l u) : s'.Has u l :=
  ⟨(moved_of_ok orderly.quiet orderly.sound.arena allowed ends).mem_locks has.mem,
    holder_keeps orderly allowed ends has.mem has.held keeps⟩

theorem stands_step (obeys : paired c l s move) (stands : ∀ u, Stands s u c l) (u : ThreadId) :
    Stands s' u c l := by
  have moved := moved_of_ok orderly.quiet orderly.sound.arena allowed ends
  have other : move ≠ .go u → (s'.activity u).frames = (s.activity u).frames →
      Stands s' u c l := fun other same =>
    (stands u).aside same fun has => has.keeps orderly allowed ends fun gives => other gives.1
  cases moved with
  | newSemaphore | newLock | newCondvar | spawned | full | rebased | reranked | interrupt
  | answered => exact other nofun rfl
  | @removed t =>
    by_cases here : u = t
    · refine .away fun f mem => ?_
      rw [show ((become _ t {}).activity u).frames = [] from
        congrArg Activity.frames (if_pos here)] at mem
      exact nomatch mem
    · exact other nofun (congrArg Activity.frames (if_neg here))
  | @called t made =>
    by_cases here : u = t
    · exact .about (congrArg Activity.frames (if_pos here)) obeys
    · exact other nofun (congrArg Activity.frames (if_neg here))
  | @went t head rest kernel progress busy advances =>
    by_cases here : u = t
    · subst here
      exact stands_after orderly busy advances (stands u)
    · exact other (fun same => here (Move.go.inj same).symm) (frames_after_of_ne here)

end Step

theorem Reachable.stands (reachable : Reachable (paired c l) s) (u : ThreadId) :
    Stands s u c l := by
  induction reachable generalizing u with
  | start small => exact .away fun f mem => nomatch mem
  | move before allowed obeys ends ih => exact stands_step before.orderly allowed ends obeys ih u

/-- Whoever signals, alone or as part of a broadcast, has the lock. -/
theorem Stands.has (stands : Stands s u c l)
    (here : s.at? u = some (.signal c) ∨ s.at? u = some (.broadcast c)) : s.Has u l := by
  obtain ⟨frame, is, at_⟩ : ∃ frame, (frame = .signal c ∨ frame = .broadcast c) ∧
      s.at? u = some frame := by
    rcases here with here | here
    · exact ⟨_, Or.inl rfl, here⟩
    · exact ⟨_, Or.inr rfl, here⟩
  obtain ⟨below, busy⟩ := busy_of_at? at_
  cases stands with
  | away away =>
    have none := away frame (busy ▸ List.mem_cons_self)
    rcases is with rfl | rfl
    · simp [Frame.concerns] at none
    · simp [Frame.concerns] at none
  | about frames =>
    cases busy.symm.trans frames
    simp at is
  | claims frames =>
    cases busy.symm.trans frames
    simp at is
  | signals frames has => exact has
  | broadcasts frames above has => exact has

/-- Whoever is about to wait does so with the lock. -/
theorem Stands.lock_eq {m : Lock} (stands : Stands s u c l)
    (here : s.at? u = some (.call (.wait c m))) : m = l := by
  obtain ⟨below, busy⟩ := busy_of_at? here
  cases stands with
  | away away =>
    have none := away (.call (.wait c m)) (busy ▸ List.mem_cons_self)
    simp [Frame.concerns] at none
  | about frames pairs =>
    cases busy.symm.trans frames
    simpa [Call.pairs] using pairs
  | claims frames => cases busy.symm.trans frames
  | signals frames => cases busy.symm.trans frames
  | broadcasts frames above =>
    rcases above with rfl | ⟨x, rfl⟩ | rfl
    · cases busy.symm.trans frames
    · cases busy.symm.trans frames
    · cases busy.symm.trans frames

/-- A thread has the lock with which it begins to wait. -/
theorem Moved.held_of_waits {m : Lock} (moved : Moved s (.go u) s')
    (here : s.at? u = some (.call (.wait c m))) : s.table.holder? m.id = some u := by
  obtain ⟨below, busy⟩ := busy_of_at? here
  cases moved with
  | went frames advances =>
    cases busy.symm.trans frames
    cases advances with
    | opens opening => cases opening
    | waits held => exact held

/-- While one thread has the lock no other changes who is registered. -/
theorem waiters_of_other (reachable : Reachable (paired c l) s) (allowed : s.Allowed move)
    (ends : perform move s = ⟨.ok (), s', events⟩) (has : s.Has t l) (other : move ≠ .go t) :
    s'.kernel.waiters c = s.kernel.waiters c := by
  have moved := reachable.moved allowed ends
  rcases moved.waiters reachable.orderly reachable.waitsBegin with
    ⟨d, m, w, registers⟩ | ⟨d, w, signals⟩ | same
  · by_cases here : c = d
    · subst here
      obtain rfl : move = .go w.thread := registers.move
      obtain rfl := (reachable.stands w.thread).lock_eq registers.here
      obtain rfl := Option.some.inj ((moved.held_of_waits registers.here).symm.trans has.held)
      exact absurd rfl other
    · exact registers.others c here
  · by_cases here : c = d
    · subst here
      obtain ⟨u, is, at_, -⟩ := signals.move
      obtain rfl : move = .go u := is
      have held := ((reachable.stands u).has at_).held
      obtain rfl := Option.some.inj (held.symm.trans has.held)
      exact absurd rfl other
    · exact signals.others c here
  · exact same c

/-! ### Stretches of a broadcast -/

/-- Where a thread is in a broadcast, and how many stretches are left to it: three for each
registration, and those around them. -/
inductive Broadcasting (s : System) (t : ThreadId) (c : CondvarId) (l : Lock) : Nat → Prop where
  | called (frames : (s.activity t).frames = [.call (.broadcast c l)]) :
      Broadcasting s t c l (3 * (s.kernel.waiters c).length + 4)
  | claims {saved : Nat}
      (frames : (s.activity t).frames = [.claim .broadcast l, .broadcast c, .leave saved]) :
      Broadcasting s t c l (3 * (s.kernel.waiters c).length + 3)
  | looks {saved : Nat} (frames : (s.activity t).frames = [.broadcast c, .leave saved]) :
      Broadcasting s t c l (3 * (s.kernel.waiters c).length + 2)
  | raises {x : SemaphoreId} {saved : Nat}
      (frames : (s.activity t).frames = [.up x, .broadcast c, .leave saved]) :
      Broadcasting s t c l (3 * (s.kernel.waiters c).length + 4)
  | checks {saved : Nat} (frames : (s.activity t).frames = [.check, .broadcast c, .leave saved]) :
      Broadcasting s t c l (3 * (s.kernel.waiters c).length + 3)
  | leaves {saved : Nat} (frames : (s.activity t).frames = [.leave saved])
      (nobody : s.kernel.waiters c = []) : Broadcasting s t c l 1
  | ended (frames : (s.activity t).frames = []) (nobody : s.kernel.waiters c = []) :
      Broadcasting s t c l 0

/-- The move takes a registration on `c` out, one of a thread than which no other that is registered
there has a higher priority. -/
structure Made.TakesMostUrgent (c : CondvarId) (t : ThreadId) (w : Waiter) (made : Made) : Prop where
  move : made.move = .go t
  signals : made.Signals c w
  picks : Picks (fun w : Waiter => Donation.rank made.before.table w.thread)
    (made.before.kernel.waiters c) w (made.after.kernel.waiters c)

/-- The moves of a path take the listed registrations on `c` out, in that order, all of them moves of
`t`, and each time that of a most urgent thread. No other move changes who is registered. -/
inductive TakesOut (c : CondvarId) (t : ThreadId) : List Made → List Waiter → Prop where
  | rest : TakesOut c t [] []
  | aside {made : Made} {path : List Made} {list : List Waiter}
      (same : made.after.kernel.waiters c = made.before.kernel.waiters c)
      (goesOn : TakesOut c t path list) : TakesOut c t (made :: path) list
  | takes {made : Made} {path : List Made} {w : Waiter} {list : List Waiter}
      (takes : made.TakesMostUrgent c t w) (goesOn : TakesOut c t path list) :
      TakesOut c t (made :: path) (w :: list)

section Stretch

variable {left : Nat} (orderly : Orderly s) (busy : (s.activity t).frames = head :: rest)
  (advances : Advances t (s.kernelAt t) head kernel progress)
include orderly busy advances

/-- A stretch brings a broadcast one stretch further, and takes at most one registration out. -/
theorem broadcasting_after (stage : Broadcasting s t c l left) :
    ∃ left', left = left' + 1 ∧ Broadcasting (after s t rest kernel progress) t c l left' ∧
      (kernel.waiters c = s.kernel.waiters c ∨
        ∃ w, Made.TakesMostUrgent c t w ⟨s, .go t, after s t rest kernel progress⟩) := by
  have frames : ((after s t rest kernel progress).activity t).frames = progress.frames ++ rest :=
    frames_after_self
  cases stage with
  | called now =>
    cases busy.symm.trans now
    cases advances with
    | opens opening =>
      cases opening
      exact ⟨_, rfl, .claims frames, Or.inl rfl⟩
  | claims now =>
    cases busy.symm.trans now
    cases advances with
    | holds => exact ⟨_, rfl, .looks frames, Or.inl rfl⟩
  | looks now =>
    cases busy.symm.trans now
    cases advances with
    | broadcastsNobody nobody =>
      have none : s.kernel.waiters c = [] := nobody
      exact ⟨1, by rw [none]; rfl, .leaves frames none, Or.inl rfl⟩
    | @broadcasts _ first others sorted =>
      have delists : Delists (s.kernelAt t) ((s.kernelAt t).setWaiters c others) (.broadcast c)
          ⟨[.up first.semaphore, .broadcast c], .proceed⟩ c first :=
        delists_of_sorted (Or.inr rfl) sorted
      have fewer : (((s.kernelAt t).setWaiters c others).waiters c).length + 1 =
          (s.kernel.waiters c).length := delists.taken.length_eq
      refine ⟨_, ?_, .raises frames, Or.inr ⟨_, rfl, signals_of_delists orderly busy delists,
        picks_of_sort delists.sorted⟩⟩
      rw [← fewer]
      rfl
  | raises now =>
    cases busy.symm.trans now
    cases advances with
    | raises | wakes => exact ⟨_, rfl, .checks frames, Or.inl rfl⟩
  | checks now =>
    cases busy.symm.trans now
    cases advances with
    | checks => exact ⟨_, rfl, .looks frames, Or.inl rfl⟩
  | leaves now nobody =>
    cases busy.symm.trans now
    cases advances with
    | leaves => exact ⟨0, rfl, .ended frames nobody, Or.inl rfl⟩
  | ended now => cases busy.symm.trans now

end Stretch

/-! ### What others do -/

section Others

variable {left : Nat} (moved : Moved s move s') (orderly : Orderly s) (allowed : s.Allowed move)
  (busy : (s.activity t).frames ≠ []) (other : move ≠ .go t)

include moved allowed busy other

/-- Others leave a thread where it is in its call, unless it is removed. -/
theorem Moved.frames_eq_or_removed : (s'.activity t).frames = (s.activity t).frames ∨
    move = .remove t ∧ (s'.activity t).frames = [] := by
  cases moved with
  | newSemaphore | newLock | newCondvar | spawned | full | rebased | reranked | interrupt
  | answered => exact Or.inl rfl
  | @removed u =>
    by_cases here : t = u
    · exact Or.inr ⟨here ▸ rfl, congrArg Activity.frames (if_pos here)⟩
    · exact Or.inl (congrArg Activity.frames (if_neg here))
  | @called u =>
    have apart : t ≠ u := fun same => busy (same ▸ allowed.2.1.2)
    exact Or.inl (congrArg Activity.frames (if_neg apart))
  | @went u head rest kernel progress =>
    exact Or.inl (frames_after_of_ne fun same => other (same ▸ rfl))

/-- A thread that has a lock cannot be removed. -/
theorem Has.frames_eq (has : s.Has t l) : (s'.activity t).frames = (s.activity t).frames := by
  rcases moved.frames_eq_or_removed allowed busy other with same | ⟨rfl, -⟩
  · exact same
  · cases moved with
    | removed loses live idle unheld =>
      exact absurd has.held (ThreadTable.not_holder_of_heldBy_nil unheld)

include orderly in
/-- Nobody else gets a lock for a thread in the middle of a call. -/
theorem Moved.unheld {id : LockId} (unheld : s.table.holder? id ≠ some t) :
    s'.table.holder? id ≠ some t := by
  have keeps : ∀ {deed : Deed} {table : ThreadTable}, Change s.kernel.mode s.table deed table →
      (∀ lock, deed ≠ .claim lock t) → table.holder? id ≠ some t :=
    fun change apart => change.unheld orderly.sound apart unheld
  cases moved with
  | newSemaphore | newLock | newCondvar | full | interrupt | called => exact unheld
  | spawned gains => exact keeps (.spawn gains) nofun
  | removed loses live idle empty => exact keeps (.remove loses idle empty) nofun
  | rebased live => exact keeps (.setBase live) nofun
  | reranked live => exact keeps .setEffective nofun
  | @answered u call kernel answer answers =>
    cases answers with
    | takes | refuses | denies | looks => exact unheld
    | @acquires lock notMine permit claims =>
      have apart : u ≠ t := fun same => busy (same ▸ allowed.2.1.2)
      have change := change_of_grant orderly allowed.1 allowed.2.1 allowed.2.2 permit
      exact keeps change fun lock is => apart (Deed.claim.inj is).2
  | @went u head rest kernel progress busy' advances =>
    have apart : u ≠ t := fun same => other (same ▸ rfl)
    have change := change_after orderly busy' allowed.1 allowed.2.1 advances
    refine keeps change fun lock is => ?_
    unfold Frame.deed at is
    split at is
    · exact nomatch is
    · exact apart (Deed.claim.inj is).2
    · exact nomatch is
    · exact nomatch is

end Others

/-! ### Whole broadcasts -/

section Stage

variable {left : Nat} (stage : Broadcasting s t c l left)
include stage

theorem Broadcasting.aside (same : (s'.activity t).frames = (s.activity t).frames)
    (kept : s'.kernel.waiters c = s.kernel.waiters c) : Broadcasting s' t c l left := by
  cases stage with
  | called frames => exact kept ▸ .called (same.trans frames)
  | claims frames => exact kept ▸ .claims (same.trans frames)
  | looks frames => exact kept ▸ .looks (same.trans frames)
  | raises frames => exact kept ▸ .raises (same.trans frames)
  | checks frames => exact kept ▸ .checks (same.trans frames)
  | leaves frames nobody => exact .leaves (same.trans frames) (kept.trans nobody)
  | ended frames nobody => exact .ended (same.trans frames) (kept.trans nobody)

/-- A broadcast does not give up the lock. -/
theorem Broadcasting.not_givesUp : ¬ Made.GivesUp ⟨s, move, s'⟩ l t := by
  rintro ⟨-, here⟩
  obtain ⟨below, busy⟩ := busy_of_at? here
  cases stage with
  | called frames | claims frames | looks frames | raises frames | checks frames
  | leaves frames | ended frames => exact nomatch busy.symm.trans frames

/-- A broadcast waits nowhere. -/
theorem Broadcasting.awake (queued : Queued s) : (s.activity t).blocked = false := by
  refine queued.not_blocked_of_clear ?_
  cases stage with
  | called frames | claims frames | looks frames | raises frames | checks frames
  | leaves frames | ended frames =>
    rw [frames]
    simp [Frame.mayWait, Call.mayWait]

end Stage

/-- On a path on which the thread that has the lock is in its broadcast, its stretches bring it to
the end, one by one, and nobody but those taken out has gone or come. -/
theorem broadcasting_along {left : Nat} (reachable : Reachable (paired c l) s)
    (leads : Path s path s') (obeys : ∀ made ∈ path, paired c l made.before made.move)
    (busy : ∀ made ∈ path, (made.before.activity t).frames ≠ []) (has : s.Has t l)
    (stage : Broadcasting s t c l left) :
    ∃ left' woken, left = left' + path.countP (·.move = .go t) ∧ Broadcasting s' t c l left' ∧
      TakesOut c t path woken ∧ (woken ++ s'.kernel.waiters c).Perm (s.kernel.waiters c) := by
  induction leads generalizing left with
  | rest => exact ⟨left, [], rfl, stage, .rest, .refl _⟩
  | @move s s' s'' move events path allowed ends goesOn ih =>
    have obeysNow := obeys _ List.mem_cons_self
    have moved := reachable.moved allowed ends
    have next : ∀ {left'}, Broadcasting s' t c l left' → _ := ih (.move reachable allowed obeysNow ends)
      (fun made later => obeys made (List.mem_cons_of_mem _ later))
      (fun made later => busy made (List.mem_cons_of_mem _ later))
      (has.keeps reachable.orderly allowed ends stage.not_givesUp)
    by_cases self : move = .go t
    · subst self
      cases moved with
      | @went _ head rest kernel progress now advances =>
        obtain ⟨mid, rfl, stage', takes⟩ := broadcasting_after reachable.orderly now advances stage
        obtain ⟨left', woken, rfl, last, out, perm⟩ := next stage'
        have count : ∀ after : System, ((⟨s, .go t, after⟩ : Made) :: path).countP
            (·.move = .go t) = path.countP (·.move = .go t) + 1 :=
          fun after => List.countP_cons_of_pos (by simp)
        rcases takes with same | ⟨w, takes⟩
        · exact ⟨left', woken, by rw [count]; rfl, last, .aside same out, same ▸ perm⟩
        · exact ⟨left', w :: woken, by rw [count]; rfl, last, .takes takes out,
            (perm.cons w).trans takes.signals.removed⟩
    · have kept := waiters_of_other reachable allowed ends has self
      have same := has.frames_eq moved allowed (busy _ List.mem_cons_self) self
      obtain ⟨left', woken, rfl, last, out, perm⟩ := next (stage.aside same kept)
      refine ⟨left', woken, ?_, last, .aside kept out, kept ▸ perm⟩
      rw [List.countP_cons_of_neg (by simpa using self)]

/-- A thread that does not have the lock gets no further than to where it would show it. -/
theorem refused_along {bound : Nat} (reachable : Reachable anyMove s) (leads : Path s path s')
    (busy : ∀ made ∈ path, (made.before.activity t).frames ≠ [])
    (unheld : s.table.holder? l.id ≠ some t)
    (stage : (s.activity t).frames = [.call (.broadcast c l)] ∧ bound = 1 ∨
      (∃ saved, (s.activity t).frames = [.claim .broadcast l, .broadcast c, .leave saved]) ∧
        bound = 0) : path.countP (·.move = .go t) ≤ bound := by
  induction leads generalizing bound with
  | rest => exact Nat.zero_le _
  | @move s s' s'' move events path allowed ends goesOn ih =>
    have moved := reachable.moved allowed ends
    have next := fun bound => @ih bound (.move reachable allowed trivial ends)
      (fun made later => busy made (List.mem_cons_of_mem _ later))
    by_cases self : move = .go t
    · subst self
      rw [List.countP_cons_of_pos (by simp)]
      cases moved with
      | @went _ head rest kernel progress now advances =>
        rcases stage with ⟨frames, rfl⟩ | ⟨⟨saved, frames⟩, -⟩
        · cases now.symm.trans frames
          cases advances with
          | opens opening =>
            cases opening
            exact Nat.succ_le_succ (next 0 unheld (Or.inr ⟨⟨_, frames_after_self⟩, rfl⟩))
        · cases now.symm.trans frames
          cases advances with
          | holds held => exact absurd held unheld
    · have busyNow := busy _ List.mem_cons_self
      rw [List.countP_cons_of_neg (by simpa using self)]
      rcases moved.frames_eq_or_removed allowed busyNow self with same | ⟨-, gone⟩
      · exact next bound (moved.unheld reachable.orderly allowed busyNow self unheld) (same ▸ stage)
      · cases goesOn with
        | rest => exact Nat.zero_le _
        | move => exact absurd gone (busy _ (List.mem_cons_of_mem _ List.mem_cons_self))

/-- To take registrations out is not to add any. -/
theorem TakesOut.not_registers {woken : List Waiter} (out : TakesOut c t path woken) :
    ∀ made ∈ path, ∀ m w, ¬ made.Registers c m w := by
  induction out with
  | rest => exact List.forall_mem_nil _
  | @aside made path woken same goesOn ih =>
    refine List.forall_mem_cons.mpr ⟨fun m w registers => ?_, ih⟩
    have longer := congrArg List.length (registers.added.symm.trans same)
    simp at longer
  | @takes made path w woken takes goesOn ih =>
    refine List.forall_mem_cons.mpr ⟨fun m w registers => ?_, ih⟩
    have shorter := takes.signals.removed.length_eq
    rw [registers.added] at shorter
    simp at shorter
    omega

theorem Broadcasting.ended_iff {left : Nat} (stage : Broadcasting s t c l left) :
    (s.activity t).frames = [] ↔ left = 0 := by
  cases stage with
  | called frames | claims frames | looks frames | raises frames | checks frames
  | leaves frames => simp [frames]
  | ended frames => simp [frames]

/-- In the move a thread adds a permit to a semaphore. -/
structure Made.AddsPermit (t : ThreadId) (x : SemaphoreId) (made : Made) : Prop where
  move : made.move = .go t
  here : made.before.at? t = some (.up x)
  added : made.after.kernel.permits x = made.before.kernel.permits x + 1

/-- Whoever is in a section about to add a permit does so in the next move. -/
theorem addsPermit_next {rule : Rule} {next : Made} {x : SemaphoreId} (reachable : Reachable rule s)
    (leads : Path s (next :: path) s') (raises : s.at? t = some (.up x))
    (inside : s.phase = .within t) : next.AddsPermit t x := by
  cases leads with
  | @move _ s' _ move events _ allowed ends =>
    have moved := reachable.moved allowed ends
    obtain rfl := eq_go_of_within allowed inside
    obtain ⟨below, busy⟩ := busy_of_at? raises
    have present : x.index < s.kernel.semaphores.length := by
      rcases (fine_of_busy reachable.orderly busy rfl).1 with spare | ⟨lock, mem, rfl⟩
      · exact spare.1
      · exact reachable.orderly.furnished.lock_index lock mem
    refine ⟨rfl, raises, ?_⟩
    cases moved with
    | went now advances =>
      cases busy.symm.trans now
      cases advances with
      | raises | wakes =>
        exact congrArg Semaphore.count (Kernel.semaphore_setSemaphore_self present)

/-- A broadcast wakes just those that wait when it is called, on every run on which calls on the
condition variable name one lock, whoever runs in between. It is refused unless its caller has the
lock. Else it waits nowhere, and is over after three stretches for each that was registered and four
around them. Until then nobody registers; those registered are taken out one by one, each time one of
a most urgent thread, for whom the next move adds a permit; and when it is over all of them have been
taken out, each once, and nobody is left. -/
theorem broadcast_exact {capacity : Nat} {mode : SchedulingMode} {earlier later : List Made}
    {called : Made} (small : capacity ≤ ThreadTable.maxCapacity)
    (leads : Path (start capacity mode) (earlier ++ called :: later) s)
    (obeys : ∀ m ∈ earlier ++ called :: later, paired c l m.before m.move)
    (is : called.move = .call t (.broadcast c l))
    (during : ∀ m ∈ later, (m.before.activity t).frames ≠ []) :
    (called.before.table.holder? l.id ≠ some t → later.countP (·.move = .go t) ≤ 1) ∧
    (called.before.table.holder? l.id = some t →
      (s.activity t).blocked = false ∧
      later.countP (·.move = .go t) ≤ 3 * (called.before.kernel.waiters c).length + 4 ∧
      ((s.activity t).frames = [] ↔
        later.countP (·.move = .go t) = 3 * (called.before.kernel.waiters c).length + 4) ∧
      (∀ m ∈ later, ∀ lock w, ¬ m.Registers c lock w) ∧
      (∀ front m next back w, later = front ++ m :: next :: back → m.TakesMostUrgent c t w →
        next.AddsPermit t w.semaphore) ∧
      ∃ woken, TakesOut c t later woken ∧
        (woken ++ s.kernel.waiters c).Perm (called.before.kernel.waiters c) ∧
        ((s.activity t).frames = [] → s.kernel.waiters c = [] ∧
          woken.length = (called.before.kernel.waiters c).length)) := by
  have started : Reachable (paired c l) (start capacity mode) := .start small
  obtain ⟨before, allowed, events, ends⟩ := leads.ends_of_mem started obeys called (by simp)
  have after : Reachable (paired c l) called.after := .move before allowed (obeys _ (by simp)) ends
  have goesOn := leads.cut.2
  have obeysLater : ∀ m ∈ later, paired c l m.before m.move := fun m mem => obeys m (by simp [mem])
  obtain ⟨before', move, after'⟩ := called
  obtain rfl : move = .call t (.broadcast c l) := is
  have moved : Moved before' (.call t (.broadcast c l)) after' := before.moved allowed ends
  cases moved with
  | called =>
    dsimp only
    have frames : ((before'.become t { before'.activity t with
        frames := [.call (.broadcast c l)] }).activity t).frames = [.call (.broadcast c l)] :=
      congrArg Activity.frames (if_pos rfl)
    refine ⟨fun unheld => refused_along after.any goesOn during unheld (Or.inl ⟨frames, rfl⟩),
      fun held => ?_⟩
    have has : Has (before'.become t { before'.activity t with
        frames := [.call (.broadcast c l)] }) t l := ⟨allowed.2.2.2, held⟩
    obtain ⟨left, woken, count, stage, out, perm⟩ :=
      broadcasting_along after goesOn obeysLater during has (.called frames)
    have whole : 3 * (before'.kernel.waiters c).length + 4 =
        left + later.countP (·.move = .go t) := count
    refine ⟨stage.awake (goesOn.reachable after obeysLater).queued, by omega, ?_,
      out.not_registers, fun front m next back w is takes => ?_, woken, out, perm, fun ended => ?_⟩
    · rw [stage.ended_iff]
      omega
    · subst is
      obtain ⟨reached, allowed, events, ends⟩ := goesOn.ends_of_mem after obeysLater m (by simp)
      obtain ⟨u, is, -, raises, inside⟩ := takes.signals.move
      obtain rfl := Move.go.inj (takes.move.symm.trans is)
      exact addsPermit_next (.move reached allowed (obeysLater m (by simp)) ends) goesOn.cut.2 raises
        inside
    · have nobody : s.kernel.waiters c = [] := by
        cases stage with
        | called now | claims now | looks now | raises now | checks now | leaves now =>
          exact nomatch now.symm.trans ended
        | ended _ nobody => exact nobody
      rw [nobody, List.append_nil] at perm
      exact ⟨nobody, perm.length_eq⟩

/-! A run on which the second thread that waits is woken first, preempts the one that broadcasts, and
waits for the lock. -/

/-- Two threads are registered, and a third has the lock. -/
def twoWait : List Move :=
  [.newLock, .newCondvar, .spawn "first" .standard, .spawn "second" .highest,
    .spawn "broadcaster" .lowest] ++
    calls ⟨0, 0⟩ (.acquire ⟨⟨1⟩, ⟨0⟩⟩) 3 ++ calls ⟨0, 0⟩ (.wait ⟨0⟩ ⟨⟨1⟩, ⟨0⟩⟩) 8 ++
    calls ⟨1, 0⟩ (.acquire ⟨⟨1⟩, ⟨0⟩⟩) 3 ++ calls ⟨1, 0⟩ (.wait ⟨0⟩ ⟨⟨1⟩, ⟨0⟩⟩) 8 ++
    calls ⟨2, 0⟩ (.acquire ⟨⟨1⟩, ⟨0⟩⟩) 3

/-- The third calls a broadcast. -/
def callsBroadcast : Move := .call ⟨2, 0⟩ (.broadcast ⟨0⟩ ⟨⟨1⟩, ⟨0⟩⟩)

/-- The second is woken and goes on until it waits for the lock, and then the broadcast goes on. -/
def preempted : List Move :=
  List.replicate 5 (.go ⟨2, 0⟩) ++ List.replicate 6 (.go ⟨1, 0⟩) ++ List.replicate 5 (.go ⟨2, 0⟩)

/-- Allows what `paired` allows, as long as the third thread is in its call. -/
def whileBroadcasting : Rule := fun s move =>
  paired ⟨0⟩ ⟨⟨1⟩, ⟨0⟩⟩ s move ∧ (s.activity ⟨2, 0⟩).frames ≠ []

instance (s : System) (move : Move) : Decidable (whileBroadcasting s move) :=
  inferInstanceAs (Decidable (_ ∧ _))

/-- The broadcast is over with the fifth stretch after the woken thread has come to wait for the lock,
and has woken both. -/
theorem preempted_broadcast_is_exact : ∃ earlier called later s woken,
    Path (start 3 .priorityDonation) (earlier ++ called :: later) s ∧
      called.move = callsBroadcast ∧ later.map Made.move = preempted ∧
      TakesOut ⟨0⟩ ⟨2, 0⟩ later woken ∧
      woken.Perm [⟨⟨0, 0⟩, ⟨1⟩⟩, ⟨⟨1, 0⟩, ⟨2⟩⟩] ∧ s.kernel.waiters ⟨0⟩ = [] := by
  have plays : (play (paired ⟨0⟩ ⟨⟨1⟩, ⟨0⟩⟩) twoWait (start 3 .priorityDonation)).bind (fun s =>
      (play whileBroadcasting preempted (perform callsBroadcast s).state).map fun s' =>
        decide (s.Allowed callsBroadcast ∧ s.table.holder? ⟨1⟩ = some ⟨2, 0⟩ ∧
          s.kernel.waiters ⟨0⟩ = [⟨⟨0, 0⟩, ⟨1⟩⟩, ⟨⟨1, 0⟩, ⟨2⟩⟩] ∧
          (s'.activity ⟨2, 0⟩).frames = [])) = some true := by
    cbv
  obtain ⟨s, first, plays⟩ := Option.bind_eq_some_iff.mp plays
  obtain ⟨s', second, facts⟩ := Option.map_eq_some_iff.mp plays
  obtain ⟨allowed, held, waiting, ended⟩ := of_decide_eq_true facts
  obtain ⟨earlier, leads, -, obeyed⟩ := exists_path_of_play first
  obtain ⟨later, goesOn, moves, obeys⟩ := exists_path_of_play second
  have whole : Path (start 3 .priorityDonation)
      (earlier ++ ⟨s, callsBroadcast, (perform callsBroadcast s).state⟩ :: later) s' :=
    leads.append (.move allowed rfl goesOn)
  have one : ∀ made ∈ earlier ++ ⟨s, callsBroadcast, (perform callsBroadcast s).state⟩ :: later,
      paired ⟨0⟩ ⟨⟨1⟩, ⟨0⟩⟩ made.before made.move := by
    intro made mem
    rcases List.mem_append.mp mem with before | here
    · exact obeyed made before
    rcases List.mem_cons.mp here with rfl | after
    · exact (rfl : Call.pairs ⟨0⟩ ⟨⟨1⟩, ⟨0⟩⟩ (.broadcast ⟨0⟩ ⟨⟨1⟩, ⟨0⟩⟩) = true)
    · exact (obeys made after).1
  obtain ⟨-, whenHeld⟩ := broadcast_exact (t := ⟨2, 0⟩) (c := ⟨0⟩) (by decide) whole one rfl
    fun made mem => (obeys made mem).2
  obtain ⟨-, -, -, -, -, woken, out, perm, emptied⟩ := whenHeld held
  obtain ⟨nobody, -⟩ := emptied ended
  rw [nobody, List.append_nil, waiting] at perm
  exact ⟨earlier, _, later, s', woken, whole, rfl, moves, out, perm, nobody⟩

end System

end KernelSync
