import KernelSync.Proofs.MoveOutcomes
import KernelSync.Proofs.Signals
import KernelSync.Proofs.WakeUps

/-!
Permits over whole runs. However many threads race for a semaphore, whoever is woken and comes too
late, and wherever the semaphore is used, its permits are those that it was made with, and those
added, less those taken; and each call that takes one takes exactly one (`permits_conserved`).
-/

namespace KernelSync

/-- The semaphore of which a short call takes a permit, if it takes one. -/
def ShortCall.triedAt? : ShortCall → Option SemaphoreId
  | .tryDown x => some x
  | .tryAcquire lock => some lock.semaphore
  | .held _ => none

namespace System

variable {s s' : System} {t : ThreadId} {move : Move} {head : Frame} {rest : List Frame}
  {kernel : Kernel} {progress : Progress} {x : SemaphoreId} {path : List Made}
  {events : List Event}

/-! ### What a move does to permits -/

/-- The thread that takes a permit of `x` in the course of a call: it tries and does not block. -/
def Made.gets? (x : SemaphoreId) (made : Made) : Option ThreadId :=
  (made.tries? x).filter fun t => !(made.after.activity t).blocked

/-- A short call is answered that it has a permit of `x`. -/
def Made.grabs (x : SemaphoreId) (made : Made) : Bool :=
  match made.move with
  | .short t call =>
      call.triedAt? = some x && (call.run t (made.before.kernelAt t)).outcome = .ok true
  | _ => false

/-- A thread adds a permit to `x`. -/
def Made.raises (x : SemaphoreId) (made : Made) : Bool :=
  match made.move with
  | .go t => made.before.at? t = some (.up x)
  | _ => false

/-- What a move does to the permits of a semaphore. -/
inductive Made.Handles (x : SemaphoreId) (made : Made) : Prop where
  | leaves (getsNot : made.gets? x = none) (grabsNot : made.grabs x = false)
      (raisesNot : made.raises x = false)
      (permits : made.after.kernel.permits x = made.before.kernel.permits x)
  | gets {t : ThreadId} (gets : made.gets? x = some t) (grabsNot : made.grabs x = false)
      (raisesNot : made.raises x = false)
      (permits : made.before.kernel.permits x = made.after.kernel.permits x + 1)
  | grabs (getsNot : made.gets? x = none) (grabs : made.grabs x = true)
      (raisesNot : made.raises x = false)
      (permits : made.before.kernel.permits x = made.after.kernel.permits x + 1)
  | raises (getsNot : made.gets? x = none) (grabsNot : made.grabs x = false)
      (raises : made.raises x = true) (room : made.before.kernel.permits x < Semaphore.maxCount)
      (permits : made.after.kernel.permits x = made.before.kernel.permits x + 1)

theorem gets?_of_go (busy : (s.activity t).frames = head :: rest) : Made.gets? x ⟨s, .go t, s'⟩ =
    if head.triedAt? = some x ∧ (s'.activity t).blocked = false then some t else none := by
  unfold Made.gets?
  rw [Made.tries?_of_go busy]
  by_cases tries : head.triedAt? = some x
  · cases blocked : (s'.activity t).blocked <;> simp [tries, blocked]
  · simp [tries]

theorem raises_of_go (busy : (s.activity t).frames = head :: rest) :
    Made.raises x ⟨s, .go t, s'⟩ = decide (head = .up x) := by
  unfold Made.raises
  simp only [at?_of_frames busy, Option.some.injEq]

/-- A permit is added only where there is room for one more. -/
theorem room_of_advances {me : ThreadId} {k k' : Kernel}
    (advances : Advances me k (.up x) k' progress) : k.permits x < Semaphore.maxCount := by
  cases advances with
  | raises room | wakes room => exact room

theorem handles_of_go (orderly : Orderly s) (busy : (s.activity t).frames = head :: rest)
    (advances : Advances t (s.kernelAt t) head kernel progress) :
    Made.Handles x ⟨s, .go t, after s t rest kernel progress⟩ := by
  have gets := @gets?_of_go s (after s t rest kernel progress) t head rest x busy
  have raises := @raises_of_go s (after s t rest kernel progress) t head rest x busy
  have apart : head.triedAt? = some x → head ≠ .up x := by
    rintro tries rfl
    exact nomatch tries
  cases treats_of_advances orderly busy advances x with
  | leaves permits queue notTried notRaised =>
    rw [if_neg (fun both => notTried both.1)] at gets
    rw [decide_eq_false notRaised] at raises
    exact .leaves gets rfl raises permits
  | takes tries permits queue proceeds =>
    have awake : ((after s t rest kernel progress).activity t).blocked = false := by
      simp [after, settle, proceeds]
    rw [if_pos ⟨tries, awake⟩] at gets
    rw [decide_eq_false (apart tries)] at raises
    exact .gets gets rfl raises permits
  | joins tries empty permits queue at_ blocks =>
    have asleep : ((after s t rest kernel progress).activity t).blocked = true := by
      simp [after, settle, blocks]
    rw [if_neg (fun both => Bool.false_ne_true (both.2.symm.trans asleep))] at gets
    rw [decide_eq_false (apart tries)] at raises
    exact .leaves gets rfl raises (permits.trans empty.symm)
  | raises raised permits | wakes raised permits =>
    subst raised
    rw [if_neg (fun both => nomatch both.1)] at gets
    rw [decide_eq_true rfl] at raises
    have room : (s.kernelAt t).permits x < Semaphore.maxCount := room_of_advances advances
    exact .raises gets rfl raises room permits

/-- A short call takes a permit if it says so, and else leaves all permits. -/
theorem handles_of_short {call : ShortCall} (orderly : Orderly s)
    (allowed : s.Allowed (.short t call))
    (ends : perform (.short t call) s = ⟨.ok (), s', events⟩) :
    Made.Handles x ⟨s, .short t call, s'⟩ := by
  rw [short_run] at ends
  rcases ran : call.run t (s.kernelAt t) with ⟨fault | answer, kernel, reported⟩
  · rw [ran] at ends
    cases ends
  rw [ran] at ends
  cases ends
  have grabs : Made.grabs x ⟨s, .short t call, { s with kernel }⟩ =
      decide (call.triedAt? = some x ∧ answer = true) := by
    simp [Made.grabs, ran]
  have taken : ∀ y, y.index < s.kernel.semaphores.length → 0 < s.kernel.permits y →
      kernel.permits x = (s.kernel.permitTaken y).permits x → call.triedAt? = some y →
        answer = true → Made.Handles x ⟨s, .short t call, { s with kernel }⟩ := by
    rintro y present permit left tries rfl
    have permits := Kernel.permits_permitTaken (x := x) present permit
    rw [← left] at permits
    by_cases here : x = y
    · rw [if_pos here] at permits
      exact .grabs rfl (grabs.trans (decide_eq_true ⟨here ▸ tries, rfl⟩)) rfl permits
    · rw [if_neg here] at permits
      refine .leaves rfl (grabs.trans (decide_eq_false fun both => here ?_)) rfl permits.symm
      exact Option.some.inj (both.1.symm.trans tries)
  have quiet : (s.kernelAt t).Quiet := orderly.quiet.withDepth _
  cases answers_of_ok quiet ran with
  | @takes y permit =>
    exact taken y (orderly.furnished.standalone y allowed.2.2).1 permit rfl rfl rfl
  | @acquires lock notMine permit claims =>
    exact taken _ (orderly.furnished.lock_index lock allowed.2.2) permit rfl rfl rfl
  | refuses | denies => exact .leaves rfl (grabs.trans (decide_eq_false (by simp))) rfl rfl
  | looks =>
    exact .leaves rfl (grabs.trans (decide_eq_false (by simp [ShortCall.triedAt?]))) rfl rfl

/-- Whoever tries and gets no permit finds none, leaves it at that, and blocks in the queue. -/
theorem queues_of_late (orderly : Orderly s) (moved : Moved s move s')
    (tries : Made.tries? x ⟨s, move, s'⟩ = some t) (late : Made.gets? x ⟨s, move, s'⟩ = none) :
    s.kernel.permits x = 0 ∧ s'.kernel.permits x = 0 ∧ t ∈ s'.kernel.queue x ∧
      (s'.activity t).blocked = true := by
  cases moved with
  | newSemaphore | newLock | newCondvar | spawned | full | removed | rebased | reranked
  | interrupt | called | answered => exact nomatch tries
  | @went u head rest kernel progress busy advances =>
    rw [Made.tries?_of_go busy] at tries
    rw [gets?_of_go busy] at late
    split at tries
    · rename_i tried
      obtain rfl := Option.some.inj tries
      have asleep : ((after s u rest kernel progress).activity u).blocked = true := by
        by_contra awake
        rw [if_pos ⟨tried, Bool.eq_false_iff.mpr awake⟩] at late
        exact nomatch late
      cases treats_of_advances orderly busy advances x with
      | leaves _ _ notTried => exact absurd tried notTried
      | takes _ _ _ proceeds =>
        rw [blocked_after_self, proceeds] at asleep
        exact nomatch asleep
      | joins _ empty permits queue =>
        exact ⟨empty, permits, queue.mem_iff.mpr List.mem_cons_self, asleep⟩
      | raises raised | wakes raised =>
        subst raised
        exact nomatch tried
    · exact nomatch tries

/-- In these ways a move deals with the permits of a semaphore that is there. -/
theorem handles_of_ok (orderly : Orderly s) (allowed : s.Allowed move)
    (ends : perform move s = ⟨.ok (), s', events⟩)
    (present : x.index < s.kernel.semaphores.length) : Made.Handles x ⟨s, move, s'⟩ := by
  have apart : x ≠ s.kernel.nextSemaphore := by
    rintro rfl
    exact Nat.lt_irrefl _ present
  by_cases short : ∃ t call, move = .short t call
  · obtain ⟨t, call, rfl⟩ := short
    exact handles_of_short orderly allowed ends
  cases moved_of_ok orderly.quiet orderly.sound.arena allowed ends with
  | newSemaphore | newLock => exact .leaves rfl rfl rfl (Kernel.permits_addSemaphore apart)
  | newCondvar | spawned | full | removed | rebased | reranked | interrupt | called =>
    exact .leaves rfl rfl rfl rfl
  | @answered t call => exact absurd ⟨t, call, rfl⟩ short
  | went busy advances => exact handles_of_go orderly busy advances

/-- A semaphore that stands alone goes on to do so. -/
theorem Moved.mem_standalone (moved : Moved s move s') (mem : x ∈ s.standalone) :
    x ∈ s'.standalone := by
  cases moved with
  | newSemaphore => exact List.mem_append_left _ mem
  | newLock | newCondvar | spawned | full | removed | rebased | reranked | interrupt | called
  | answered | went => exact mem

theorem Path.mem_standalone (leads : Path s path s') (reachable : Reachable anyMove s)
    (mem : x ∈ s.standalone) : ∀ made ∈ path, x ∈ made.before.standalone := by
  induction leads with
  | rest => exact List.forall_mem_nil _
  | move allowed ends _ ih =>
    rintro made (_ | ⟨_, later⟩)
    · exact mem
    · exact ih (.move reachable allowed trivial ends)
        ((reachable.moved allowed ends).mem_standalone mem) made later

/-- No semaphore that stands alone comes to have more permits than fit its count. -/
theorem Made.Handles.small {made : Made} (handles : made.Handles x)
    (small : made.before.kernel.permits x ≤ Semaphore.maxCount) :
    made.after.kernel.permits x ≤ Semaphore.maxCount := by
  cases handles with
  | leaves _ _ _ permits => exact permits ▸ small
  | gets _ _ _ permits | grabs _ _ _ permits => omega
  | raises _ _ _ room permits => omega

/-- Over a path the permits that are there and those that have been taken are as many as those that
have been there and those that have been added. -/
theorem permits_of_path (reachable : Reachable anyMove s) (leads : Path s path s')
    (mem : x ∈ s.standalone) (small : s.kernel.permits x ≤ Semaphore.maxCount) :
    s'.kernel.permits x +
        (path.countP (fun made => (made.gets? x).isSome) + path.countP (Made.grabs x)) =
      s.kernel.permits x + path.countP (Made.raises x) ∧
    s'.kernel.permits x ≤ Semaphore.maxCount := by
  induction leads with
  | rest => exact ⟨rfl, small⟩
  | @move s s' s'' move events path allowed ends goesOn ih =>
    have handles := handles_of_ok reachable.orderly allowed ends
      (reachable.orderly.furnished.standalone x mem).1
    obtain ⟨balance, bound⟩ := ih (.move reachable allowed trivial ends)
      ((reachable.moved allowed ends).mem_standalone mem) (handles.small small)
    refine ⟨?_, bound⟩
    simp only [List.countP_cons]
    cases handles with
    | leaves gets grabs raises permits | gets gets grabs raises permits
    | grabs gets grabs raises permits | raises gets grabs raises _ permits =>
      simp only at permits
      simp only [gets, grabs, raises, Option.isSome_none, Option.isSome_some, if_true,
        Bool.false_eq_true, if_false]
      omega

/-! ### Calls that take a permit -/

section Stretch

variable (orderly : Orderly s) (busy : (s.activity t).frames = head :: rest)
  (advances : Advances t (s.kernelAt t) head kernel progress)
include orderly busy advances

/-- A thread gets a permit of a semaphore that serves no lock by the one stretch that gets it past
the semaphore. -/
theorem gets?_eq_some_iff (spare : s.Spare x) :
    Made.gets? x ⟨s, .go t, after s t rest kernel progress⟩ = some t ↔
      head = .down x ∧ progress = ⟨[], .proceed⟩ := by
  rw [gets?_of_go busy]
  constructor
  · intro gets
    split at gets
    · rename_i both
      obtain ⟨tries, awake⟩ := both
      refine ⟨eq_down_of_tried orderly busy spare tries, ?_⟩
      cases treats_of_advances orderly busy advances x with
      | leaves _ _ notTried => exact absurd tries notTried
      | takes _ _ _ proceeds => exact proceeds
      | joins _ _ _ _ _ blocks =>
        have asleep : ((after s t rest kernel progress).activity t).blocked = true :=
          blocked_after_self.mpr (by rw [blocks])
        exact absurd (awake.symm.trans asleep) Bool.false_ne_true
      | raises raised | wakes raised => exact nomatch raised ▸ tries
    · exact nomatch gets
  · rintro ⟨rfl, rfl⟩
    rw [if_pos ⟨rfl, by simp [after, settle]⟩]

/-- A stretch gets its thread past a semaphore just if it gets it a permit. -/
theorem passing_after (spare : s.Spare x) :
    (after s t rest kernel progress).tally t (Frame.passes x) +
        (if Made.gets? x ⟨s, .go t, after s t rest kernel progress⟩ = some t then 1 else 0) =
      s.tally t (Frame.passes x) := by
  rw [tally_after_self, tally_of_busy busy]
  have gets := gets?_eq_some_iff orderly busy advances spare
  rcases advances.passing spare.1 with same | takes
  · rw [if_neg, same, Nat.add_zero]
    rintro got
    obtain ⟨rfl, rfl⟩ := gets.mp got
    simp [Frame.passes] at same
  · rw [if_pos (gets.mpr takes), takes.1, takes.2]
    simp [Frame.passes, Nat.add_comm]

end Stretch

/-- A thread that has called has to get past the semaphore that it calls for. -/
theorem tally_called {call : Call} {activity : Activity} {kind : Frame → Bool}
    (frames : activity.frames = [.call call]) :
    (s.become t activity).tally t kind = if kind (.call call) then 1 else 0 := by
  have now : ((s.become t activity).activity t).frames = [.call call] := by
    simp [become, frames]
  unfold tally
  rw [now, List.countP_singleton]

/-- A call for a permit is over when it has taken one, and not before. -/
theorem passing_of_move (reachable : Reachable anyMove s) (allowed : s.Allowed move)
    (moved : Moved s move s') (mem : x ∈ s.standalone) (stays : move ≠ .remove t) :
    s'.tally t (Frame.passes x) + (if Made.gets? x ⟨s, move, s'⟩ = some t then 1 else 0) =
      s.tally t (Frame.passes x) + if move = .call t (.down x) then 1 else 0 := by
  have orderly := reachable.orderly
  have spare := orderly.furnished.standalone x mem
  cases moved with
  | newSemaphore | newLock | newCondvar | spawned | full | rebased | reranked | interrupt
  | answered => rfl
  | @removed u =>
    have apart : t ≠ u := fun same => stays (same ▸ rfl)
    rw [tally_of_frames (congrArg Activity.frames (if_neg apart))]
    rfl
  | @called u call =>
    have gets : ∀ s', Made.gets? x ⟨s, .call u call, s'⟩ = none := fun _ => rfl
    rw [gets, if_neg (Option.some_ne_none t).symm, Nat.add_zero]
    by_cases self : t = u
    · subst self
      have before : s.tally t (Frame.passes x) = 0 := by
        unfold tally
        rw [allowed.2.1.2]
        rfl
      rw [before, tally_called rfl]
      cases call <;> simp [Frame.passes]
    · rw [tally_of_frames (congrArg Activity.frames (if_neg self))]
      simp [Ne.symm self]
  | @went u head rest kernel progress busy advances =>
    rw [if_neg (by simp : Move.go u ≠ .call t (.down x)), Nat.add_zero]
    by_cases self : t = u
    · subst self
      exact passing_after orderly busy advances spare
    · have gets : Made.gets? x ⟨s, .go u, after s u rest kernel progress⟩ ≠ some t := by
        rw [gets?_of_go busy]
        split
        · exact fun is => self (Option.some.inj is).symm
        · exact (Option.some_ne_none t).symm
      show (after s u rest kernel progress).tally t (Frame.passes x) +
        (if Made.gets? x ⟨s, .go u, after s u rest kernel progress⟩ = some t then 1 else 0) = _
      rw [if_neg gets, tally_after_of_ne self, Nat.add_zero]

/-- Over a path a thread takes as many permits in calls as it calls for, less those that it has yet
to get. -/
theorem passing_of_path (reachable : Reachable anyMove s) (leads : Path s path s')
    (mem : x ∈ s.standalone) (stays : ∀ made ∈ path, made.move ≠ .remove t) :
    s'.tally t (Frame.passes x) + path.countP (fun made => made.gets? x = some t) =
      s.tally t (Frame.passes x) + path.countP (fun made => made.move = .call t (.down x)) := by
  induction leads with
  | rest => rfl
  | @move s s' s'' move events path allowed ends goesOn ih =>
    have moved := reachable.moved allowed ends
    have step := passing_of_move reachable allowed moved mem (stays _ List.mem_cons_self)
    have rest := ih (.move reachable allowed trivial ends) (moved.mem_standalone mem)
      fun made later => stays made (List.mem_cons_of_mem _ later)
    simp only [List.countP_cons, decide_eq_true_eq]
    omega

/-! ### Overflow -/

/-- To leave sections changes how deep the thread is in them, and nothing else. -/
theorem unwind_run (frames : List Frame) (k : Kernel) : ∃ depth events,
    Frame.unwind frames k = ⟨.ok (), { k with depth }, events⟩ ∧
      ∀ e ∈ events, ∃ before after, e = .left before after := by
  induction frames generalizing k with
  | nil => exact ⟨k.depth, [], rfl, List.forall_mem_nil _⟩
  | cons head rest ih =>
    cases head with
    | leave saved =>
      have leaves : Kernel.leave saved k =
          ⟨.ok (), { k with depth := saved }, [.left k.depth saved]⟩ := rfl
      obtain ⟨depth, events, run, left⟩ := ih { k with depth := saved }
      refine ⟨depth, _, (Stretch.bind_run_ok leaves _).trans (by rw [run]), ?_⟩
      rintro e (_ | ⟨_, later⟩)
      · exact ⟨_, _, rfl⟩
      · exact left e later
    | _ => exact ih k

/-- To add a permit where there is no room for it is a fault. It leaves the state as it was, but for
the sections that it leaves: nobody is woken, and all counts and queues stay. -/
theorem go_overflows (quiet : s.kernel.Quiet) (busy : (s.activity t).frames = .up x :: rest)
    (full : s.kernel.permits x = Semaphore.maxCount) : ∃ depth events,
    perform (.go t) s =
        ⟨.error .countOverflow, { s with kernel := { s.kernel with depth } }, events⟩ ∧
      ∀ e ∈ events, ∃ before after, e = .left before after := by
  have noRoom : ¬ ((s.kernelAt t).semaphore x).count < Semaphore.maxCount :=
    Nat.not_lt.mpr (Nat.le_of_eq full.symm)
  have deeper : (s.kernelAt t).Quiet := quiet.withDepth _
  have refuses : Semaphore.release x (s.kernelAt t) =
      ⟨.error .countOverflow, s.kernelAt t, []⟩ := by
    rw [Semaphore.release_run deeper, if_neg noRoom]
  have fails : Frame.advance t (.up x) (s.kernelAt t) =
      ⟨.error .countOverflow, s.kernelAt t, []⟩ := Stretch.bind_run_error refuses _
  obtain ⟨depth, events, unwinds, left⟩ := unwind_run rest (s.kernelAt t)
  refine ⟨depth, events, ?_, left⟩
  rw [go_run busy]
  unfold Stretch.onFault
  rw [fails]
  simp only [unwinds]
  rfl

/-! ### Conservation -/

/-- A semaphore is made with some count. In every state that a run can come to from there, its count
is what it was made with, and the permits that have been added, less those that have been taken:
those that short calls were answered to have, and those that threads took in calls that wait. Such a
call takes one permit, and is over then: a thread has taken as many as it has called for, less those
that it is still to get. To take a permit needs one, and to add one needs room; every other move
leaves the count, also that of a thread that was woken, finds no permit and queues again. And where
the count is at its bound, to add a permit is a fault that leaves counts, queues and threads as they
are. -/
theorem permits_conserved {s₀ s₁ : System} {count : Nat} (reachable : Reachable anyMove s₀)
    (leads : Path s₀ (⟨s₀, .newSemaphore count, s₁⟩ :: path) s) (is : x = s₀.kernel.nextSemaphore) :
    s.kernel.permits x +
        (path.countP (fun made => (made.gets? x).isSome) + path.countP (Made.grabs x)) =
      count + path.countP (Made.raises x) ∧
    s.kernel.permits x ≤ Semaphore.maxCount ∧
    (∀ t, (∀ made ∈ path, made.move ≠ .remove t) →
      s.tally t (Frame.passes x) + path.countP (fun made => made.gets? x = some t) =
        path.countP fun made => made.move = .call t (.down x)) ∧
    (∀ made ∈ path, made.Handles x) ∧
    (∀ made ∈ path, ∀ t, made.tries? x = some t → made.gets? x = none →
      made.before.kernel.permits x = 0 ∧ made.after.kernel.permits x = 0 ∧
        t ∈ made.after.kernel.queue x ∧ (made.after.activity t).blocked = true) ∧
    ∀ t rest, (s.activity t).frames = .up x :: rest →
      s.kernel.permits x = Semaphore.maxCount → ∃ depth events,
        perform (.go t) s =
            ⟨.error .countOverflow, { s with kernel := { s.kernel with depth } }, events⟩ ∧
          ∀ e ∈ events, ∃ before after, e = .left before after := by
  subst is
  cases leads with
  | move allowed ends leads =>
    cases ends
    have created : Reachable anyMove (s₀.withSemaphore count) :=
      .move reachable allowed trivial rfl
    have initial : (s₀.withSemaphore count).kernel.permits s₀.kernel.nextSemaphore = count :=
      Kernel.permits_next
    have alone : s₀.kernel.nextSemaphore ∈ (s₀.withSemaphore count).standalone :=
      List.mem_append_right _ (List.mem_singleton.mpr rfl)
    obtain ⟨balance, small⟩ :=
      permits_of_path created leads alone (Nat.le_trans (Nat.le_of_eq initial) allowed.2)
    rw [initial] at balance
    refine ⟨balance, small, ?_, ?_, ?_, ?_⟩
    · intro t stays
      have passing := passing_of_path created leads alone stays
      have nobody : (s₀.withSemaphore count).tally t (Frame.passes s₀.kernel.nextSemaphore) = 0 :=
        tally_next reachable.orderly (Or.inl rfl)
      rwa [nobody, Nat.zero_add] at passing
    · rintro ⟨before, move, after⟩ mem
      obtain ⟨reached, allowed, events, ends⟩ := leads.ends_of_mem created (fun _ _ => trivial) _ mem
      exact handles_of_ok reached.orderly allowed ends
        (reached.orderly.furnished.standalone _ (leads.mem_standalone created alone _ mem)).1
    · rintro ⟨before, move, after⟩ mem t tries late
      obtain ⟨reached, allowed, events, ends⟩ := leads.ends_of_mem created (fun _ _ => trivial) _ mem
      exact queues_of_late reached.orderly (reached.moved allowed ends) tries late
    · intro t rest busy full
      exact go_overflows (leads.reachable created fun _ _ => trivial).orderly.quiet busy full

/-! Three threads race for one permit: the first blocks, the second adds a permit and wakes it, and
the third takes the permit before the first gets to it. -/

/-- What happens after the semaphore has been made, without a permit. -/
def race : List Move :=
  [.spawn "first" .standard, .spawn "second" .standard, .spawn "third" .standard,
    .call ⟨0, 0⟩ (.down ⟨0⟩), .go ⟨0, 0⟩, .go ⟨0, 0⟩,
    .call ⟨1, 0⟩ (.up ⟨0⟩), .go ⟨1, 0⟩, .go ⟨1, 0⟩, .go ⟨1, 0⟩,
    .short ⟨2, 0⟩ (.tryDown ⟨0⟩), .go ⟨0, 0⟩, .go ⟨0, 0⟩]

/-- The first is in the queue again and has no permit; as many have been taken as added. -/
theorem race_is_balanced : ∃ s₁ path s,
    Path (start 3 .priorityDonation)
        (⟨start 3 .priorityDonation, .newSemaphore 0, s₁⟩ :: path) s ∧
      path.map Made.move = race ∧ s.kernel.permits ⟨0⟩ = 0 ∧
      s.kernel.queue ⟨0⟩ = [⟨0, 0⟩] ∧
      path.countP (fun made => (made.gets? ⟨0⟩).isSome) + path.countP (Made.grabs ⟨0⟩) =
        path.countP (Made.raises ⟨0⟩) ∧
      path.countP (fun made => made.gets? ⟨0⟩ = some ⟨0, 0⟩) = 0 := by
  have plays : (play anyMove (.newSemaphore 0 :: race) (start 3 .priorityDonation)).map
      (fun s => (s.kernel.permits ⟨0⟩, s.kernel.queue ⟨0⟩, s.tally ⟨0, 0⟩ (Frame.passes ⟨0⟩))) =
        some (0, [⟨0, 0⟩], 1) := by
    decide +kernel
  obtain ⟨s, played, facts⟩ := Option.map_eq_some_iff.mp plays
  obtain ⟨empty, queue, waits⟩ : s.kernel.permits ⟨0⟩ = 0 ∧ s.kernel.queue ⟨0⟩ = [⟨0, 0⟩] ∧
      s.tally ⟨0, 0⟩ (Frame.passes ⟨0⟩) = 1 := by
    simpa only [Prod.mk.injEq] using facts
  obtain ⟨whole, leads, moves, -⟩ := exists_path_of_play played
  cases leads with
  | rest => exact nomatch moves
  | @move _ s₁ _ move events path allowed ends goesOn =>
    obtain ⟨rfl, same⟩ := List.cons.inj moves
    have whole : Path (start 3 .priorityDonation)
        (⟨start 3 .priorityDonation, .newSemaphore 0, s₁⟩ :: path) s := .move allowed ends goesOn
    obtain ⟨balance, -, passing, -⟩ := permits_conserved (x := ⟨0⟩) (.start (by decide)) whole rfl
    rw [empty, Nat.zero_add, Nat.zero_add] at balance
    have called : path.countP (fun made => made.move = .call ⟨0, 0⟩ (.down ⟨0⟩)) = 1 := by
      have counts : (path.map Made.move).countP (· = .call ⟨0, 0⟩ (.down ⟨0⟩)) = 1 := by
        rw [same]
        decide
      rwa [List.countP_map] at counts
    have stays : ∀ made ∈ path, made.move ≠ .remove ⟨0, 0⟩ := by
      intro made mem removes
      have here : Move.remove ⟨0, 0⟩ ∈ race := same ▸ List.mem_map.mpr ⟨made, mem, removes⟩
      exact absurd here (by decide)
    have one := passing ⟨0, 0⟩ stays
    rw [waits, called] at one
    exact ⟨s₁, path, s, whole, same, empty, queue, balance, by omega⟩

end System

end KernelSync
