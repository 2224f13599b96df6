import KernelSync.Proofs.Commitment

/-!
Atomicity of refusals. A call is refused before anything of it has been done: in its first stretch,
or in the next one, which nobody else can come in between (`refused_of_path`). What is left of the
system then is what it was when the call began. The same holds of calls that do not wait and of
requests to the thread table.
-/

namespace KernelSync

open Stretch Kernel

variable {me : ThreadId} {k : Kernel} {fault : Fault} {c : Call}

/-! ### First stretches -/

/-- How deep in sections the caller is decides no refusal. -/
theorem Frame.refusal?_withDepth {frame : Frame} {depth : Nat} :
    frame.refusal? me { k with depth } = frame.refusal? me k := by
  cases frame with
  | call made => cases made <;> rfl
  | down | downQueued | acquire | acquireQueued | up | check | giveUp | claim | signal | broadcast
  | signaled | leave => rfl

/-- A call that is not refused at once opens its section. -/
theorem Frame.begin_opens {frames : List Frame} (opening : c.opening = some frames)
    (unrefused : (Frame.call c).refusal? me k = none) : Frame.begin me c k =
      ⟨.ok ⟨frames ++ [.leave k.depth], .proceed⟩, { k with depth := k.depth + 1 },
        [.entered k.depth]⟩ := by
  have mayWait : ∀ call, k.barsWait call = none → requireCanWait call k = ⟨.ok (), k, []⟩ :=
    fun call free => (requireCanWait_run call).trans (if_pos (barsWait_eq_none.mp free))
  cases c with
  | down | acquire =>
    cases opening
    exact bind_run_ok (mayWait _ unrefused) _
  | wait => cases opening
  | up | release | signal | broadcast =>
    cases opening
    rfl

/-- To unwind the first section of a call is to leave it. -/
theorem Frame.unwind_opening {head : Frame} {below : List Frame} {saved : Nat}
    (opening : c.opening = some (head :: below)) :
    Frame.unwind (below ++ [.leave saved]) k =
      ⟨.ok (), { k with depth := saved }, [.left k.depth saved]⟩ := by
  cases c with
  | wait => cases opening
  | down | up | acquire | release | signal | broadcast =>
    cases opening
    rfl

theorem Call.exists_opening (c : Call) : (∃ d l, c = .wait d l) ∨
    ∃ head below, c.opening = some (head :: below) := by
  cases c with
  | wait d l => exact Or.inl ⟨d, l, rfl⟩
  | down | up | acquire | release | signal | broadcast => exact Or.inr ⟨_, _, rfl⟩

/-- What a call is refused with in its first stretch it is refused with. -/
theorem Call.refusal?_of_first (refused : (Frame.call c).refusal? me k = some fault) :
    c.refusal? me k = some fault := by
  rcases c.exists_opening with ⟨d, l, rfl⟩ | ⟨head, below, opens⟩
  · exact refused
  · rw [Call.refusal?_eq_or opens, refused]
    rfl

namespace System

variable {s s' s'' : System} {t u : ThreadId} {move : Move} {head : Frame} {rest : List Frame}
  {path : List Made} {events : List Event}

/-! ### What is left of a call -/

/-- The system as `t` finds it when it runs. -/
def running (s : System) (t : ThreadId) : System := { s with kernel := s.kernelAt t }

/-- The system when the call of `t` is over. -/
def ended (s : System) (t : ThreadId) : System :=
  { s.become t { depth := s.kernel.depth } with phase := .free }

/-- The system when `t` has opened the section of its call. -/
def opened (s : System) (t : ThreadId) (frames : List Frame) : System :=
  after s t [] { s.kernelAt t with depth := (s.activity t).depth + 1 }
    ⟨frames ++ [.leave (s.activity t).depth], .proceed⟩

theorem phase_opened {frames : List Frame} : (s.opened t frames).phase = .within t :=
  phase_after rfl ⟨(s.activity t).depth, by simp⟩

theorem frames_opened {frames : List Frame} :
    ((s.opened t frames).activity t).frames = frames ++ [.leave (s.activity t).depth] := by
  unfold opened
  rw [frames_after_self, List.append_nil]

/-- Systems that differ at most in the call of `t` and in who may move are the same when it is over. -/
theorem ended_congr (kernel : s'.kernel = s.kernel)
    (others : ∀ u, u ≠ t → s'.activity u = s.activity u) (standalone : s'.standalone = s.standalone)
    (locks : s'.locks = s.locks) (issued : s'.issued = s.issued) : s'.ended t = s.ended t := by
  have activity : (s'.become t { depth := s'.kernel.depth }).activity =
      (s.become t { depth := s.kernel.depth }).activity := by
    funext u
    by_cases here : u = t
    · simp [become, here, kernel]
    · simp [become, here, others u here]
  show (⟨s'.kernel, (s'.become t _).activity, s'.standalone, s'.locks, .free, s'.issued⟩ : System) =
    ⟨s.kernel, (s.become t _).activity, s.standalone, s.locks, .free, s.issued⟩
  rw [activity, kernel, standalone, locks, issued]

/-- To leave the section again is to leave everything as it was. -/
theorem ended_opened {frames : List Frame} :
    ended { s.opened t frames with
      kernel := { (s.opened t frames).kernel with depth := (s.activity t).depth } } t =
      (s.running t).ended t := by
  refine ended_congr rfl (fun u apart => ?_) rfl rfl rfl
  simp [opened, after, settle, apart, running]

/-! ### Calls that are refused -/

/-- A stretch that is refused leaves the kernel as it was, but for the sections that it leaves. -/
theorem go_refused {depth : Nat} (quiet : s.kernel.Quiet)
    (busy : (s.activity t).frames = head :: rest)
    (refused : head.refusal? t (s.kernelAt t) = some fault)
    (unwinds : Frame.unwind rest (s.kernelAt t) =
      ⟨.ok (), { s.kernelAt t with depth }, events⟩) :
    ∃ events, perform (.go t) s =
      ⟨.error fault, { s with kernel := { s.kernel with depth } }, events⟩ := by
  have quiet' : (s.kernelAt t).Quiet := quiet.withDepth _
  obtain ⟨reported, run⟩ := Frame.advance_refused quiet' refused
  refine ⟨reported ++ events, ?_⟩
  rw [go_run busy]
  unfold onFault
  rw [run]
  simp only [unwinds]
  rfl

/-- A stretch that ends in a refusal is refused with what bars it, and leaves the kernel as it was, but
for the sections that it leaves. -/
theorem stretch_refused (quiet : s.kernel.Quiet) (busy : (s.activity t).frames = head :: rest)
    (fails : (perform (.go t) s).outcome = .error fault) (refusal : Refusal fault) :
    head.refusal? t (s.kernelAt t) = some fault ∧
      ∃ depth, (perform (.go t) s).state = { s with kernel := { s.kernel with depth } } := by
  have refused : head.refusal? t (s.kernelAt t) = some fault :=
    Frame.refusal_of_advance (quiet.withDepth _) ((go_eq_error_iff busy).mp fails) refusal
  obtain ⟨depth, _, unwinds, -⟩ := unwind_run rest (s.kernelAt t)
  obtain ⟨_, run⟩ := go_refused quiet busy refused unwinds
  exact ⟨refused, depth, congrArg Run.state run⟩

/-- `t` goes on with its call, and is refused: at once, or in the stretch after the one that opens its
section, while it is the only one to move. -/
inductive Refuses (s : System) (t : ThreadId) (fault : Fault) (s' : System) : Prop where
  | atOnce {events : List Event} (fails : perform (.go t) s = ⟨.error fault, s', events⟩)
  | inside {mid : System} {events events' : List Event}
      (enters : perform (.go t) s = ⟨.ok (), mid, events⟩) (alone : mid.phase = .within t)
      (fails : perform (.go t) mid = ⟨.error fault, s', events'⟩)

section Call

variable (frames : (s.activity t).frames = [.call c])
include frames

/-- In its first stretch a call is refused as it is found. -/
theorem go_refused_first (quiet : s.kernel.Quiet)
    (refused : (Frame.call c).refusal? t (s.kernelAt t) = some fault) :
    ∃ events, perform (.go t) s = ⟨.error fault, s.running t, events⟩ := by
  have unwinds : Frame.unwind [] (s.kernelAt t) =
    ⟨.ok (), { s.kernelAt t with depth := (s.activity t).depth }, []⟩ := rfl
  exact go_refused quiet frames refused unwinds

theorem go_opens {opening : List Frame} (opens : c.opening = some opening)
    (unrefused : (Frame.call c).refusal? t (s.kernelAt t) = none) :
    perform (.go t) s = ⟨.ok (), s.opened t opening, [.entered (s.activity t).depth]⟩ := by
  rw [go_run frames]
  unfold onFault
  rw [show (Frame.call c).advance t (s.kernelAt t) = _ from Frame.begin_opens opens unrefused]
  rfl

/-- A breach of the contract is refused, and leaves the system as it was before the call. -/
theorem refuses_of_refusal (quiet : s.kernel.Quiet)
    (refused : c.refusal? t (s.kernelAt t) = some fault) :
    ∃ s', Refuses s t fault s' ∧ s'.ended t = (s.running t).ended t := by
  have atOnce : (Frame.call c).refusal? t (s.kernelAt t) = some fault →
      ∃ s', Refuses s t fault s' ∧ s'.ended t = (s.running t).ended t := by
    intro refused
    obtain ⟨events, fails⟩ := go_refused_first frames quiet refused
    exact ⟨_, .atOnce fails, rfl⟩
  rcases c.exists_opening with ⟨d, l, rfl⟩ | ⟨head, below, opens⟩
  · exact atOnce refused
  rw [Call.refusal?_eq_or opens] at refused
  rcases Option.or_eq_some_iff.mp refused with first | ⟨unrefused, second⟩
  · exact atOnce first
  have quiet' : (s.opened t (head :: below)).kernel.Quiet := quiet.withDepth _
  have busy : ((s.opened t (head :: below)).activity t).frames =
      head :: (below ++ [.leave (s.activity t).depth]) := frames_opened
  have still : head.refusal? t ((s.opened t (head :: below)).kernelAt t) = some fault :=
    (Frame.refusal?_withDepth (k := s.kernel)).trans
      ((Frame.refusal?_withDepth (k := s.kernel)).symm.trans second)
  obtain ⟨events, fails⟩ := go_refused quiet' busy still (Frame.unwind_opening opens)
  exact ⟨_, .inside (go_opens frames opens unrefused) phase_opened fails, ended_opened⟩

end Call

/-! ### Whole calls -/

/-- How far `t` comes, on a path from `s` to `s'`, with the call `c` that it is about to make in `s`: it
has still to begin; in the last move it has opened the section of the call; or the call is
committed, and if it may wait, then `t` has begun it outside interrupt handlers. -/
inductive Reaches (s : System) (t : ThreadId) (c : Call) (path : List Made) (s' : System) : Prop where
  | about (frames : (s'.activity t).frames = [.call c])
      (waits : ∀ made ∈ path, made.move ≠ .go t)
  | enters {before : List Made} {mid : System} {head : Frame} {below : List Frame}
      (is : path = before ++ [⟨mid, .go t, s'⟩]) (leads : Path s before mid)
      (frames : (mid.activity t).frames = [.call c]) (waits : ∀ made ∈ before, made.move ≠ .go t)
      (unrefused : (Frame.call c).refusal? t (mid.kernelAt t) = none)
      (opens : c.opening = some (head :: below)) (opened : s' = mid.opened t (head :: below))
  | commits {made : Made} (mem : made ∈ path) (goes : made.move = .go t)
      (outside : c.mayWait = true → made.before.kernel.inInterrupt = false)
      (committed : Committed s' t c.mayWait)

section Begun

variable (reachable : Reachable anyMove s) (frames : (s.activity t).frames = [.call c])
include reachable frames

/-- The first stretch of a call opens its section, or registers a wait that is committed. -/
theorem opened_or_committed {kernel : Kernel} {progress : Progress}
    (advances : Advances t (s.kernelAt t) (.call c) kernel progress) :
    (c.mayWait = true → s.kernel.inInterrupt = false) ∧
      ((∃ head below, c.opening = some (head :: below) ∧
        after s t [] kernel progress = s.opened t (head :: below)) ∨
        Committed (after s t [] kernel progress) t c.mayWait) := by
  cases advances with
  | opens opening outside =>
    refine ⟨outside, Or.inl ?_⟩
    rcases c.exists_opening with ⟨d, l, rfl⟩ | ⟨head, below, opens⟩
    · cases opening
    · cases opening.symm.trans opens
      exact ⟨head, below, opens, rfl⟩
  | @waits d l held outside =>
    refine ⟨fun _ => outside, Or.inr (.registered rfl frames_after_self ⟨?_, held⟩)⟩
    exact reachable.orderly.fine t (.call (.wait d l)) (frames ▸ List.mem_cons_self)

end Begun

/-- The first stretch in the section of a call commits it. -/
theorem committed_of_opened {head : Frame} {below : List Frame} {kernel : Kernel}
    {progress : Progress} (reachable : Reachable anyMove s) (allowed : s.Allowed (.go t))
    (opens : c.opening = some (head :: below)) {saved : Nat}
    (busy : (s.activity t).frames = head :: (below ++ [.leave saved]))
    (advances : Advances t (s.kernelAt t) head kernel progress) :
    Committed (after s t (below ++ [.leave saved]) kernel progress) t c.mayWait := by
  have holder := holder_after reachable.orderly busy allowed.1 allowed.2.1 advances
  have now : ((after s t (below ++ [.leave saved]) kernel progress).activity t).frames =
      progress.frames ++ (below ++ [.leave saved]) := frames_after_self
  cases c with
  | wait => cases opens
  | down x =>
    cases opens
    have is : [Frame.leave saved] = [.leave saved] ++ [] := rfl
    have waits : false = true → (Call.down x).mayWait = true := nofun
    exact committed_of_settled reachable busy advances waits is rfl rfl .ends
  | up x =>
    cases opens
    cases advances with
    | raises | wakes => exact committed_of_all now rfl
  | acquire l =>
    cases opens
    cases advances with
    | acquires => exact committed_of_all now rfl
    | registers registers =>
      refine .tries (Or.inr now) fun held => ?_
      have mine : (s.kernelAt t).table.holder? l.id = some t := (holder l.id).symm.trans held
      rw [Lock.register_refused mine] at registers
      cases registers
  | release l =>
    cases opens
    obtain ⟨is, inside, empty, -⟩ := raises_of_givesUp reachable busy advances allowed rfl
    exact committed_of_up (now.trans (by rw [is]; rfl)) rfl inside empty
  | signal d l | broadcast d l =>
    cases opens
    cases advances
    exact committed_of_all now rfl

/-- From the section of a call on nobody else moves before the call is committed. -/
theorem reaches_of_opened {head : Frame} {below : List Frame}
    (frames : (s.activity t).frames = [.call c])
    (unrefused : (Frame.call c).refusal? t (s.kernelAt t) = none)
    (opens : c.opening = some (head :: below))
    (outside : c.mayWait = true → s.kernel.inInterrupt = false)
    (reachable' : Reachable anyMove (s.opened t (head :: below)))
    (leads : Path (s.opened t (head :: below)) path s')
    (busy : ∀ made ∈ path, (made.before.activity t).frames ≠ []) :
    Reaches s t c (⟨s, .go t, s.opened t (head :: below)⟩ :: path) s' := by
  cases leads with
  | rest =>
    exact .enters (List.nil_append _).symm .rest frames (List.forall_mem_nil _) unrefused opens rfl
  | @move _ next _ move events path allowed ends goesOn =>
    obtain rfl := eq_go_of_within allowed phase_opened
    refine .commits List.mem_cons_self rfl outside (Committed.along ?_
      (.move reachable' allowed trivial ends) goesOn
        fun made later => busy made (List.mem_cons_of_mem _ later))
    have opened : ((s.opened t (head :: below)).activity t).frames =
        head :: (below ++ [.leave (s.activity t).depth]) := frames_opened
    cases reachable'.moved allowed ends with
    | went now advances =>
      cases opened.symm.trans now
      exact committed_of_opened reachable' allowed opens opened advances

/-- On every path that begins with a call it comes as far as this. -/
theorem reaches_of_path (reachable : Reachable anyMove s)
    (frames : (s.activity t).frames = [.call c]) (leads : Path s path s')
    (busy : ∀ made ∈ path, (made.before.activity t).frames ≠ [])
    (still : (s'.activity t).frames ≠ []) : Reaches s t c path s' := by
  induction leads with
  | rest => exact .about frames (List.forall_mem_nil _)
  | @move s s' s'' move events path allowed ends goesOn ih =>
    have moved := reachable.moved allowed ends
    have later := fun made mem => busy made (List.mem_cons_of_mem _ mem)
    have reachable' : Reachable anyMove s' := .move reachable allowed trivial ends
    by_cases self : move = .go t
    · subst self
      cases moved with
      | @went _ head rest kernel progress now advances =>
        cases frames.symm.trans now
        have unrefused : (Frame.call c).refusal? t (s.kernelAt t) = none := by
          by_contra refused
          obtain ⟨fault, refused⟩ := Option.ne_none_iff_exists'.mp refused
          obtain ⟨reported, fails⟩ := go_refused_first frames reachable.orderly.quiet refused
          cases ends.symm.trans fails
        obtain ⟨outside, ⟨head, below, opens, is⟩ | committed⟩ :=
          opened_or_committed reachable frames advances
        · rw [show settle t _ _ = _ from is] at reachable' goesOn ⊢
          exact reaches_of_opened frames unrefused opens outside reachable' goesOn later
        · exact .commits List.mem_cons_self rfl outside (committed.along reachable' goesOn later)
    · have next : (s'.activity t).frames = [.call c] := by
        rcases moved.frames_eq_or_removed allowed (busy _ List.mem_cons_self) self with
          same | ⟨-, gone⟩
        · exact same.trans frames
        · cases goesOn with
          | rest => exact absurd gone still
          | move => exact absurd gone (later _ List.mem_cons_self)
      cases ih reachable' next later still with
      | about frames waits => exact .about frames (List.forall_mem_cons.mpr ⟨self, waits⟩)
      | enters is leads frames waits unrefused opens opened =>
        subst is
        exact .enters rfl (.move allowed ends leads) frames (List.forall_mem_cons.mpr ⟨self, waits⟩)
          unrefused opens opened
      | commits mem goes outside committed =>
        exact .commits (List.mem_cons_of_mem _ mem) goes outside committed

/-- A call that ends in a refusal, in whatever move, is refused with what bars it when `t` goes on with
it for the first time, and the system is then as it was before. -/
theorem refused_of_path (reachable : Reachable anyMove s)
    (frames : (s.activity t).frames = [.call c]) (leads : Path s path s')
    (busy : ∀ made ∈ path, (made.before.activity t).frames ≠ [])
    (context : ∀ made ∈ path, made.move = .go t →
      made.before.kernel.inInterrupt = s'.kernel.inInterrupt)
    (allowed : s'.Allowed (.go t)) (fails : perform (.go t) s' = ⟨.error fault, s'', events⟩)
    (refusal : Refusal fault) :
    ∃ before own mid, path = before ++ own ∧ Path s before mid ∧
      (∀ made ∈ before, made.move ≠ .go t) ∧ (own = [] ∨ own = [⟨mid, .go t, s'⟩]) ∧
      c.refusal? t (mid.kernelAt t) = some fault ∧ s''.ended t = (mid.running t).ended t := by
  have reachable' : Reachable anyMove s' := leads.reachable reachable fun _ _ => trivial
  have quiet := reachable'.orderly.quiet
  have quietAt : (s'.kernelAt t).Quiet := quiet.withDepth _
  have refused : ∀ {head rest}, (s'.activity t).frames = head :: rest →
      head.refusal? t (s'.kernelAt t) = some fault := fun now =>
    Frame.refusal_of_advance quietAt
      ((go_eq_error_iff now).mp (congrArg Run.outcome fails)) refusal
  cases reaches_of_path reachable frames leads busy allowed.2.2.1 with
  | about frames waits =>
    obtain ⟨reported, again⟩ := go_refused_first frames quiet (refused frames)
    cases fails.symm.trans again
    exact ⟨path, [], s', (List.append_nil _).symm, leads, waits, Or.inl rfl,
      Call.refusal?_of_first (refused frames), rfl⟩
  | @enters before mid head below is begins frames waits unrefused opens opened =>
    subst opened
    have now : ((mid.opened t (head :: below)).activity t).frames =
        head :: (below ++ [.leave (mid.activity t).depth]) := frames_opened
    obtain ⟨reported, again⟩ := go_refused quiet now (refused now) (Frame.unwind_opening opens)
    cases fails.symm.trans again
    refine ⟨before, _, mid, is, begins, waits, Or.inr rfl, ?_, ended_opened⟩
    rw [Call.refusal?_eq_or opens, unrefused]
    exact (Frame.refusal?_withDepth (k := mid.kernel)).trans
      ((Frame.refusal?_withDepth (k := mid.kernel)).symm.trans (refused now))
  | commits mem goes outside committed =>
    cases now : (s'.activity t).frames with
    | nil => exact absurd now allowed.2.2.1
    | cons head rest =>
      have none := committed.refusal? now fun waits => (context _ mem goes).symm.trans (outside waits)
      cases none.symm.trans (refused now)

/-! ### Where a thread is -/

/-- Where a thread is: about to make a call, or alone to move in the section that it has opened for one,
or in a call that is committed, as it is between calls. -/
inductive Course (s : System) (t : ThreadId) : Prop where
  | about {c : Call} (frames : (s.activity t).frames = [.call c])
  | opened {c : Call} {head : Frame} {below : List Frame} {saved : Nat}
      (opens : c.opening = some (head :: below))
      (frames : (s.activity t).frames = head :: (below ++ [.leave saved]))
      (alone : s.phase = .within t)
  | committed {mayWait : Bool} (committed : Committed s t mayWait)

theorem Course.of_all {frames : List Frame} (now : (s.activity t).frames = frames)
    (settled : frames.all (Frame.settled false) = true) : Course s t :=
  .committed (committed_of_all now settled : Committed s t false)

/-- A thread between calls stays there until it calls. -/
theorem Moved.frames_of_idle (moved : Moved s move s') (idle : (s.activity t).frames = []) :
    (s'.activity t).frames = [] ∨ ∃ c, (s'.activity t).frames = [.call c] := by
  cases moved with
  | newSemaphore | newLock | newCondvar | spawned | full | rebased | reranked | interrupt
  | answered => exact Or.inl idle
  | @removed u =>
    by_cases here : t = u
    · exact Or.inl (congrArg Activity.frames (if_pos here))
    · exact Or.inl ((congrArg Activity.frames (if_neg here)).trans idle)
  | @called u c =>
    by_cases here : t = u
    · exact Or.inr ⟨c, congrArg Activity.frames (if_pos here)⟩
    · exact Or.inl ((congrArg Activity.frames (if_neg here)).trans idle)
  | @went u head rest kernel progress busy =>
    have apart : t ≠ u := by
      rintro rfl
      cases idle.symm.trans busy
    exact Or.inl ((frames_after_of_ne apart).trans idle)

theorem Reachable.course (reachable : Reachable anyMove s) (t : ThreadId) : Course s t := by
  induction reachable with
  | start small => exact .of_all rfl rfl
  | @move s s' move events before allowed obeys ends ih =>
    have moved := before.moved allowed ends
    by_cases idle : (s.activity t).frames = []
    · rcases moved.frames_of_idle idle with still | ⟨c, frames⟩
      · exact .of_all still rfl
      · exact .about frames
    by_cases self : move = .go t
    · subst self
      cases moved with
      | went now advances =>
        cases ih with
        | about frames =>
          cases frames.symm.trans now
          obtain ⟨-, ⟨head, below, opens, is⟩ | committed⟩ :=
            opened_or_committed before frames advances
          · rw [show settle t _ _ = _ from is]
            exact .opened opens frames_opened phase_opened
          · exact .committed committed
        | opened opens frames =>
          cases frames.symm.trans now
          exact .committed (committed_of_opened before allowed opens frames advances)
        | committed committed =>
          exact .committed (committed_after before allowed now advances committed)
    · cases ih with
      | about frames =>
        rcases moved.frames_eq_or_removed allowed idle self with same | ⟨-, gone⟩
        · exact .about (same.trans frames)
        · exact .of_all gone rfl
      | opened opens frames alone => exact absurd (eq_go_of_within allowed alone) self
      | committed committed => exact .committed (committed.aside before allowed ends idle self)

/-! ### Calls without a wait, and the thread table -/

/-- A call that does not wait is refused just if it breaks the contract, and leaves the system as it
was. -/
theorem short_refused_iff {call : ShortCall} (quiet : s.kernel.Quiet) (refusal : Refusal fault) :
    (perform (.short t call) s).outcome = .error fault ↔
      call.refusal? t (s.kernelAt t) = some fault := by
  have quiet' : (s.kernelAt t).Quiet := quiet.withDepth _
  rw [short_run]
  constructor
  · intro fails
    refine ShortCall.refusal_of_run quiet' ?_ refusal
    rcases run : call.run t (s.kernelAt t) with ⟨other | answer, kernel, events⟩ <;> rw [run] at fails
    · cases fails
      rfl
    · cases fails
  · intro refused
    obtain ⟨events, run⟩ := ShortCall.run_refused quiet' refused
    rw [run]
    rfl

theorem short_refused {call : ShortCall} (quiet : s.kernel.Quiet)
    (fails : (perform (.short t call) s).outcome = .error fault) (refusal : Refusal fault) :
    (perform (.short t call) s).state = s.running t := by
  have quiet' : (s.kernelAt t).Quiet := quiet.withDepth _
  obtain ⟨events, run⟩ :=
    ShortCall.run_refused quiet' ((short_refused_iff quiet refusal).mp fails)
  rw [short_run, run]
  rfl

/-- A thread that is gone, has a lock or waits for one is not removed, and nothing else happens. -/
theorem remove_refused (quiet : s.kernel.Quiet) :
    ((∃ fault, (perform (.remove t) s).outcome = .error fault) ↔
      ¬ s.Live t ∨ s.table.holdings.heldBy t ≠ [] ∨ s.table.waits t ≠ none) ∧
    ∀ fault, (perform (.remove t) s).outcome = .error fault →
      (perform (.remove t) s).state = s := by
  have removes : perform (.remove t) s = (do
      let _ ← onTable (ThreadTable.remove t)
      Stretch.update (·.become t {}) : Stretch System Unit) s := rfl
  have outcome : ∀ {fault}, (perform (.remove t) s).outcome = .error fault ↔
      (ThreadTable.remove t s.table).outcome = .error fault := by
    intro fault
    rw [removes, bind_run, onTable_run quiet]
    rcases ThreadTable.remove t s.table with ⟨other | r, table, events⟩
    · simp
    · simp
  refine ⟨(exists_congr fun _ => outcome).trans ThreadTable.remove_fails_iff, fun fault fails => ?_⟩
  have same := ThreadTable.remove_of_fails (outcome.mp fails)
  rw [removes, bind_run, onTable_run quiet, same]
  rfl

/-- A full table takes no thread: it answers that it is full, and nothing else happens. -/
theorem spawn_refused {name : String} {priority : Priority} (quiet : s.kernel.Quiet)
    (full : s.table.capacity ≤ s.table.live) :
    (onTable (ThreadTable.spawn name priority) s).outcome = .ok (.error ⟨s.table.capacity⟩) ∧
      (perform (.spawn name priority) s).outcome = .ok () ∧
      (perform (.spawn name priority) s).state = s := by
  have answers := onTable_run quiet (ThreadTable.spawn name priority)
  rw [ThreadTable.spawn_full full] at answers
  have spawns : perform (.spawn name priority) s = _ := bind_run_ok answers _
  rw [spawns]
  exact ⟨congrArg Run.outcome answers, rfl, rfl⟩

end System

end KernelSync
