import KernelSync.Proofs.Conservation

/-!
The order of dispatch. A thread becomes ready when it is made or woken, and when it yields or is
preempted (`Readies`), which is never more than one thread in a turn (`Intact.enqueues`), and nobody in
a turn that fails. So as long as no failure is recorded, the run queue holds the ready threads in the
order in which they became ready (`Journey.inOrder`), whatever becomes of their priorities meanwhile,
and whatever faults are caught; and as a switch goes to the first contender of greatest rank, equals
run in that order (`equals_run_in_order`).
-/

namespace KernelSync.Simulation

open Stretch hiding pure bind
open Kernel Donation

variable {settings : Settings} {script : List Action} {path : List Simulation}
  {s s₁ : Simulation} {how : Option Switch} {t u id : ThreadId} {i j : Nat} {events : List Event}

/-! ### Becoming ready -/

/-- The running thread is about to make a thread ready: one that it wakes or makes, or itself, as it
yields or is preempted. -/
inductive Readies (s : Simulation) : ThreadId → Prop where
  | unblocks {t : ThreadId} (unblocks : s.Unblocks t) : Readies s t
  | yields {s₁ : Simulation} (switches : s.Switches .yield s₁) : Readies s s.current

/-- Who is ready at the end of a turn; at a switch, its contenders. -/
def readyAfter (s : Simulation) : Option Switch → List ThreadId
  | none => s.queue.ready
  | some how => s.contenders (some how)

/-- A thread between calls makes another ready by spawning it, and then that one is the last in the
queue. -/
theorem Unblocks.of_idle (unblocks : s.Unblocks t) (intact : Intact s)
    (idle : s.currentThread.call = []) (run : untilSwitch s = ⟨.ok how, s₁, events⟩) :
    s₁.queue.ready = s.queue.ready ++ [t] ∧ ∃ name level spawned disguise actions rest,
      s.currentThread.script = .actions (.spawn name level spawned disguise :: actions) :: rest := by
  cases unblocks with
  | wakes busy => exact absurd idle busy
  | @makes name level spawned actions disguise rest priority table reported idle due ranked adds =>
    refine ⟨?_, name, level, spawned, disguise, actions, rest, due⟩
    have standing := intact.2.resolve_left fun idle => nomatch idle.2.symm.trans due
    have quiet := intact.1.quiet
    obtain ⟨-, mid, _, shifts, -, spawns⟩ := performs_of_untilSwitch standing.has idle due nofun run
    rw [← shifts.kernel_eq] at quiet adds
    rw [← shifts.queue_eq]
    exact (named_of_spawn spawns quiet ranked adds).2

/-- Within a call the request says whom the running thread wakes. -/
theorem unblocks_iff_of_busy {progress : Progress} {kernel : Kernel}
    (busy : s.currentThread.call ≠ [])
    (steps : Frame.step s.current s.currentThread.call s.kernel = ⟨.ok progress, kernel, events⟩) :
    s.Unblocks t ↔ progress.request = .unblock t := by
  constructor
  · intro unblocks
    cases unblocks with
    | wakes busy steps' asks =>
      cases steps.symm.trans steps'
      exact asks
    | makes idle => exact absurd idle busy
  · exact fun asks => .wakes busy steps asks

/-- Who becomes ready in a turn that comes to its end. -/
theorem readies_iff (run : untilSwitch s = ⟨.ok how, s₁, events⟩) :
    s.Readies t ↔ s.Unblocks t ∨ how = some .yield ∧ t = s.current := by
  constructor
  · intro readies
    cases readies with
    | unblocks unblocks => exact Or.inl unblocks
    | yields switches =>
      obtain ⟨reported, run'⟩ := switches
      cases run.symm.trans run'
      exact Or.inr ⟨rfl, rfl⟩
  · rintro (unblocks | ⟨rfl, rfl⟩)
    · exact .unblocks unblocks
    · exact .yields ⟨events, run⟩

/-- What a turn does to the queue: it puts whoever becomes ready at the end, one thread at most. -/
def Enqueues (s s₁ : Simulation) (how : Option Switch) : Prop :=
  ∃ new, s₁.readyAfter how = s.queue.ready ++ new ∧ new.length ≤ 1 ∧ ∀ t, t ∈ new ↔ s.Readies t

section Enqueues

variable (run : untilSwitch s = ⟨.ok how, s₁, events⟩)
include run

theorem enqueues_nobody (same : s₁.readyAfter how = s.queue.ready) (stays : how ≠ some .yield)
    (never : ∀ t, ¬ s.Unblocks t) : Enqueues s s₁ how := by
  refine ⟨[], by rw [same, List.append_nil], Nat.zero_le _, fun t => ?_⟩
  rw [readies_iff run]
  refine iff_of_false List.not_mem_nil ?_
  rintro (unblocks | ⟨yields, -⟩)
  · exact never t unblocks
  · exact stays yields

theorem enqueues_other (same : s₁.readyAfter how = s.queue.ready ++ [id])
    (stays : how ≠ some .yield) (only : ∀ t, s.Unblocks t ↔ t = id) : Enqueues s s₁ how := by
  refine ⟨[id], same, Nat.le_refl _, fun t => ?_⟩
  rw [readies_iff run, List.mem_singleton, only]
  exact (or_iff_left fun yields => stays yields.1).symm

theorem enqueues_self (yields : how = some .yield) (queue : s₁.queue = s.queue)
    (current : s₁.current = s.current) (never : ∀ t, ¬ s.Unblocks t) : Enqueues s s₁ how := by
  refine ⟨[s.current], ?_, Nat.le_refl _, fun t => ?_⟩
  · rw [yields, ← queue, ← current]
    rfl
  · rw [readies_iff run, List.mem_singleton, or_iff_right (never t)]
    exact (and_iff_right yields).symm

end Enqueues

/-- Every turn puts whoever becomes ready at the end of the queue. -/
theorem Intact.enqueues (intact : Intact s) (run : untilSwitch s = ⟨.ok how, s₁, events⟩) :
    Enqueues s s₁ how := by
  have turn := intact.turn_of_run run
  -- between calls nobody is made ready but by a spawn
  have never : ∀ {pending rest}, s.currentThread.call = [] →
      s.currentThread.script = pending :: rest →
      (∀ name level spawned disguise actions,
        pending ≠ .actions (.spawn name level spawned disguise :: actions)) →
      ∀ t, ¬ s.Unblocks t := by
    intro pending rest idle due other t unblocks
    obtain ⟨-, name, level, spawned, disguise, actions, rest', due'⟩ :=
      unblocks.of_idle intact idle run
    exact other _ _ _ _ _ (List.cons.inj (due.symm.trans due')).1
  cases turn with
  | rests idle empty =>
    refine enqueues_nobody run rfl nofun fun t unblocks => ?_
    obtain ⟨-, _, _, _, _, _, _, due⟩ := unblocks.of_idle intact idle run
    exact nomatch empty.symm.trans due
  | thinks idle due unrolls shifts =>
    refine enqueues_nobody run (congrArg RunQueue.ready shifts.queue_eq) nofun
      fun t unblocks => ?_
    have longer := (unblocks.of_idle intact idle run).1
    rw [shifts.queue_eq, List.self_eq_append_right] at longer
    cases longer
  | answers idle due asks shifts =>
    exact enqueues_nobody run (congrArg RunQueue.ready shifts.queue_eq) nofun
      (never idle due (by simp))
  | spawns idle due adds notReady kernel queue _ _ _ _ _ _ ranked named =>
    have same := congrArg RunQueue.ready queue
    refine enqueues_other run same nofun fun t => ⟨fun unblocks => ?_, ?_⟩
    · have last := (unblocks.of_idle intact idle run).1
      rw [same] at last
      exact (List.singleton_inj.mp (List.append_cancel_left last)).symm
    · rintro rfl
      exact .makes idle due ranked adds named
  | rebases idle due changes shifts | interrupts idle due outside shifts | handled idle due shifts
  | returns idle due unasked shifts | finishes idle due shifts | exits idle due removes shifts =>
    exact enqueues_nobody run (congrArg RunQueue.ready shifts.queue_eq) nofun
      (never idle due (by simp))
  | yieldsOnReturn idle due asked shifts | yields idle due shifts =>
    exact enqueues_self run rfl shifts.queue_eq shifts.current (never idle due (by simp))
  | goes busy steps heeds shifts =>
    have only := fun t => unblocks_iff_of_busy (t := t) busy steps
    generalize requested : Progress.request _ = request at heeds only
    cases heeds with
    | proceeds | calm | defers =>
      exact enqueues_nobody run (congrArg RunQueue.ready shifts.queue_eq) nofun
        fun t unblocks => nomatch (only t).mp unblocks
    | blocks =>
      exact enqueues_nobody run (congrArg RunQueue.ready shifts.queue_eq) nofun
        fun t unblocks => nomatch (only t).mp unblocks
    | wakes notReady =>
      refine enqueues_other run (congrArg RunQueue.ready shifts.queue_eq) nofun fun t => ?_
      rw [only t, Request.unblock.injEq]
      exact eq_comm
    | preempts outside =>
      exact enqueues_self run rfl shifts.queue_eq shifts.current
        fun t unblocks => nomatch (only t).mp unblocks

/-- Whoever becomes ready was not ready. -/
theorem Housed.not_ready_of_readies (housed : Housed path none s) (grounded : Grounded settings s)
    (intact : Intact s) (readies : s.Readies t) : t ∉ s.queue.ready := by
  cases readies with
  | unblocks unblocks => exact housed.fresh grounded intact t unblocks
  | yields =>
    have nodup := (List.nodup_append.mp housed.nodup).1
    exact fun mem =>
      (List.nodup_append.mp nodup).2.2 _ mem _ (List.mem_singleton.mpr rfl) rfl

/-- Nobody becomes ready in a turn that fails. -/
theorem Housed.not_readies_of_fails {fault : Fault} (housed : Housed path none s)
    (grounded : Grounded settings s) (intact : Intact s)
    (fails : (untilSwitch s).outcome = .error fault) : ¬ s.Readies t := by
  intro readies
  cases readies with
  | unblocks unblocks => exact housed.not_unblocks_of_fails grounded intact fails unblocks
  | yields switches =>
    obtain ⟨_, run⟩ := switches
    rw [run] at fails
    cases fails

/-! ### Since when -/

/-- The `i`th state on the way is the last in which `t` becomes ready. -/
structure ReadySince (path : List Simulation) (t : ThreadId) (i : Nat) : Prop where
  readies : ∃ s, path[i]? = some s ∧ s.Readies t
  last : ∀ j s, i < j → path[j]? = some s → ¬ s.Readies t

theorem ReadySince.lt (since : ReadySince path t i) : i < path.length := by
  obtain ⟨s, found, -⟩ := since.readies
  exact (List.getElem?_eq_some_iff.mp found).1

theorem ReadySince.unique (first : ReadySince path t i) (second : ReadySince path t j) : i = j := by
  obtain ⟨s, found, readies⟩ := first.readies
  obtain ⟨s', found', readies'⟩ := second.readies
  rcases Nat.lt_trichotomy i j with before | same | behind
  · exact absurd readies' (first.last j s' before found')
  · exact same
  · exact absurd readies (second.last i s behind found)

theorem readySince_now (readies : s.Readies t) : ReadySince (path ++ [s]) t path.length where
  readies := ⟨s, List.getElem?_concat_length, readies⟩
  last := fun j _ behind found => by
    have below := (List.getElem?_eq_some_iff.mp found).1
    rw [List.length_append, List.length_singleton] at below
    omega

/-- A state in which a thread does not become ready is not counted. -/
theorem readySince_append_iff (not : ¬ s.Readies t) :
    ReadySince (path ++ [s]) t i ↔ ReadySince path t i := by
  have before : ∀ {j : Nat} {r : Simulation}, path[j]? = some r → (path ++ [s])[j]? = some r :=
    fun found => (List.getElem?_append_left (List.getElem?_eq_some_iff.mp found).1).trans found
  have split : ∀ {j : Nat} {r : Simulation},
      (path ++ [s])[j]? = some r → path[j]? = some r ∨ r = s := by
    intro j r found
    rcases Nat.lt_or_ge j path.length with below | beyond
    · exact Or.inl ((List.getElem?_append_left below).symm.trans found)
    · rw [List.getElem?_append_right beyond] at found
      exact Or.inr (List.mem_singleton.mp (List.mem_of_getElem? found))
  constructor
  · intro since
    refine ⟨?_, fun j r behind found => since.last j r behind (before found)⟩
    obtain ⟨r, found, readies⟩ := since.readies
    rcases split found with found | rfl
    · exact ⟨r, found, readies⟩
    · exact absurd readies not
  · intro since
    obtain ⟨r, found, readies⟩ := since.readies
    refine ⟨⟨r, before found, readies⟩, fun j r behind found => ?_⟩
    rcases split found with found | rfl
    · exact since.last j r behind found
    · exact not

/-- The listed threads have all become ready, in the order of the list. -/
structure InOrder (path : List Simulation) (list : List ThreadId) : Prop where
  since : ∀ t ∈ list, ∃ i, ReadySince path t i
  sorted : list.Pairwise fun t u => ∀ i j, ReadySince path t i → ReadySince path u j → i < j

theorem InOrder.sublist {list some : List ThreadId} (order : InOrder path list)
    (sub : some.Sublist list) : InOrder path some :=
  ⟨fun t mem => order.since t (sub.subset mem), order.sorted.sublist sub⟩

/-- A state in which none of the listed threads becomes ready does not change their order. -/
theorem InOrder.goesOn {list : List ThreadId} (order : InOrder path list)
    (old : ∀ t ∈ list, ¬ s.Readies t) : InOrder (path ++ [s]) list := by
  refine ⟨fun t mem => ?_, order.sorted.imp_of_mem fun {t u} memT memU before i j => ?_⟩
  · obtain ⟨i, since⟩ := order.since t mem
    exact ⟨i, (readySince_append_iff (old t mem)).mpr since⟩
  · rw [readySince_append_iff (old t memT), readySince_append_iff (old u memU)]
    exact before i j

/-- To put whoever becomes ready at the end keeps the order. -/
theorem InOrder.enqueue (order : InOrder path s.queue.ready)
    (apart : ∀ t, s.Readies t → t ∉ s.queue.ready) (enqueues : Enqueues s s₁ how) :
    InOrder (path ++ [s]) (s₁.readyAfter how) := by
  obtain ⟨new, same, few, mem_new⟩ := enqueues
  have old : ∀ t ∈ s.queue.ready, ¬ s.Readies t := fun t mem readies => apart t readies mem
  have order' := order.goesOn old
  rw [same]
  refine ⟨fun t mem => ?_, List.pairwise_append.mpr ⟨order'.sorted, ?_, ?_⟩⟩
  · rcases List.mem_append.mp mem with mem | mem
    · exact order'.since t mem
    · exact ⟨path.length, readySince_now ((mem_new t).mp mem)⟩
  · match new, few with
    | [], _ => exact .nil
    | [t], _ => exact List.pairwise_singleton _ t
  · intro t memT u memU i j sinceT sinceU
    obtain rfl := sinceU.unique (readySince_now ((mem_new u).mp memU))
    exact ((readySince_append_iff (old t memT)).mp sinceT).lt

/-! ### Runs -/

/-- The run queue holds the ready threads in the order in which they became ready. -/
theorem Journey.inOrder (fits : settings.Fits script) (journey : Journey settings script path s)
    (unfailed : s.queue.failure = none) : InOrder path s.queue.ready := by
  induction journey with
  | start => exact ⟨List.forall_mem_nil _, .nil⟩
  | @step path s before unfinished ih =>
    have intact := before.intact
    have sound := (intact.sound unfailed).1
    obtain ⟨housed, grounded⟩ := before.housed fits sound
    obtain ⟨fault, fails, lingers⟩ | stepped := housed.stepped grounded intact unfailed
    · rw [lingers.queue]
      exact (ih sound).goesOn fun t _ => housed.not_readies_of_fails grounded intact fails
    have order : ∀ {how s₁ events}, untilSwitch s = ⟨.ok how, s₁, events⟩ →
        InOrder (path ++ [s]) (s₁.readyAfter how) := fun run =>
      (ih sound).enqueue (fun _ => housed.not_ready_of_readies grounded intact) (intact.enqueues run)
    generalize (Simulation.step s).state = s' at stepped ⊢
    cases stepped with
    | goesOn run => exact order run
    | switches run foremost => exact (order run).sublist List.erase_sublist

/-- Nobody is woken or made in the turn that leads to a switch. -/
theorem Turn.contenders {how : Switch} (turn : Turn s s₁ (some how)) :
    s₁.contenders (some how) =
      if how = .yield then s.queue.ready ++ [s.current] else s.queue.ready := by
  have same : s₁.queue = s.queue ∧ s₁.current = s.current := by
    cases turn with
    | yieldsOnReturn idle due asked shifts | yields idle due shifts
    | exits idle due removes shifts => exact ⟨shifts.queue_eq, shifts.current⟩
    | goes busy steps heeds shifts =>
      generalize Progress.request _ = request at heeds
      cases heeds with
      | blocks | preempts => exact ⟨shifts.queue_eq, shifts.current⟩
  unfold Simulation.contenders
  rw [same.1, same.2]
  cases how <;> rfl

/-- At every switch of a run, as long as no failure is on record and whatever faults have been caught,
among the ready threads, and the running one if it yields, one of greatest effective priority is
picked, and among equals the one that became ready first. The others stay ready, in the order in which
they became so. -/
theorem equals_run_in_order {how : Switch} (fits : settings.Fits script)
    (journey : Journey settings script path s) (switches : s.Switches how s₁)
    (unfailed : (step s).state.queue.failure = none) :
    ∃ next list, list = (if how = .yield then s.queue.ready ++ [s.current] else s.queue.ready) ∧
      (∀ u ∈ list, s₁.kernel.table.contains u = true ∧ ∃ i, ReadySince (path ++ [s]) u i) ∧
      next ∈ list ∧ (step s).state.current = next ∧ (step s).state.queue.running = some next ∧
      (∀ u ∈ list, u ≠ next → rank s₁.kernel.table u < rank s₁.kernel.table next ∨
        rank s₁.kernel.table u = rank s₁.kernel.table next ∧
          ∀ i j, ReadySince (path ++ [s]) next i → ReadySince (path ++ [s]) u j → i < j) ∧
      (step s).state.queue.ready = list.erase next ∧
      (list.erase next).Pairwise fun t u =>
        ∀ i j, ReadySince (path ++ [s]) t i → ReadySince (path ++ [s]) u j → i < j := by
  have intact := journey.intact
  have sound := (intact.sound unfailed).1
  obtain ⟨housed, grounded⟩ := journey.housed fits sound
  have live : ∀ u ∈ s₁.contenders (some how), s₁.kernel.table.contains u = true :=
    fun u mem => (housed.at_switch grounded intact switches).1.live mem
  obtain ⟨reported, run⟩ := switches
  have order : InOrder (path ++ [s]) (s₁.contenders (some how)) :=
    (journey.inOrder fits sound).enqueue (fun _ => housed.not_ready_of_readies grounded intact)
      (intact.enqueues run)
  obtain ⟨fault, fails, -⟩ | stepped := housed.stepped grounded intact unfailed
  · rw [run] at fails
    cases fails
  generalize (step s).state = s' at stepped ⊢
  cases stepped with
  | goesOn run' => cases run.symm.trans run'
  | @switches s₂ how' next _ run' foremost =>
    cases run.symm.trans run'
    refine ⟨next, s₁.contenders (some how), (intact.turn_of_run run).contenders,
      fun u mem => ⟨live u mem, order.since u mem⟩, foremost.mem, rfl, rfl, fun u mem apart => ?_,
      rfl, (order.sublist List.erase_sublist).sorted⟩
    obtain ⟨before, after, split, lower, le⟩ := foremost
    have sorted := order.sorted
    rw [split] at mem sorted
    rcases List.mem_append.mp mem with mem | mem
    · exact Or.inl (lower u mem)
    · have behind := (List.mem_cons.mp mem).resolve_left apart
      rcases Nat.lt_or_eq_of_le (le u behind) with below | level
      · exact Or.inl below
      · exact Or.inr ⟨Priority.ext_level level,
          (List.pairwise_cons.mp (List.pairwise_append.mp sorted).2.1).1 u behind⟩

/-! A thread that is raised while it is ready, to the level of one that became ready after it. -/

/-- One lock, and a main thread of low priority. -/
def promotion : Settings := { mainLevel := 10, locks := 1 }

/-- The main thread is preempted while it holds the lock. The thread that has preempted it makes
another of its own priority, and then comes to wait for the lock. -/
def promoted : List Action :=
  [.call (.acquire (promotion.lock 0)),
    .spawn "high" 40 [.spawn "other" 40 [] none, .call (.acquire (promotion.lock 0))] none]

theorem promotion_fits : promotion.Fits promoted := by
  have offered : promotion.OffersLock (promotion.lock 0) := ⟨0, by decide, rfl⟩
  refine ⟨nofun, ?_⟩
  simp [promoted, Settings.Admits, Settings.AdmitsAction, Settings.Offers, offered]

/-- The main thread became ready before the other thread, and runs before it. -/
theorem promoted_holder_keeps_its_turn : ∃ path s s₁,
    Journey promotion promoted path s ∧ s.Switches .block s₁ ∧
      (step s).state.queue.failure = none ∧
      rank s₁.kernel.table ⟨2, 0⟩ = rank s₁.kernel.table ⟨0, 0⟩ ∧
      (step s).state.current = ⟨0, 0⟩ ∧ (step s).state.queue.ready = [⟨2, 0⟩] ∧
      ∀ i j, ReadySince (path ++ [s]) ⟨0, 0⟩ i → ReadySince (path ++ [s]) ⟨2, 0⟩ j → i < j := by
  have plays : (playJourney 15 []
      (promotion.start promoted (promotion.table (.empty 0)).state ⟨0, 0⟩)).map (fun played =>
      decide ((untilSwitch played.2).outcome = .ok (some .block) ∧
        (step played.2).state.queue.failure = none ∧
        played.2.queue.ready = [⟨0, 0⟩, ⟨2, 0⟩] ∧
        rank (untilSwitch played.2).state.kernel.table ⟨2, 0⟩ =
          rank (untilSwitch played.2).state.kernel.table ⟨0, 0⟩ ∧
        (step played.2).state.current = ⟨0, 0⟩)) = some true := by
    decide +kernel
  obtain ⟨⟨path, s⟩, played, facts⟩ := Option.map_eq_some_iff.mp plays
  obtain ⟨blocks, unfailed, ready, level, current⟩ := of_decide_eq_true facts
  have journey : Journey promotion promoted path s := Journey.play (.start rfl) played
  have switches : s.Switches .block (untilSwitch s).state := by
    rcases run : untilSwitch s with ⟨outcome, s₁, events⟩
    rw [run] at blocks
    cases blocks
    exact ⟨events, run⟩
  obtain ⟨next, list, is, -, -, runs, -, picked, queue, -⟩ :=
    equals_run_in_order promotion_fits journey switches unfailed
  obtain rfl : next = ⟨0, 0⟩ := runs.symm.trans current
  dsimp only at ready level
  rw [is, if_neg (by decide), ready] at picked queue
  refine ⟨path, s, _, journey, switches, unfailed, level, current, queue, ?_⟩
  rcases picked ⟨2, 0⟩ (by simp) (by decide) with below | ⟨-, since⟩
  · exact absurd (level ▸ below) (Nat.lt_irrefl _)
  · exact since

end KernelSync.Simulation
