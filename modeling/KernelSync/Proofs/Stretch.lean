import KernelSync.Stretch

/-!
Facts about stretches that concern no state in particular: how a stretch that succeeds splits into
its parts (`bind_eq_ok`), which stretches only look at the state (`Looks`), and which reports and
faults a stretch can be told to avoid from its text alone (`Avoids`). A stretch that looks up
threads changes nothing, and only a stale handle can stop it (`Inspects`).
-/

namespace KernelSync.Stretch

variable {σ τ α β : Type}

@[simp] theorem log_run (entry : LogEntry) (s : σ) : log entry s = ⟨.ok (), s, [.log entry]⟩ := rfl

/-! ### Success of a sequence -/

/-- A sequence that succeeds has succeeded in both of its parts, one after the other. -/
theorem bind_eq_ok {x : Stretch σ α} {f : α → Stretch σ β} {s s' : σ} {b : β}
    {events : List Event} :
    (x >>= f) s = ⟨.ok b, s', events⟩ ↔
      ∃ a mid before after, x s = ⟨.ok a, mid, before⟩ ∧ f a mid = ⟨.ok b, s', after⟩ ∧
        events = before ++ after := by
  constructor
  · intro run
    rw [bind_run] at run
    rcases hx : x s with ⟨outcome, mid, before⟩
    rw [hx] at run
    cases outcome with
    | error fault => simp at run
    | ok a =>
      rcases hf : f a mid with ⟨outcome', final, after⟩
      simp only [hf, Run.mk.injEq] at run
      obtain ⟨rfl, rfl, rfl⟩ := run
      exact ⟨a, mid, before, after, rfl, hf, rfl⟩
  · rintro ⟨a, mid, before, after, hx, hf, rfl⟩
    rw [bind_run_ok hx, hf]

/-- A computation on a part of the state that succeeds has done so on that part alone. -/
theorem within_eq_ok {get : σ → τ} {set : τ → σ → σ} {x : Stretch τ α} {s s' : σ} {a : α}
    {events : List Event} :
    within get set x s = ⟨.ok a, s', events⟩ ↔
      ∃ part, x (get s) = ⟨.ok a, part, events⟩ ∧ s' = set part s := by
  rcases hx : x (get s) with ⟨outcome, part, reported⟩
  simp only [within, hx, Run.mk.injEq]
  constructor
  · rintro ⟨rfl, rfl, rfl⟩
    exact ⟨part, ⟨rfl, rfl, rfl⟩, rfl⟩
  · rintro ⟨part', ⟨rfl, rfl, rfl⟩, rfl⟩
    exact ⟨rfl, rfl, rfl⟩

theorem onFault_run_ok {x : Stretch σ α} {last : Stretch σ Unit} {s s' : σ} {a : α}
    {events : List Event} (run : x s = ⟨.ok a, s', events⟩) :
    onFault x last s = ⟨.ok a, s', events⟩ := by
  unfold onFault
  rw [run]

theorem onFault_run_error {x : Stretch σ α} {last : Stretch σ Unit} {s s' : σ} {fault : Fault}
    {events : List Event} (run : x s = ⟨.error fault, s', events⟩) :
    onFault x last s = ⟨.error fault, (last s').state, events ++ (last s').events⟩ := by
  unfold onFault
  rw [run]

/-- What is only done after a fault is not done after a success. -/
theorem onFault_eq_ok {x : Stretch σ α} {last : Stretch σ Unit} {s s' : σ} {a : α}
    {events : List Event} (run : onFault x last s = ⟨.ok a, s', events⟩) :
    x s = ⟨.ok a, s', events⟩ := by
  unfold onFault at run
  rcases hx : x s with ⟨fault | value, state, reported⟩
  · simp [hx] at run
  · rwa [hx] at run

/-- A sequence fails in its first part, or in the second when the first has ended. -/
theorem error_of_bind {x : Stretch σ α} {f : α → Stretch σ β} {s : σ} {fault : Fault}
    (fails : ((x >>= f) s).outcome = .error fault) : (x s).outcome = .error fault ∨
      ∃ a s' events, x s = ⟨.ok a, s', events⟩ ∧ (f a s').outcome = .error fault := by
  rcases run : x s with ⟨other | a, s', events⟩
  · rw [bind_run_error run] at fails
    exact Or.inl (congrArg _ (Except.error.inj fails))
  · rw [bind_run_ok run] at fails
    exact Or.inr ⟨a, s', events, rfl, fails⟩

/-- What comes after the first part is not to blame if it cannot fail. -/
theorem bind_of_fails {x : Stretch σ α} {f : α → Stretch σ β} {s : σ} {fault : Fault}
    (sure : ∀ a s', ∃ b, (f a s').outcome = .ok b)
    (fails : ((x >>= f) s).outcome = .error fault) :
    (x s).outcome = .error fault ∧ ((x >>= f) s).state = (x s).state := by
  rcases run : x s with ⟨other | a, s', events⟩
  · rw [bind_run_error run] at fails ⊢
    exact ⟨congrArg _ (Except.error.inj fails), rfl⟩
  · obtain ⟨b, ends⟩ := sure a s'
    rw [bind_run_ok run] at fails
    exact nomatch ends.symm.trans fails

/-- What is done after a fault leaves the fault. -/
theorem error_of_onFault {x : Stretch σ α} {last : Stretch σ Unit} {s : σ} {fault : Fault}
    (fails : (onFault x last s).outcome = .error fault) : (x s).outcome = .error fault := by
  unfold onFault at fails
  rcases run : x s with ⟨other | a, mid, events⟩ <;> rw [run] at fails
  · exact fails
  · cases fails

theorem require_eq_ok {condition : Prop} [Decidable condition] {fault : Fault} {s s' : σ}
    {result : Unit} {events : List Event}
    (run : require condition fault s = ⟨.ok result, s', events⟩) : condition ∧ s' = s := by
  unfold require at run
  split at run
  · rename_i holds
    cases run
    exact ⟨holds, rfl⟩
  · cases run

theorem ofExcept_eq_ok {value : Except Fault α} {s s' : σ} {a : α} {events : List Event}
    (run : ofExcept value s = ⟨.ok a, s', events⟩) : value = .ok a ∧ s' = s := by
  cases value with
  | error fault => cases run
  | ok b =>
    cases run
    exact ⟨rfl, rfl⟩

/-! ### Looking without touching -/

/-- The stretch changes nothing and reports nothing, however it ends. -/
def Looks (x : Stretch σ α) : Prop := ∀ s, (x s).state = s ∧ (x s).events = []

theorem Looks.eq {x : Stretch σ α} (looks : Looks x) (s : σ) : x s = ⟨(x s).outcome, s, []⟩ := by
  have h := looks s
  rcases hx : x s with ⟨outcome, mid, events⟩
  rw [hx] at h
  obtain ⟨rfl, rfl⟩ := h
  rfl

theorem looks_pure (a : α) : Looks (Pure.pure a : Stretch σ α) := fun _ => ⟨rfl, rfl⟩

theorem looks_fail (fault : Fault) : Looks (fail fault : Stretch σ α) := fun _ => ⟨rfl, rfl⟩

theorem looks_read (f : σ → α) : Looks (read f) := fun _ => ⟨rfl, rfl⟩

theorem looks_bind {x : Stretch σ α} {f : α → Stretch σ β} (first : Looks x)
    (next : ∀ a, Looks (f a)) : Looks (x >>= f) := by
  intro s
  rw [bind_run, first.eq s]
  cases (x s).outcome with
  | ok a => simpa using next a s
  | error fault => exact ⟨rfl, rfl⟩

/-! ### Avoiding reports and faults -/

/-- From whatever state it starts, the stretch reports no `bad` event and ends in no `wrong`
fault. -/
structure Avoids (bad : Event → Prop) (wrong : Fault → Prop) (x : Stretch σ α) : Prop where
  events : ∀ s, ∀ e ∈ (x s).events, ¬ bad e
  outcome : ∀ s fault, (x s).outcome = .error fault → ¬ wrong fault

section Avoids

variable {bad : Event → Prop} {wrong : Fault → Prop}

theorem avoids_pure (a : α) : Avoids bad wrong (Pure.pure a : Stretch σ α) :=
  ⟨fun _ _ mem => absurd mem List.not_mem_nil, fun _ _ h => by simp at h⟩

theorem avoids_fail {fault : Fault} (h : ¬ wrong fault) :
    Avoids bad wrong (fail fault : Stretch σ α) := by
  refine ⟨fun _ _ mem => absurd mem List.not_mem_nil, fun _ other eq => ?_⟩
  simp only [fail_run, Except.error.injEq] at eq
  exact eq ▸ h

theorem avoids_require {condition : Prop} [Decidable condition] {fault : Fault}
    (h : ¬ wrong fault) : Avoids bad wrong (require condition fault : Stretch σ Unit) := by
  unfold require
  split
  · exact avoids_pure ()
  · exact avoids_fail h

theorem avoids_read (f : σ → α) : Avoids bad wrong (read f) :=
  ⟨fun _ _ mem => absurd mem List.not_mem_nil, fun _ _ h => by simp at h⟩

theorem avoids_update (f : σ → σ) : Avoids bad wrong (update f) :=
  ⟨fun _ _ mem => absurd mem List.not_mem_nil, fun _ _ h => by simp at h⟩

theorem avoids_report {event : Event} (h : ¬ bad event) :
    Avoids bad wrong (report event : Stretch σ Unit) := by
  refine ⟨fun _ e mem => ?_, fun _ _ eq => by simp at eq⟩
  simp only [report_run, List.mem_singleton] at mem
  exact mem ▸ h

theorem avoids_bind {x : Stretch σ α} {f : α → Stretch σ β} (first : Avoids bad wrong x)
    (next : ∀ a, Avoids bad wrong (f a)) : Avoids bad wrong (x >>= f) := by
  constructor
  · intro s e mem
    rw [bind_run] at mem
    rcases hx : x s with ⟨outcome, mid, before⟩
    have quiet := first.events s
    rw [hx] at mem quiet
    cases outcome with
    | error fault => exact quiet e mem
    | ok a =>
      rcases List.mem_append.mp mem with mem | mem
      · exact quiet e mem
      · exact (next a).events mid e mem
  · intro s fault eq
    rw [bind_run] at eq
    rcases hx : x s with ⟨outcome, mid, before⟩
    have fine := first.outcome s
    rw [hx] at eq fine
    cases outcome with
    | error other =>
      simp only [Except.error.injEq] at eq
      exact eq ▸ fine other rfl
    | ok a => exact (next a).outcome mid fault eq

theorem avoids_within {get : σ → τ} {set : τ → σ → σ} {x : Stretch τ α}
    (h : Avoids bad wrong x) : Avoids bad wrong (within get set x) :=
  ⟨fun s => h.events (get s), fun s => h.outcome (get s)⟩

theorem avoids_ensuring {x : Stretch σ α} {last : Stretch σ Unit} (h : Avoids bad wrong x)
    (final : Avoids bad wrong last) : Avoids bad wrong (ensuring x last) := by
  refine ⟨fun s e mem => ?_, fun s => h.outcome s⟩
  rcases List.mem_append.mp mem with mem | mem
  · exact h.events s e mem
  · exact final.events _ e mem

end Avoids

/-! ### Looking after live threads -/

/-- The stretch only looks, and can fail with a stale handle alone. -/
structure Inspects (x : Stretch σ α) : Prop where
  looks : Looks x
  stale : ∀ s fault, (x s).outcome = .error fault → ∃ id, fault = .staleHandle id

theorem inspects_pure (a : α) : Inspects (Pure.pure a : Stretch σ α) :=
  ⟨looks_pure a, fun _ _ ends => nomatch ends⟩

theorem inspects_read (f : σ → α) : Inspects (read f) :=
  ⟨looks_read f, fun _ _ ends => nomatch ends⟩

theorem inspects_stale (id : ThreadId) : Inspects (fail (.staleHandle id) : Stretch σ α) :=
  ⟨looks_fail _, fun _ _ ends => ⟨id, (Except.error.inj ends).symm⟩⟩

theorem inspects_bind {x : Stretch σ α} {f : α → Stretch σ β} (first : Inspects x)
    (next : ∀ a, Inspects (f a)) : Inspects (x >>= f) := by
  refine ⟨looks_bind first.looks fun a => (next a).looks, fun s fault fails => ?_⟩
  rcases error_of_bind fails with fails | ⟨a, s', _, _, fails⟩
  · exact first.stale s fault fails
  · exact (next a).stale s' fault fails

theorem Inspects.avoids {bad : Event → Prop} {wrong : Fault → Prop} {x : Stretch σ α}
    (inspects : Inspects x) (stale : ∀ id, ¬ wrong (.staleHandle id)) : Avoids bad wrong x := by
  refine ⟨fun s e mem => ?_, fun s fault fails => ?_⟩
  · rw [(inspects.looks s).2] at mem
    exact absurd mem List.not_mem_nil
  · obtain ⟨id, rfl⟩ := inspects.stale s fault fails
    exact stale id

end KernelSync.Stretch
