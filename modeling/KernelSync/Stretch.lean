import KernelSync.Event

/-!
Stretches: computations on a state that nothing else interleaves with. A stretch may report
events, and it may be cut short by a fault; what it had changed and reported until then stands.
-/

namespace KernelSync

/-- A stretch that has run: how it ended, the state it left and what it reported, in order. -/
structure Run (σ α : Type) where
  outcome : Except Fault α
  state : σ
  events : List Event

/-- A computation on `σ` with a value in `α`. -/
def Stretch (σ α : Type) : Type := σ → Run σ α

namespace Stretch

variable {σ τ α β : Type}

def pure (a : α) : Stretch σ α := fun s => ⟨.ok a, s, []⟩

/-- A fault in `x` is the end: `f` does not run. -/
def bind (x : Stretch σ α) (f : α → Stretch σ β) : Stretch σ β := fun s =>
  match x s with
  | ⟨.ok a, s', events⟩ =>
      let run := f a s'
      ⟨run.outcome, run.state, events ++ run.events⟩
  | ⟨.error fault, s', events⟩ => ⟨.error fault, s', events⟩

instance : Monad (Stretch σ) where
  pure := Stretch.pure
  bind := Stretch.bind

/-- Cuts the computation short. -/
def fail (fault : Fault) : Stretch σ α := fun s => ⟨.error fault, s, []⟩

/-- Goes on only if `condition` holds. -/
def require (condition : Prop) [Decidable condition] (fault : Fault) : Stretch σ Unit :=
  if condition then Stretch.pure () else fail fault

/-- The value, or the fault. -/
def ofExcept : Except Fault α → Stretch σ α
  | .ok a => Stretch.pure a
  | .error fault => fail fault

/-- Looks at the state. -/
def read (f : σ → α) : Stretch σ α := fun s => ⟨.ok (f s), s, []⟩

/-- Changes the state. -/
def update (f : σ → σ) : Stretch σ Unit := fun s => ⟨.ok (), f s, []⟩

def report (event : Event) : Stretch σ Unit := fun s => ⟨.ok (), s, [event]⟩

def log (entry : LogEntry) : Stretch σ Unit := report (.log entry)

/-- Runs a computation on a part of the state. -/
def within (get : σ → τ) (set : τ → σ → σ) (x : Stretch τ α) : Stretch σ α := fun s =>
  let run := x (get s)
  ⟨run.outcome, set run.state s, run.events⟩

/-- Runs `last` after `x`, however `x` ended; the outcome is that of `x`. -/
def ensuring (x : Stretch σ α) (last : Stretch σ Unit) : Stretch σ α := fun s =>
  let run := x s
  let final := last run.state
  ⟨run.outcome, final.state, run.events ++ final.events⟩

/-- Runs `last` after `x` if `x` was cut short, before the fault goes on. -/
def onFault (x : Stretch σ α) (last : Stretch σ Unit) : Stretch σ α := fun s =>
  match x s with
  | ⟨.ok a, s', events⟩ => ⟨.ok a, s', events⟩
  | ⟨.error fault, s', events⟩ =>
      let final := last s'
      ⟨.error fault, final.state, events ++ final.events⟩

/-- Turns a fault of `x` into a value. -/
def catching (x : Stretch σ α) : Stretch σ (Except Fault α) := fun s =>
  let run := x s
  ⟨.ok run.outcome, run.state, run.events⟩

/-! ### What a run does -/

@[simp] theorem pure_run (a : α) (s : σ) : (Pure.pure a : Stretch σ α) s = ⟨.ok a, s, []⟩ := rfl

@[simp] theorem fail_run (fault : Fault) (s : σ) :
    (fail fault : Stretch σ α) s = ⟨.error fault, s, []⟩ := rfl

@[simp] theorem read_run (f : σ → α) (s : σ) : read f s = ⟨.ok (f s), s, []⟩ := rfl

@[simp] theorem update_run (f : σ → σ) (s : σ) : update f s = ⟨.ok (), f s, []⟩ := rfl

@[simp] theorem report_run (event : Event) (s : σ) : report event s = ⟨.ok (), s, [event]⟩ := rfl

theorem require_run {condition : Prop} [Decidable condition] (h : condition) (fault : Fault)
    (s : σ) : require condition fault s = ⟨.ok (), s, []⟩ := by
  simp [require, h, Stretch.pure]

theorem require_run_of_not {condition : Prop} [Decidable condition] (h : ¬ condition)
    (fault : Fault) (s : σ) : require condition fault s = ⟨.error fault, s, []⟩ := by
  simp [require, h]

theorem bind_run (x : Stretch σ α) (f : α → Stretch σ β) (s : σ) :
    (x >>= f) s = match x s with
      | ⟨.ok a, s', events⟩ => ⟨(f a s').outcome, (f a s').state, events ++ (f a s').events⟩
      | ⟨.error fault, s', events⟩ => ⟨.error fault, s', events⟩ := rfl

theorem bind_run_ok {x : Stretch σ α} {s s' : σ} {a : α} {events : List Event}
    (h : x s = ⟨.ok a, s', events⟩) (f : α → Stretch σ β) :
    (x >>= f) s = ⟨(f a s').outcome, (f a s').state, events ++ (f a s').events⟩ := by
  rw [bind_run, h]

theorem bind_run_error {x : Stretch σ α} {s s' : σ} {fault : Fault} {events : List Event}
    (h : x s = ⟨.error fault, s', events⟩) (f : α → Stretch σ β) :
    (x >>= f) s = ⟨.error fault, s', events⟩ := by
  rw [bind_run, h]

end Stretch

end KernelSync
