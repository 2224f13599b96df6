import KernelSync.Proofs.ShortCalls
import KernelSync.Simulation.Run

/-!
Turns: what the running thread of a simulation does in one step, up to the point where it gives up
the processor (`untilSwitch`). A step is a turn followed by the switch that the turn asks for, if
any (`advance_eq`).
-/

namespace KernelSync

/-- Sequences can be regrouped. -/
instance (σ : Type) : LawfulMonad (Stretch σ) := by
  refine .mk' _ (fun x => ?_) (fun _ _ => rfl) fun x f g => ?_
  · funext s
    show (x >>= fun a => Pure.pure a) s = x s
    rw [Stretch.bind_run]
    rcases x s with ⟨outcome, mid, events⟩
    cases outcome with
    | error fault => rfl
    | ok a => simp
  · funext s
    simp only [Stretch.bind_run]
    rcases x s with ⟨outcome, mid, before⟩
    cases outcome with
    | error fault => rfl
    | ok a =>
      rcases hf : f a mid with ⟨outcome', final, after⟩
      cases outcome' with
      | error fault => simp [hf]
      | ok b => simp [hf, List.append_assoc]

namespace Simulation

open Stretch hiding pure bind

variable {s s' s₁ : Simulation} {id u : ThreadId} {t : SimThread} {f : SimThread → SimThread}
  {events : List Event}

/-! ### Up to the switch -/

/-- Makes the switch that is asked for. -/
def dispatch : Option Switch → Stretch Simulation Unit
  | none => return ()
  | some how => switch how

/-- A check for preemption, up to the switch. -/
def checkUntil : Stretch Simulation (Option Switch) := do
  let me ← Stretch.read (·.current)
  let ready ← Stretch.read (·.queue.ready)
  let outranked ← inKernel (Kernel.withThreads do anyAbove (← ThreadTable.priority me) ready)
  if outranked then
    if ← Stretch.read (·.kernel.inInterrupt) then
      Stretch.update (·.modifyCurrent ({ · with yieldOnReturn := true }))
      return none
    else
      Stretch.log (.preempted me)
      return some .yield
  else return none

/-- The section of a yield, up to the switch. -/
def yieldUntil : Stretch Simulation (Option Switch) := do
  setCall [.leave (← inKernel Kernel.enter)]
  return some .yield

/-- Goes on with what was pending, up to the switch. -/
def proceedUntil : Pending → Stretch Simulation (Option Switch)
  | .actions (.yield :: actions) => do
      push (.actions actions)
      push (.over "yield" .done)
      yieldUntil
  | .handlerReturned => do
      let t ← Stretch.read (·.currentThread)
      if t.yieldOnReturn then
        Stretch.update (·.modifyCurrent ({ · with yieldOnReturn := false }))
        Stretch.log (.yieldsOnReturn t.id)
        yieldUntil
      else return none
  | .remove saved => do
      let me ← Stretch.read (·.current)
      let r ← Stretch.onFault (inKernel (Kernel.withThreads (ThreadTable.remove me)))
        (inKernel (Kernel.leave saved))
      Stretch.log (.exited me r.name)
      Stretch.update (·.modifyCurrent ({ · with script := [] }))
      return some .exit
  | pending => do
      proceed pending
      return none

/-- Advances the call of the current thread, up to the switch. -/
def advanceCallUntil (me : ThreadId) (frames : List Frame) :
    Stretch Simulation (Option Switch) := do
  setCall []
  let progress ← inKernel (Frame.step me frames)
  setCall progress.frames
  match progress.request with
  | .proceed => return none
  | .block =>
      Stretch.log (.blocks me)
      return some .block
  | .unblock id =>
      unblock id
      return none
  | .check => checkUntil

/-- What the current thread does up to the point where it gives up the processor, and how it gives
it up, if it does. -/
def untilSwitch : Stretch Simulation (Option Switch) := do
  let t ← Stretch.read (·.currentThread)
  match t.call, t.script with
  | [], [] => return none
  | [], pending :: script =>
      Stretch.update (·.modifyCurrent fun t => { t with script })
      proceedUntil pending
  | frames, _ => advanceCallUntil t.id frames

theorem checkPreemption_eq : checkPreemption = checkUntil >>= dispatch := by
  unfold checkPreemption checkUntil
  simp only [bind_assoc]
  refine bind_congr fun me => bind_congr fun ready => bind_congr fun outranked => ?_
  cases outranked with
  | false => rfl
  | true =>
    simp only [if_true, bind_assoc]
    refine bind_congr fun inside => ?_
    cases inside with
    | true => rfl
    | false => rfl

theorem yieldNow_eq : yieldNow = yieldUntil >>= dispatch := by
  unfold yieldNow yieldUntil
  simp only [bind_assoc]
  rfl

/-- No action but a yield gives up the processor at once. -/
theorem proceedUntil_action {action : Action} {actions : List Action} (stays : action ≠ .yield) :
    proceedUntil (.actions (action :: actions)) =
      (proceed (.actions (action :: actions)) >>= fun _ => return none) := by
  cases action <;> first | rfl | exact absurd rfl stays

theorem proceed_eq (pending : Pending) : proceed pending = proceedUntil pending >>= dispatch := by
  have plain : ∀ x : Stretch Simulation Unit, x = (x >>= fun _ => return none) >>= dispatch := by
    intro x
    rw [bind_assoc]
    funext s
    rw [bind_run]
    rcases x s with ⟨outcome, mid, before⟩
    cases outcome with
    | error fault => rfl
    | ok a => simp [dispatch, bind_run]
  cases pending with
  | actions list =>
    cases list with
    | nil => exact plain _
    | cons action actions =>
      cases action with
      | yield =>
        simp only [proceed, proceedUntil, perform, yieldNow_eq, bind_assoc]
      | _ => exact plain _
  | handlerReturned =>
    simp only [proceed, proceedUntil, bind_assoc]
    refine bind_congr fun t => ?_
    split
    · simp only [yieldNow_eq, bind_assoc]
    · rfl
  | remove saved =>
    simp only [proceed, proceedUntil, bind_assoc]
    rfl
  | times count script => cases count <;> exact plain _
  | _ => exact plain _

/-- A step is a turn and the switch that it asks for. -/
theorem advance_eq : advance = untilSwitch >>= dispatch := by
  unfold advance untilSwitch
  rw [bind_assoc]
  refine bind_congr fun t => ?_
  cases t.call with
  | nil =>
    cases t.script with
    | nil => rfl
    | cons pending script =>
      simp only [bind_assoc]
      exact bind_congr fun _ => proceed_eq pending
  | cons head frames =>
    simp only [advanceCall, advanceCallUntil, bind_assoc]
    refine bind_congr fun _ => bind_congr fun progress => bind_congr fun _ => ?_
    cases progress.request with
    | proceed => rfl
    | block => rfl
    | unblock id =>
      simp only [bind_assoc]
      funext s
      rw [bind_run]
      rcases unblock id s with ⟨outcome, mid, before⟩
      cases outcome with
      | error fault => rfl
      | ok a => simp [dispatch, bind_run]
    | check => exact checkPreemption_eq

end Simulation

end KernelSync
