import KernelSync.Simulation.Dispatch

/-!
Steps of a simulation. The current thread advances its call by one stretch or, between calls, does
the next thing pending in its script. A fault unwinds what the thread was doing, innermost first,
up to the nearest place where it is caught.
-/

namespace KernelSync.Simulation

/-- Reports that an action of the current thread is over. -/
def conclude (action : String) (reply : Reply) : Stretch Simulation Unit := do
  let t ← Stretch.read (·.currentThread)
  let priority ← inKernel (Kernel.inSection fun _ =>
    Kernel.withThreads (ThreadTable.priority t.id))
  Stretch.report (.acted t.name action reply priority)

/-- Runs a computation on the thread table in a section of its own. -/
def askTable {α : Type} (x : Stretch ThreadTable α) : Stretch Simulation α :=
  inKernel (Kernel.inSection fun _ => Kernel.withThreads x)

/-! ### Actions -/

/-- Adds a semaphore to the kernel. -/
def newSemaphore (count : Nat) : Stretch Simulation SemaphoreId := do
  let s ← Stretch.read (·.kernel.nextSemaphore)
  Stretch.update fun sim => { sim with kernel := sim.kernel.addSemaphore count }
  pure s

/-- A thread that has yet to run its script. -/
def SimThread.fresh (id : ThreadId) (name : String) (script : List Action)
    (disguise : Option Disguise) (exited : SemaphoreId) : SimThread :=
  { id, name
    script := .start :: .actions script ::
      (disguise.map Pending.disguise).toList ++ [.finish exited] }

/-- Creates a thread and lets it run if it is more urgent. A name with the null character in it is
refused only when the thread is in the table: there it stays, and it never runs. -/
def spawn (name : String) (level : Nat) (script : List Action) (disguise : Option Disguise) :
    Stretch Simulation Unit := do
  let priority ← Stretch.ofExcept (Priority.ofLevel level)
  let saved ← inKernel Kernel.enter
  match ← Stretch.onFault (inKernel (Kernel.withThreads (ThreadTable.spawn name priority)))
    (inKernel (Kernel.leave saved)) with
  | .error reason =>
      inKernel (Kernel.leave saved)
      conclude "spawn" (.exhausted reason)
  | .ok id =>
      Stretch.onFault (Stretch.require ('\x00' ∉ name.toList) (.nullInName name))
        (inKernel (Kernel.leave saved))
      let exited ← newSemaphore 0
      Stretch.update fun s =>
        { s with threads := s.threads ++ [.fresh id name script disguise exited] }
      Stretch.log (.spawned id name priority)
      Stretch.onFault (unblock id) (inKernel (Kernel.leave saved))
      push (.over "spawn" (.created id name))
      push (.known name id exited)
      setCall [.check, .leave saved]

/-- Waits for the end of a thread, which can be done once. -/
def join (name : String) : Stretch Simulation Unit := do
  match (← Stretch.read (·.joinable)).find? fun handle => handle.name = name with
  | none => conclude "join" .unknown
  | some handle =>
      Stretch.update fun s => { s with joinable := s.joinable.filter (·.name ≠ name) }
      Stretch.log (.joining handle.thread name)
      push (.over "join" .done)
      setCall [.call (.down handle.exited)]

/-- Changes the base priority of the current thread. -/
def setPriority (level : Nat) : Stretch Simulation Unit := do
  let priority ← Stretch.ofExcept (Priority.ofLevel level)
  let me ← Stretch.read (·.current)
  let saved ← inKernel Kernel.enter
  let effective ← Stretch.onFault
    (do
      let mode ← Stretch.read (·.kernel.mode)
      inKernel (Kernel.withThreads (Donation.changeBasePriority me priority mode)))
    (inKernel (Kernel.leave saved))
  Stretch.log (.prioritySet me priority effective)
  push (.over "set_priority" .done)
  setCall [.check, .leave saved]

def showPriority (id : ThreadId) : Stretch Simulation Unit := do
  let effective ← askTable (ThreadTable.priority id)
  let base ← askTable (ThreadTable.basePriority id)
  conclude "prio" (.priorities effective base)

/-- Begins an interrupt handler. -/
def interrupt (script : List Action) : Stretch Simulation Unit := do
  Stretch.require (¬ (← Stretch.read (·.kernel.inInterrupt))) .nestedInterrupt
  Stretch.update fun s => { s with kernel := { s.kernel with inInterrupt := true } }
  let saved ← inKernel Kernel.enter
  push (.over "interrupt" .done)
  push .handlerReturned
  push (.handler saved)
  push (.actions script)

/-- Ends an interrupt handler, also one that is left by a fault. -/
def leaveHandler (saved : Nat) : Stretch Simulation Unit := do
  inKernel (Kernel.leave saved)
  Stretch.update fun s => { s with kernel := { s.kernel with inInterrupt := false } }

def setVariable (index : Nat) (value : Int64) : Stretch Simulation Unit :=
  Stretch.update fun s => { s with values := s.values.set index value }

/-- Does one action, or begins it and leaves the rest pending. -/
def perform : Action → Stretch Simulation Unit
  | .call made => do
      push (.over (callName made) .done)
      setCall [.call made]
  | .short made => do
      let answer ← inKernel (made.run (← Stretch.read (·.current)))
      Stretch.update (·.modifyCurrent ({ · with last := answer }))
      conclude (shortName made) (.flag answer)
  | .permits s => do
      let count ← inKernel (Kernel.inSection fun _ => Semaphore.readCount s)
      let waiters ← inKernel (Kernel.inSection fun _ => Semaphore.readWaiterCount s)
      conclude "sem" (.pair count waiters)
  | .holder lock => do
      conclude "holder" (.holder (← inKernel (Kernel.inSection fun _ => Lock.readHolder lock)))
  | .registrations c => do
      let waiters ← inKernel (Kernel.inSection fun _ => Condvar.readWaiterCount c)
      conclude "cond" (.number waiters)
  | .waitWhile c lock condition => push (.waiting c lock condition 0)
  | .spawn name level script disguise => spawn name level script disguise
  | .join name => join name
  | .yield => do
      push (.over "yield" .done)
      yieldNow
  | .setPriority level => setPriority level
  | .priority => do showPriority (← Stretch.read (·.current))
  | .priorityOf name => do
      match (← Stretch.read (·.known)).find? fun entry => entry.1 = name with
      | some entry => showPriority entry.2
      | none => conclude "prio" .unknown
  | .threads => do
      conclude "threads" (.number (← askTable (Stretch.read (·.live))))
  | .mode => do conclude "mode" (.text (← Stretch.read (·.kernel.mode.text)))
  | .inInterrupt => do conclude "irq" (.flag (← Stretch.read (·.kernel.inInterrupt)))
  | .interrupt script => interrupt script
  | .snapshot => do conclude "snap" (.records (← askTable (Stretch.read (·.entries))))
  | .showKernel => do conclude "show" (.text (← Stretch.read debugText))
  | .note written => conclude "note" (.label written)
  | .set index value => setVariable index value
  | .add index amount => do
      let value := (← Stretch.read (·.valueOf index)) + amount
      setVariable index value
      conclude "add" (.integer value.toInt)
  | .times count script => push (.times count script)
  | .ifLast yes no => do
      push (.actions (if (← Stretch.read (·.currentThread.last)) then yes else no))
  | .branch condition yes no => do
      push (.actions (if (← Stretch.read condition.holds) then yes else no))
  | .attempt script => do
      push .attempt
      push (.actions script)
  | .raise text => Stretch.fail (.raised text)
  | .raiseWithoutText => Stretch.fail .raisedWithoutText
  | .nested => Stretch.fail .nestedSimulation
  | .foreign => conclude "foreign" (.fault .noSimulatedThread)
  | .unknown => Stretch.fail .unknownAction

/-! ### Pending parts of a script -/

/-- Goes on with what was pending. -/
def proceed : Pending → Stretch Simulation Unit
  | .start => do
      let me ← Stretch.read (·.current)
      Stretch.log (.started me)
      conclude "start" (.thread me)
  | .actions [] => pure ()
  | .actions (action :: actions) => do
      push (.actions actions)
      perform action
  | .times 0 _ => pure ()
  | .times (count + 1) script => do
      push (.times count script)
      push (.actions script)
  | .waiting c lock condition waits => do
      if ← Stretch.read condition.holds then
        push (.waiting c lock condition (waits + 1))
        setCall [.call (.wait c lock)]
      else conclude "wait_while" (.number waits)
  | .over action reply => conclude action reply
  | .known name id exited =>
      Stretch.update fun s =>
        { s with
          joinable := ⟨name, id, exited⟩ :: s.joinable.filter (·.name ≠ name)
          known := (name, id) :: s.known.filter (·.1 ≠ name) }
  | .attempt => conclude "catch" .done
  | .handler saved => leaveHandler saved
  | .handlerReturned => do
      let t ← Stretch.read (·.currentThread)
      if t.yieldOnReturn then
        Stretch.update (·.modifyCurrent ({ · with yieldOnReturn := false }))
        Stretch.log (.yieldsOnReturn t.id)
        yieldNow
  | .disguise _ => pure ()
  | .returned => Stretch.update ({ · with result := some (.ok ()) })
  | .finish exited => do
      conclude "end" .done
      push (.remove (← inKernel Kernel.enter))
      setCall [.call (.up exited)]
  | .remove saved => do
      let me ← Stretch.read (·.current)
      let r ← Stretch.onFault (inKernel (Kernel.withThreads (ThreadTable.remove me)))
        (inKernel (Kernel.leave saved))
      Stretch.log (.exited me r.name)
      Stretch.update (·.modifyCurrent ({ · with script := [] }))
      switch .exit

/-- Advances the call of the current thread, and does what it asks of the scheduler. A call that
is cut short has been unwound. -/
def advanceCall (me : ThreadId) (frames : List Frame) : Stretch Simulation Unit := do
  setCall []
  let progress ← inKernel (Frame.step me frames)
  setCall progress.frames
  match progress.request with
  | .proceed => pure ()
  | .block =>
      Stretch.log (.blocks me)
      switch .block
  | .unblock id => unblock id
  | .check => checkPreemption

/-- Advances the current thread. -/
def advance : Stretch Simulation Unit := do
  let t ← Stretch.read (·.currentThread)
  match t.call, t.script with
  | [], [] => pure ()
  | [], pending :: script =>
      Stretch.update (·.modifyCurrent ({ · with script }))
      proceed pending
  | frames, _ => advanceCall t.id frames

/-! ### Faults -/

/-- Unwinds a script. Gives what is left of it and the fault, unless it was caught. -/
def unwindScript (fault : Fault) : List Pending →
    Stretch Simulation (List Pending × Option String × Option Fault)
  | [] => return ([], none, some fault)
  | .attempt :: script => do
      conclude "catch" (.fault fault)
      return (script, none, none)
  | .handler saved :: script => do
      leaveHandler saved
      unwindScript fault script
  | .remove saved :: script => do
      inKernel (Kernel.leave saved)
      unwindScript fault script
  | .disguise d :: _ => return ([], d.shown.2, some d.shown.1)
  | _ :: script => unwindScript fault script

/-- Unwinds the current thread. Gives the fault, unless it was caught. -/
def unwind (fault : Fault) : Stretch Simulation (Option Fault) := do
  let t ← Stretch.read (·.currentThread)
  inKernel (Frame.unwind t.call)
  let (script, escaped, uncaught) ← unwindScript fault t.script
  Stretch.update (·.modifyCurrent ({ · with call := [], script, escaped }))
  pure uncaught

/-- Ends the simulation with a fault of the main thread. -/
def endWith (fault : Option Fault) : Stretch Simulation Unit :=
  match fault with
  | none => pure ()
  | some fault => Stretch.update ({ · with result := some (.error fault) })

/-- Lets the current thread meet a fault. Uncaught, it ends the simulation: at once if the thread
is the main one, and else as a failure that the main thread meets in turn. -/
def meet (fault : Fault) : Stretch Simulation Unit := do
  let t ← Stretch.read (·.currentThread)
  match ← unwind fault with
  | none => pure ()
  | some fault =>
      if t.id = (← Stretch.read (·.main)) then endWith (some fault)
      else
        recordFault t fault
        match ← Stretch.catching collapse with
        | .ok () => pure ()
        | .error fault => endWith (← unwind fault)

/-- One step of the simulation. -/
def step : Stretch Simulation Unit := do
  match ← Stretch.catching advance with
  | .ok () => pure ()
  | .error fault => meet fault

end KernelSync.Simulation
