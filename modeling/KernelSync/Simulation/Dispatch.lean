import KernelSync.Simulation.State

/-!
Dispatch: which thread runs next, and what becomes of the threads when the simulation fails. The
most urgent ready thread runs, and among equals the one that has been ready longest. The first
failure ends the simulation: the main thread meets it as a fault wherever it is, and all others are
given up where they are.
-/

namespace KernelSync.Simulation

/-! ### Choosing -/

/-- The most urgent of `best` and the listed threads, the earliest among equals. -/
def mostUrgent (best : ThreadId) (urgency : Priority) :
    List ThreadId → Stretch ThreadTable ThreadId
  | [] => pure best
  | id :: rest => do
      let priority ← ThreadTable.priority id
      if urgency < priority then mostUrgent id priority rest else mostUrgent best urgency rest

def pickNext : List ThreadId → Stretch ThreadTable (Option ThreadId)
  | [] => pure none
  | id :: rest => do return some (← mostUrgent id (← ThreadTable.priority id) rest)

/-- Whether a listed thread is more urgent than `urgency`. -/
def anyAbove (urgency : Priority) : List ThreadId → Stretch ThreadTable Bool
  | [] => pure false
  | id :: rest => do
      if urgency < (← ThreadTable.priority id) then pure true else anyAbove urgency rest

/-! ### Failing -/

def modifyQueue (f : RunQueue → RunQueue) : Stretch Simulation Unit :=
  Stretch.update fun s => { s with queue := f s.queue }

/-- A fault that occurs while the queue is in use. -/
def failInQueue (fault : Fault) : Stretch Simulation Unit := do
  modifyQueue ({ · with poisoned := true })
  Stretch.fail fault

/-- Records a failure, unless there has been one before. Nothing runs from now on. -/
def recordFailure (failure : Failure) : Stretch Simulation Unit :=
  modifyQueue fun q => { q with failure := q.failure <|> some failure, running := none }

/-- Records the fault in which a thread ended. -/
def recordFault (t : SimThread) (fault : Fault) : Stretch Simulation Unit := do
  let failure := Failure.faulted t.id t.name fault
  Stretch.log (.simulationFailed failure.text)
  recordFailure failure

/-- The disguise under which a thread would end; there is none before its script has begun. -/
def disguise? : List Pending → Option Disguise
  | [] => none
  | .start :: _ => none
  | .disguise d :: _ => some d
  | _ :: script => disguise? script

/-- The fault that a disguise shows, and the text with which it escapes. -/
def Disguise.shown : Disguise → Fault × Option String
  | .raise text => (.raised text, none)
  | .bomb text => (.raisedWithoutText, some text)

/-- Gives up a thread where it is. Only its disguise can show. -/
def retire (t : SimThread) : Stretch Simulation Unit := do
  Stretch.update (·.modifyThread t.id ({ · with call := [], script := [] }))
  match disguise? t.script with
  | none => pure ()
  | some d =>
      recordFault t d.shown.1
      Stretch.update (·.modifyThread t.id ({ · with escaped := d.shown.2 }))

def retireAll : List SimThread → Stretch Simulation Unit
  | [] => pure ()
  | t :: rest => do
      retire t
      retireAll rest

/-- Gives up every thread but the main one. -/
def retireOthers : Stretch Simulation Unit := do
  retireAll (← Stretch.read fun s => s.threads.filter fun t => t.id ≠ s.main)

/-- The fault with which the main thread meets the failure. -/
def endedFault (s : Simulation) : Fault := .ended ((s.queue.failure.map Failure.text).getD "")

/-- After a failure: gives up the other threads, and lets the main thread meet the failure. -/
def collapse : Stretch Simulation Unit := do
  retireOthers
  Stretch.update fun s => s.resume s.main
  Stretch.fail (← Stretch.read endedFault)

/-! ### Switching -/

/-- Nobody is left to run. -/
def deadlock : Stretch Simulation Unit := do
  let failure := Failure.deadlock (← inKernel (Kernel.withThreads (Stretch.read (·.entries))))
  Stretch.log (.simulationDeadlocked failure.text)
  recordFailure failure
  collapse

/-- Gives up the processor. Only the running thread may do so. -/
def switch (how : Switch) : Stretch Simulation Unit := do
  let me ← Stretch.read (·.current)
  let queue ← Stretch.read (·.queue)
  if queue.running ≠ some me then failInQueue (.notRunning queue.running me)
  else
    let ready := if how = .yield then queue.ready ++ [me] else queue.ready
    modifyQueue ({ · with ready })
    match ← inKernel (Kernel.withThreads (pickNext ready)) with
    | none => deadlock
    | some next =>
        if next ≠ me then Stretch.log (.switches me next how)
        modifyQueue ({ · with ready := ready.erase next, running := some next })
        Stretch.update (·.resume next)

/-- Makes a thread ready. -/
def unblock (id : ThreadId) : Stretch Simulation Unit := do
  let ready ← Stretch.read (·.queue.ready)
  if id ∈ ready then failInQueue (.alreadyReady id)
  else
    Stretch.log (.unblocks id)
    modifyQueue ({ · with ready := ready ++ [id] })

/-- Lets a more urgent ready thread run; a handler leaves that to its return. -/
def checkPreemption : Stretch Simulation Unit := do
  let me ← Stretch.read (·.current)
  let ready ← Stretch.read (·.queue.ready)
  let outranked ← inKernel (Kernel.withThreads do anyAbove (← ThreadTable.priority me) ready)
  if outranked then
    if ← Stretch.read (·.kernel.inInterrupt) then
      Stretch.update (·.modifyCurrent ({ · with yieldOnReturn := true }))
    else
      Stretch.log (.preempted me)
      switch .yield

/-- Yields in a section of its own. -/
def yieldNow : Stretch Simulation Unit := do
  setCall [.leave (← inKernel Kernel.enter)]
  switch .yield

end KernelSync.Simulation
