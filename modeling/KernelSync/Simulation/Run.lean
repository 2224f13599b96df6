import KernelSync.Simulation.Step

/-!
Whole runs of a simulation: from the first thread to the outcome. The outcome is the fault of the
main thread if its script ended in one; else the first failure, also one that the main thread had
caught; else a fault that escaped from a thread given up at the end.
-/

namespace KernelSync.Simulation

/-- What a simulation is started with. -/
structure Settings where
  mode : SchedulingMode := .priorityDonation
  capacity : Nat := 64
  mainLevel : Nat := 31
  /-- The counts of the semaphores that stand alone. -/
  counts : List Nat := []
  locks : Nat := 0
  condvars : Nat := 0
  values : List Int64 := []
  deriving DecidableEq, Repr

/-- The lock at a place among the locks; their semaphores come after those that stand alone. -/
def Settings.lock (settings : Settings) (index : Nat) : Lock :=
  ⟨⟨index + 1⟩, ⟨settings.counts.length + index⟩⟩

/-- The thread table with the main thread in it. -/
def Settings.table (settings : Settings) : Stretch ThreadTable ThreadId := do
  let priority ← Stretch.ofExcept (Priority.ofLevel settings.mainLevel)
  Stretch.update fun _ => .empty settings.capacity
  let _ ← Stretch.ofExcept (ThreadTable.ofCapacity settings.capacity)
  match ← ThreadTable.spawn "main" priority with
  | .ok id => pure id
  | .error reason => Stretch.fail (.cannotStart reason)

/-- The simulation before its first step. -/
def Settings.start (settings : Settings) (script : List Action) (table : ThreadTable)
    (main : ThreadId) : Simulation where
  kernel := {
    threads := ⟨table, false⟩
    semaphores :=
      (settings.counts ++ List.replicate settings.locks 1).map fun count => ⟨⟨count, []⟩, false⟩
    condvars := List.replicate settings.condvars ⟨[], false⟩
    data := []
    mode := settings.mode
    depth := 0
    inInterrupt := false }
  queue := ⟨some main, [], none, false⟩
  threads := [{ id := main, name := "main", script := [.actions script, .returned] }]
  main := main
  current := main
  values := settings.values
  joinable := []
  known := []
  result := none

/-- Steps until the script of the main thread has ended, at most `fuel` times. What each step
reports is put in front of `reported`. -/
def steps : Nat → Simulation → List (List Event) → Simulation × List (List Event)
  | 0, s, reported => (s, reported)
  | fuel + 1, s, reported =>
      if s.result.isSome then (s, reported)
      else
        let run := step s
        steps fuel run.state (run.events :: reported)

/-- More steps than a script can take. An action takes fewer than twenty steps, and a few more for
each thread that it wakes; a wake-up uses up a wait, or a pass of `broadcast` over a thread. -/
def patience (script : List Action) : Nat := 64 * ((weightOf script + 2) * (weightOf script + 2))

/-- Reports what is found when the threads that were given up are joined. -/
def reportEscapes : List SimThread → Stretch Simulation (Option Failure)
  | [] => pure none
  | t :: rest =>
      match t.escaped with
      | none => reportEscapes rest
      | some text => do
          let failure := Failure.escaped t.name text
          Stretch.log (.shutdownFailed failure.text)
          let _ ← reportEscapes rest
          pure (some failure)

/-- Gives up the threads that are left, and decides the outcome. -/
def finish : Stretch Simulation Unit := do
  let failure ← Stretch.read (·.queue.failure)
  retireOthers
  let escape ← reportEscapes (← Stretch.read (·.threads))
  match ← Stretch.read (·.result) with
  | none => Stretch.fail .unfinished
  | some (.error fault) =>
      Stretch.log (.simulationFinished false)
      Stretch.fail fault
  | some (.ok ()) =>
      Stretch.log (.simulationFinished true)
      match failure <|> escape with
      | some failure => Stretch.fail (.ended failure.text)
      | none => pure ()

/-- A whole run: what was reported, and the outcome. -/
structure Report where
  events : List Event
  outcome : Except Fault Unit

/-- Runs a script as the main thread of a new simulation, for at most `fuel` steps. -/
def runFor (fuel : Nat) (settings : Settings) (script : List Action) : Report :=
  let boot := settings.table (.empty 0)
  match boot.outcome with
  | .error fault => ⟨boot.events, .error fault⟩
  | .ok main =>
      let opening := Event.log (.simulationStarted settings.mode settings.capacity)
      let (last, reported) := steps fuel (settings.start script boot.state main) []
      let final := finish last
      ⟨boot.events ++ opening :: reported.reverse.flatten ++ final.events, final.outcome⟩

/-- Runs a script to its end. -/
def run (settings : Settings) (script : List Action) : Report :=
  runFor (patience script) settings script

end KernelSync.Simulation
