import StagedPipeline.Engine.Drive
import StagedPipeline.Simulation.Call
import StagedPipeline.Simulation.Step

/-!
# The world of a rehearsal

A `World` holds an engine's store, a scripted executor and a clock that only moves when everybody
waits. A driving call is a stack of `Frame`s, innermost first: a frame is a job that waits, and the
frame on top of it is a step inside the executor call it waits for.
-/

namespace StagedPipeline.Simulation

/-- What is left to do in an executor call. -/
inductive Errand where
  /-- Come to the gate of a stage, and take the next outcome of the script behind it. -/
  | enter (stage : Stage)
  /-- Follow an outcome. -/
  | follow (stage : Stage) (outcome : Outcome)
  /-- Go on with what the call waits for. -/
  | resume (call : Call)
  /-- Make a step. -/
  | act (step : Step)
  /-- A step that is being made by the frame on top. -/
  | acting (step : Step)
  /-- Wait for some time. -/
  | delay (time : Nat)
  /-- Wait for a point in time. -/
  | until (time : Nat)
  /-- Log a step that has come to its end. -/
  | log (step : Step) (answer : Answer)
  | answer (answer : Except ExecutorError String)

/-- What a frame waits for. -/
inductive Hold where
  /-- An executor call, with the time its limit passes. -/
  | call (limit : Nat) (errands : List Errand)
  /-- The end of a rest. -/
  | rest (time : Nat)

/-- What can be driven. -/
inductive Job where
  | drive (drive : Drive)
  /-- All attempts of a stage. -/
  | trial (trial : Trial)
  /-- One attempt of a stage. -/
  | attempt (attempt : Attempt)

/-- How a job ends. -/
inductive Ending where
  | returned (result : DriveResult)
  | result (result : StageResult)
  | output (output : Except AttemptError StageOutput)
  /-- It was given up. -/
  | dropped

/-- A job that waits. -/
structure Frame where
  job : Job
  hold : Hold
  /-- When it is given up. -/
  dropAt : Option Nat

/-- How a call in the background stands. -/
inductive TaskState where
  /-- It has not begun. -/
  | fresh (entry : PipelineRecord.Entry) (id : PipelineId)
  | running (frames : List Frame)
  | ended (answer : Answer)

/-- A call in the background. -/
structure Task where
  number : Nat
  name : String
  state : TaskState
  aborting : Bool

/-- Everything a rehearsal changes. -/
structure World where
  engine : EngineConfig
  store : Store
  executor : ScriptedExecutor
  turns : Turns
  /-- The time, in milliseconds since the start. -/
  now : Nat
  /-- The number of the next identifier. -/
  nextId : Nat
  /-- The number of the next ticket or task. -/
  nextNumber : Nat
  /-- Names of pipelines, the latest first. -/
  names : List (String × PipelineId)
  /-- Pipelines that were created, with the names they were given. -/
  created : List (PipelineId × String)
  /-- Pipelines that were restored, with the time of their last change before. -/
  restored : List (PipelineId × Instant)
  tasks : List Task
  /-- Tasks that can go on, by number. -/
  queue : List Nat
  log : Array LogItem
  notices : Array Notice

namespace World

/-- The world before the first step. -/
def start (engine : EngineConfig) (executor : ScriptedExecutor) (turns : Turns)
    (firstId : Nat) : World :=
  ⟨engine, .empty, executor, turns, 0, firstId, 0, [], [], [], [], [], #[], #[]⟩

/-- The calendar time a rehearsal starts at: no restored pipeline was last changed just then. -/
def firstSecond : Int := 9223372036

/-- The present moment. -/
def moment (w : World) : Moment where
  elapsed := .ofMilliseconds w.now
  instant := ⟨firstSecond + (w.now / 1000 : Nat), w.now % 1000 * 1000000 + 1⟩

/-- The pipeline a name stands for. -/
def resolve (w : World) (name : String) : Option PipelineId :=
  (w.names.lookup name).or (PipelineId.parse name).toOption

/-- The pipeline as it is told to a caller. -/
def view (w : World) (p : Pipeline) : Answer :=
  .view p ((w.restored.lookup p.id).map fun before => p.updatedAt ≠ before)

/-- The pipelines with their status: restored ones by identifier, then created ones as they were
created. -/
def listing (w : World) : List (PipelineId × Status) :=
  let all := w.store.pipelines.map fun p => (p.id, p.status)
  let isCreated (entry : PipelineId × Status) : Bool := (w.created.lookup entry.1).isSome
  all.filter (!isCreated ·) ++ all.filter isCreated

end World

/-- Changing the world. -/
abbrev Play := StateM World

/-- Lets something happen in a world: what it yields, and the world afterwards. -/
def World.play {α : Type} (w : World) (action : Play α) : α × World :=
  action w

namespace Play

/-- Makes a step of the engine. -/
def apply {α : Type} (f : World → Effect α) : Play α := fun w =>
  let e := f w
  (e.value, { w with store := e.store, notices := w.notices ++ e.notices })

/-- Tells something. -/
def tell (notices : List Notice) : Play Unit :=
  modify fun w => { w with notices := w.notices ++ notices }

/-- Logs something. -/
def log (item : LogItem) : Play Unit :=
  modify fun w => { w with log := w.log.push item }

/-- A new number. -/
def number : Play Nat := fun w => (w.nextNumber, { w with nextNumber := w.nextNumber + 1 })

/-- The time. -/
def now : Play Nat := do
  return (← get).now

/-- Puts a task into the queue. -/
def wake (task : Nat) : Play Unit :=
  modify fun w => if w.queue.contains task then w else { w with queue := w.queue ++ [task] }

/-- Whether a frame waits at the gate of a stage with a ticket. -/
def waitsWith (stage : Stage) (ticket : Nat) (frame : Frame) : Bool :=
  match frame.hold with
  | .call _ (.resume (.gated other held) :: _) => other = stage && held == ticket
  | _ => false

/-- The tasks that have just been let through the gate of a stage. -/
def releasedTasks (w : World) (stage : Stage) : List Nat :=
  let called := ((w.executor.gates.get stage).map (·.release.called)).getD []
  (w.tasks.filter fun task =>
    match task.state with
    | .running frames =>
      frames.any fun frame => called.any fun ticket => waitsWith stage ticket frame
    | _ => false).map (·.number)

/-- Wakes the tasks that are let through the gate of a stage. -/
def wakeReleased (stage : Stage) : Play Unit := do
  for task in releasedTasks (← get) stage do
    wake task

/-- Changes the gate of a stage, and wakes the tasks that are let through. -/
def onGate (stage : Stage) (f : Gate → Gate) : Play Unit := do
  modify fun w => { w with executor := w.executor.onGate stage f }
  wakeReleased stage

/-- Takes a call of the executor further. -/
def serve (stage : Stage) (f : World → ScriptedExecutor × Call.Progress) : Play Call.Progress := do
  let (executor, progress) := f (← get)
  modify fun w => { w with executor }
  wakeReleased stage
  return progress

/-- Waits for the bell of a gate. -/
def waitAt (stage : Stage) (bell : Gate → Bell) (put : Bell → Gate → Gate) (ticket : Nat) :
    Play Bool := do
  match (← get).executor.gates.get stage with
  | none => return false
  | some gate =>
    let (b, rung) := (bell gate).wait ticket
    modify fun w => { w with executor := w.executor.onGate stage (put b) }
    return rung

end Play

end StagedPipeline.Simulation
