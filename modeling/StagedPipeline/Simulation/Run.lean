import StagedPipeline.Simulation.Poll

/-!
# Rehearsals

`Play.run` makes steps one after the other. A step that has to wait lets the calls in the background
go on first; when nobody can go on, the clock moves to the next point in time at which somebody can.
Of what happens at the same time, the step goes before the background, and the background in the
order in which it was woken.
-/

namespace StagedPipeline.Simulation

/-- How long a step waits for the background, in milliseconds. -/
def patience : Nat := 1000

/-- What a step waits for. -/
inductive StepWait where
  | driving (frames : List Frame)
  | until (time : Nat)
  | entered (stage : Stage) (ticket limit : Nat)
  | joining (name : String) (limit : Nat)

/-- What is told about a step. -/
structure StepReport where
  answer : Answer
  /-- The time after the step. -/
  time : Nat
  log : List LogItem
  notices : List Notice
  /-- Calls of the executor so far. -/
  calls : Nat
  /-- The pipeline the step names, after it. -/
  state : Option Pipeline

namespace Play

/-- Changes the state of a task. -/
def setTask (number : Nat) (state : TaskState) : Play Unit :=
  modify fun w =>
    { w with
      tasks := w.tasks.map fun task =>
        if task.number = number then { task with state } else task }

/-- The latest task of a name. -/
def taskOf? (w : World) (name : String) : Option Task :=
  w.tasks.reverse.find? (·.name == name)

/-- Lets a task go on. -/
def pollTask (fuel number : Nat) : Play Unit := do
  match (← get).tasks.find? (·.number = number) with
  | none => pure ()
  | some task =>
    let settle : Polled → Play Unit
      | .waiting frames => setTask number (.running frames)
      | .ended ending => setTask number (.ended ending.toAnswer)
    match task.state, task.aborting with
    | .ended _, _ => pure ()
    | .fresh _ _, true => setTask number (.ended .aborted)
    | .running frames, true => do
      for frame in frames do
        drop frame
      setTask number (.ended .aborted)
    | .fresh entry id, false => do
      match ← startDrive entry id none with
      | .inl ending => setTask number (.ended ending.toAnswer)
      | .inr frame => settle (← poll fuel [frame])
    | .running frames, false => settle (← poll fuel frames)

/-- Lets all tasks in the queue go on. -/
def drain : (fuel : Nat) → Play Unit
  | 0 => pure ()
  | fuel + 1 => do
    match (← get).queue with
    | [] => pure ()
    | number :: rest => do
      modify fun w => { w with queue := rest }
      pollTask fuel number
      drain fuel

/-- Begins a step. -/
def beginStep (step : Step) : Play (Answer ⊕ StepWait) := do
  match step with
  | .drive entry name dropAfter =>
    match (← get).resolve name with
    | none => return .inl .unknownName
    | some id =>
      match ← startDrive entry id dropAfter with
      | .inl ending => return .inl ending.toAnswer
      | .inr frame => return .inr (.driving [frame])
  | .sleep time => return .inr (.until ((← now) + time))
  | .spawn entry name =>
    match (← get).resolve name with
    | none => return .inl .unknownName
    | some id => do
      let number ← number
      modify fun w => { w with tasks := w.tasks ++ [⟨number, name, .fresh entry id, false⟩] }
      wake number
      return .inl .done
  | .abort name => do
    match taskOf? (← get) name with
    | none => return .inl .unknownName
    | some task => do
      modify fun w =>
        { w with
          tasks := w.tasks.map fun t =>
            if t.number = task.number then { t with aborting := true } else t }
      wake task.number
      return .inl .done
  | .entered stage => do
    let ticket ← number
    if ← waitAt stage (·.entered) (fun b gate => { gate with entered := b }) ticket then
      return .inl .done
    else return .inr (.entered stage ticket ((← now) + patience))
  | .join name => return .inr (.joining name ((← now) + patience))
  | step => return .inl (← perform step)

/-- Lets a step go on. -/
def pollStep (fuel : Nat) (wait : StepWait) : Play (Answer ⊕ StepWait) := do
  let w ← get
  match wait with
  | .driving frames => do
    match ← poll fuel frames with
    | .waiting frames => return .inr (.driving frames)
    | .ended ending => return .inl ending.toAnswer
  | .until time => if time ≤ w.now then return .inl .done else return .inr wait
  | .entered stage ticket limit => do
    let called := (w.executor.gates.get stage).any fun gate => gate.entered.hasCalled ticket
    if called then do
      onGate stage fun gate => { gate with entered := gate.entered.go ticket }
      return .inl .done
    else if limit ≤ w.now then do
      onGate stage fun gate => { gate with entered := gate.entered.leave ticket }
      return .inl .stuck
    else return .inr wait
  | .joining name limit =>
    match taskOf? w name with
    | none => return .inl .unknownName
    | some task =>
      match task.state with
      | .ended answer => return .inl answer
      | _ => if limit ≤ w.now then return .inl .stuck else return .inr wait

/-- The times at which a step can go on by itself. -/
def stepTimers : StepWait → List Nat
  | .driving frames => timers frames
  | .until time => [time]
  | .entered _ _ limit => [limit]
  | .joining _ limit => [limit]

/-- The times at which a task can go on by itself. -/
def taskTimers (task : Task) : List Nat :=
  match task.state with
  | .running frames => timers frames
  | _ => []

/-- Moves the clock to the next point in time at which somebody can go on, and wakes the tasks that
can. There may be none. -/
def advanceClock (wait : StepWait) : Play Bool := do
  let w ← get
  let times := (stepTimers wait ++ w.tasks.flatMap taskTimers).filter (w.now < ·)
  match times.min? with
  | none => return false
  | some time => do
    modify fun w => { w with now := time }
    for task in w.tasks do
      if (taskTimers task).any (fun t => w.now < t && t ≤ time) then wake task.number
    return true

/-- Waits for a step to come to its end. -/
def finishStep : (fuel : Nat) → StepWait → Play Answer
  | 0, _ => return .stuck
  | fuel + 1, wait => do
    match ← pollStep fuel wait with
    | .inl answer => return answer
    | .inr wait => do
      drain fuel
      match ← pollStep fuel wait with
      | .inl answer => return answer
      | .inr wait => if ← advanceClock wait then finishStep fuel wait else return .stuck

/-- The name a step is about. -/
def nameOf? : Step → Option String
  | .create name _ => some name
  | .restore name _ _ => some name
  | .drive _ name _ => some name
  | .pause name => some name
  | .cancel name => some name
  | .state name => some name
  | .config name => some name
  | .report name => some name
  | .record name => some name
  | .remove name => some name
  | .spawn _ name => some name
  | .abort name => some name
  | .join name => some name
  | _ => none

/-- Makes a step. A step without a pipeline of its own may still be about one, by name. -/
def runStep (fuel : Nat) (step : Step) (about : Option String) : Play StepReport := do
  let answer ← match ← beginStep step with
    | .inl answer => pure answer
    | .inr wait => finishStep fuel wait
  let w ← get
  let state := ((nameOf? step).or about).bind fun name => (w.resolve name).bind w.store.pipeline?
  set { w with log := #[], notices := #[] }
  return ⟨answer, w.now, w.log.toList, w.notices.toList, w.executor.calls.length, state⟩

/-- Makes steps one after the other. -/
def run (fuel : Nat) : List (Step × Option String) → Play (List StepReport)
  | [] => return []
  | (step, about) :: rest => do
    let report ← runStep fuel step about
    return report :: (← run fuel rest)

/-- Calls the executor with a system prompt, and waits for its answer. -/
def call (systemPrompt : String) : Play (Except ExecutorError String) := do
  match stageOf? systemPrompt with
  | none => return .error ScriptedExecutor.unrecognised
  | some stage => do
    let (executor, outcome) := ((← get).executor.note stage).take stage
    modify fun w => { w with executor, now := w.now + outcome.totalDelay }
    return outcome.answer stage

/-- Runs a job on its own to its end. -/
def runJob (fuel : Nat) (job : Job) (wait : Wait) : Play Ending := do
  let frame : Frame := ⟨job, ← await wait, none⟩
  go fuel [frame]
where
  go : Nat → List Frame → Play Ending
    | 0, _ => return .dropped
    | fuel + 1, frames => do
      match ← poll fuel frames with
      | .ended ending => return ending
      | .waiting frames =>
        if ← advanceClock (.driving frames) then go fuel frames else return .dropped

/-- Runs all attempts of a stage. -/
def runTrial (fuel : Nat) (attempt : Attempt) : Play Ending := do
  let w ← get
  let (trial, wait, notices) := Trial.start (.ofEngine w.engine) attempt w.moment.elapsed
  tell notices
  runJob fuel (.trial trial) wait

/-- Runs one attempt of a stage. -/
def runAttempt (fuel : Nat) (attempt : Attempt) : Play Ending := do
  let w ← get
  let (wait, notices) := attempt.start w.engine.completion
  tell notices
  runJob fuel (.attempt attempt) wait

end Play

end StagedPipeline.Simulation
