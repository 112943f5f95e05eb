import StagedPipeline.Simulation.World

/-!
# Letting a call go on

`Play.poll` takes a stack of frames as far as it can go at the present time. What is ready goes
first; then the innermost limit that has passed ends the wait it belongs to, and with it everything
inside.
-/

namespace StagedPipeline.Simulation

/-- The answer a job's end gives to the step that started it. -/
def Ending.toAnswer : Ending → Answer
  | .returned (.ok p) => .brief p
  | .returned (.error e) => .failed e
  | .dropped => .dropped
  | _ => .done

/-- How far a stack of frames has come. -/
inductive Polled where
  | waiting (frames : List Frame)
  | ended (ending : Ending)

/-- What comes of the innermost frame. -/
inductive Advance where
  /-- It goes on. -/
  | going (frame : Frame)
  /-- It goes on under a new one. -/
  | under (inner frame : Frame)
  | ended (ending : Ending)
  /-- It has to wait. -/
  | blocked

namespace Play

/-- What is to do in a call for its outcome. -/
def outcomeErrand (stage : Stage) : Option Outcome → Errand
  | some outcome => .follow stage outcome
  | none => .enter stage

/-- What is to do next in a call that has come so far. -/
def nextErrand : Call.Progress → Errand
  | .waiting call => .resume call
  | .answered answer => .answer answer

/-- Starts a wait. -/
def await (wait : Wait) : Play Hold := do
  let w ← get
  match wait with
  | .rest delay => return .rest (w.now + delay.milliseconds)
  | .answer request limit =>
    let errands ← match stageOf? request.systemPrompt with
      | none => pure [Errand.answer (.error ScriptedExecutor.unrecognised)]
      | some stage => do
        log (.call stage w.now request)
        let (turns, turn) := w.turns.take stage
        modify fun w => { w with executor := w.executor.note stage, turns }
        pure (turn.acts.map Errand.act ++ [outcomeErrand stage turn.outcome])
    return .call (w.now + limit.milliseconds) errands

/-- Starts to drive a pipeline. -/
def startDrive (entry : PipelineRecord.Entry) (id : PipelineId) (dropAfter : Option Nat) :
    Play (Ending ⊕ Frame) := do
  let dropAt := dropAfter.map ((← now) + ·)
  let progress ← apply fun w =>
    match entry with
    | .execute => Engine.execute w.engine id w.moment w.store
    | .resume => Engine.resume w.engine id w.moment w.store
  match progress with
  | .returned result => return .inl (.returned result)
  | .waiting drive wait => return .inr ⟨.drive drive, ← await wait, dropAt⟩

/-- Creates a pipeline under a name. -/
def create (name : String) (config : PipelineConfig) : Play Answer := do
  let id := PipelineId.ofNat (← get).nextId
  match ← apply fun w => Engine.create id config w.moment w.store with
  | .error e => return .failed e
  | .ok p =>
    modify fun w =>
      { w with
        nextId := w.nextId + 1
        names := (name, id) :: w.names
        created := (id, name) :: w.created }
    return (← get).view p

/-- Restores a pipeline under a name. -/
def restore (name : String) (pipeline : Pipeline) (config : PipelineConfig) : Play Answer := do
  let p ← apply fun w => Engine.restore pipeline config w.moment w.store
  modify fun w =>
    { w with
      names := (name, pipeline.id) :: w.names
      restored := (pipeline.id, pipeline.updatedAt) :: w.restored }
  return (← get).view p

/-- The answer to a call that yields nothing but may fail. -/
def unitAnswer : Except PipelineError Unit → Answer
  | .ok _ => .done
  | .error e => .failed e

/-- Makes a step on the pipeline of a name. -/
def withId (name : String) (f : PipelineId → Play Answer) : Play Answer := do
  match (← get).resolve name with
  | some id => f id
  | none => return .unknownName

/-- Makes a step that takes no time. Steps that wait are left alone. -/
def perform (step : Step) : Play Answer := do
  match step with
  | .create name config => create name config
  | .restore name pipeline config => restore name pipeline config
  | .pause name =>
    withId name fun id => return unitAnswer (← apply fun w => Engine.pause id w.moment w.store)
  | .cancel name =>
    withId name fun id => return unitAnswer (← apply fun w => Engine.cancel id w.moment w.store)
  | .state name =>
    withId name fun id => do
      let w ← get
      return ((w.store.pipeline? id).map w.view).getD .nothing
  | .config name =>
    withId name fun id => return .config (((← get).store.get? id).map (·.config))
  | .report name =>
    withId name fun id => do
      match (← get).store.pipeline? id with
      | none => return .report none
      | some p => return ((Report.ofPipeline? p).map (.report ∘ some)).getD .tooLong
  | .record name => withId name fun id => return .record ((← get).store.get? id)
  | .remove name =>
    withId name fun id => do
      let held := (← get).store.get? id
      modify fun w => { w with store := w.store.remove id }
      return .removed held
  | .list => return .list (← get).listing
  | .release stage => do
    onGate stage fun gate => { gate with release := gate.release.ring }
    return .done
  | _ => return .done

/-- Gives a signal to the job of a frame. -/
def signal (frame : Frame) (s : Signal) : Play Advance := do
  let w ← get
  let going (job : Job) (wait : Wait) : Play Advance := do
    return .going { frame with job, hold := ← await wait }
  match frame.job with
  | .drive drive =>
    match drive.resume w.engine s w.moment w.store with
    | none => return .blocked
    | some effect =>
      match ← apply fun _ => effect with
      | .returned result => return .ended (.returned result)
      | .waiting drive wait => going (.drive drive) wait
  | .trial trial =>
    match trial.resume (.ofEngine w.engine) s w.moment.elapsed with
    | none => return .blocked
    | some (progress, notices) => do
      tell notices
      match progress with
      | .finished result => return .ended (.result result)
      | .waiting trial wait => going (.trial trial) wait
  | .attempt attempt =>
    match attempt.conclude s with
    | none => return .blocked
    | some (output, notices) => do
      tell notices
      return .ended (.output output)

/-- Takes the first errand of a call in hand. -/
def runErrand (frame : Frame) (limit : Nat) (errand : Errand) (rest : List Errand) :
    Play Advance := do
  let going (errands : List Errand) : Play Advance :=
    return .going { frame with hold := .call limit errands }
  match errand with
  | .enter stage => do
    let ticket ← number
    going (nextErrand (← serve stage fun w => w.executor.enter stage ticket w.now) :: rest)
  | .follow stage outcome => going (nextErrand (outcome.follow stage (← now)) :: rest)
  | .resume call => do
    let w ← get
    if w.executor.isReady w.now call then
      going (nextErrand (← serve call.stage fun w => w.executor.poll w.now call) :: rest)
    else return .blocked
  | .act (.sleep time) => going (.delay time :: .log (.sleep time) .done :: rest)
  | .act (.drive entry name dropAfter) => do
    let step := Step.drive entry name dropAfter
    match (← get).resolve name with
    | none => going (.log step .unknownName :: rest)
    | some id =>
      match ← startDrive entry id dropAfter with
      | .inl ending => going (.log step ending.toAnswer :: rest)
      | .inr inner =>
        return .under inner { frame with hold := .call limit (.acting step :: rest) }
  | .act step => do
    let answer ← perform step
    going (.log step answer :: rest)
  | .acting _ => return .blocked
  | .delay time => going (.until ((← now) + time) :: rest)
  | .until time => if time ≤ (← now) then going rest else return .blocked
  | .log step answer => do
    log (.act step answer)
    going rest
  | .answer answer => signal frame (.answered answer)

/-- Takes the innermost frame one step further. -/
def advance (frame : Frame) : Play Advance := do
  match frame.hold with
  | .rest time => if time ≤ (← now) then signal frame .rested else return .blocked
  | .call _ [] => return .blocked
  | .call limit (errand :: rest) => runErrand frame limit errand rest

/-- Gives up what a frame waits for. -/
def leave (frame : Frame) : Play Unit := do
  match frame.hold with
  | .call _ (.resume call :: _) => do
    modify fun w => { w with executor := w.executor.abandon call }
    wakeReleased call.stage
  | _ => pure ()

/-- Gives up a frame. -/
def drop (frame : Frame) : Play Unit := do
  leave frame
  match frame.job with
  | .drive drive => apply fun w => drive.drop w.moment w.store
  | _ => pure ()

/-- Tells a frame how the step on top of it ended. -/
def deliver (ending : Ending) (frame : Frame) : Frame :=
  match frame.hold with
  | .call limit (.acting step :: rest) =>
    { frame with hold := .call limit (.log step ending.toAnswer :: rest) }
  | _ => frame

/-- The innermost frame with a limit that has passed, those inside it, whether it is given up, and
those around it. -/
def passed? (now : Nat) : (inner : List Frame) → List Frame →
    Option (List Frame × Frame × Bool × List Frame)
  | _, [] => none
  | inner, frame :: around =>
    let timedOut : Bool := match frame.hold with
      | .call limit _ => decide (limit ≤ now)
      | .rest _ => false
    if timedOut then some (inner, frame, false, around)
    else if frame.dropAt.any (· ≤ now) then some (inner, frame, true, around)
    else passed? now (inner ++ [frame]) around

/-- Takes a stack of frames as far as it can go now. -/
def poll : (fuel : Nat) → List Frame → Play Polled
  | 0, frames => return .waiting frames
  | _ + 1, [] => return .ended .dropped
  | fuel + 1, top :: below => do
    let close (ending : Ending) (around : List Frame) : Play Polled :=
      match around with
      | [] => return .ended ending
      | frame :: rest => poll fuel (deliver ending frame :: rest)
    match ← advance top with
    | .going frame => poll fuel (frame :: below)
    | .under inner frame => poll fuel (inner :: frame :: below)
    | .ended ending => close ending below
    | .blocked =>
      match passed? (← now) [] (top :: below) with
      | none => return .waiting (top :: below)
      | some (inner, frame, givenUp, around) => do
        for f in inner do
          drop f
        if givenUp then do
          drop frame
          close .dropped around
        else do
          leave frame
          match ← signal frame .timedOut with
          | .going frame => poll fuel (frame :: around)
          | .ended ending => close ending around
          | _ => return .waiting (frame :: around)

/-- The times at which a stack of frames can go on by itself. -/
def timers (frames : List Frame) : List Nat :=
  frames.flatMap fun frame =>
    frame.dropAt.toList ++
      match frame.hold with
      | .rest time => [time]
      | .call limit (.resume (.asleep _ time _) :: _) => [limit, time]
      | .call limit (.until time :: _) => [limit, time]
      | .call limit _ => [limit]

end Play

end StagedPipeline.Simulation
