import StagedPipeline.CommandLine.Invocation
import StagedPipeline.CommandLine.Progress
import StagedPipeline.Engine.Drive
import StagedPipeline.Report

/-!
# Sessions

A session creates one pipeline and drives it to its end. While it waits, the state of the pipeline
is looked at from time to time, and an interrupt cancels it; the session still ends with the drive,
whose pipeline is then summed up in a report. `Session.next` is the one transition, from one
`Happening` to the next.
-/

namespace StagedPipeline.CommandLine

/-- What a session tells its user while it goes on. -/
inductive Remark where
  | line (text : String)
  | log (entry : LogEntry)
deriving DecidableEq, Repr

/-- Notices, as remarks. -/
def Remark.ofNotices (notices : List Notice) : List Remark :=
  notices.map fun notice => .log notice.entry

/-- What a session hears. -/
inductive Happening where
  /-- The drive gets its first turn. -/
  | begun
  /-- What the drive waits for has ended. -/
  | ended (signal : Signal)
  /-- It is time to look at the pipeline. -/
  | tick
  /-- The user wants to stop. -/
  | interrupt

/-- A pipeline that is being driven. -/
structure Session where
  engine : EngineConfig
  id : PipelineId
  store : Store
  /-- How far the drive has come; nothing before its first turn. -/
  progress : Option Progress
  /-- The progress line that was told last. -/
  lastLine : String

namespace Session

/-- A remark of the program itself about a pipeline. -/
def remark (level : LogLevel) (id : PipelineId) (message : String) : Remark :=
  .log ⟨level, "autopipe", message, [("pipeline_id", id.text)]⟩

/-- The settings of the pipeline that some options ask for. -/
def pipelineConfig (engine : EngineConfig) (options : RunOptions) : PipelineConfig :=
  options.apply (.ofEngine options.task engine)

/-- Creates the pipeline. -/
def start (engine : EngineConfig) (options : RunOptions) (id : PipelineId) (now : Moment) :
    Except PipelineError (Session × List Remark) :=
  let created := Engine.create id (pipelineConfig engine options) now .empty
  match created.value with
  | .error e => .error e
  | .ok p =>
    .ok (⟨engine, p.id, created.store, none, ""⟩,
      Remark.ofNotices created.notices ++ [.line ("Pipeline " ++ p.id.text ++ " created")])

/-- Tells how far the pipeline has come, if there is something new. -/
def look (s : Session) : Session × List Remark :=
  match s.store.pipeline? s.id with
  | none => (s, [])
  | some p =>
    let line := progressLine p.progress p.status p.current
    if line = s.lastLine then (s, []) else ({ s with lastLine := line }, [.line line])

/-- Cancels the pipeline. -/
def interrupt (s : Session) (now : Moment) : Session × List Remark :=
  let cancelled := Engine.cancel s.id now s.store
  ({ s with store := cancelled.store },
    remark .warning s.id "Interrupted, cancelling pipeline" :: Remark.ofNotices cancelled.notices)

/-- Takes over a step of the drive. -/
def follow (s : Session) (e : Effect Progress) : Session × List Remark :=
  ({ s with store := e.store, progress := some e.value }, Remark.ofNotices e.notices)

/-- Goes on. A session whose drive has returned hears nothing more. -/
def next (s : Session) (happening : Happening) (now : Moment) : Session × List Remark :=
  match s.progress, happening with
  | some (.returned _), _ => (s, [])
  | none, .begun => s.follow (Engine.execute s.engine s.id now s.store)
  | some (.waiting drive _), .ended signal =>
    match drive.resume s.engine signal now s.store with
    | some effect => s.follow effect
    | none => (s, [])
  | _, .tick => s.look
  | _, .interrupt => s.interrupt now
  | _, _ => (s, [])

/-- What the drive has returned. -/
def result? (s : Session) : Option DriveResult :=
  match s.progress with
  | some (.returned result) => some result
  | _ => none

/-- What is told once the drive has returned. -/
def closing (s : Session) : List Remark :=
  match s.result? with
  | some (.error e) => [remark .error s.id ("Pipeline did not complete: " ++ e.message)]
  | _ => []

/-- The pipeline as it is now. -/
def pipeline? (s : Session) : Option Pipeline :=
  s.store.pipeline? s.id

/-- The report of the pipeline as it is now, unless its results took longer together than a span can
be. -/
def report? (s : Session) : Option Report :=
  s.pipeline?.bind Report.ofPipeline?

/-- What ends the present wait, given how the executor answers. -/
def answer (respond : CompletionRequest → Except ExecutorError String) : Wait → Signal
  | .answer request _ => .answered (respond request)
  | .rest _ => .rested

/-- The next thing to happen if nobody interrupts; nothing once the drive has returned. -/
def awaited? (respond : CompletionRequest → Except ExecutorError String) (s : Session) :
    Option Happening :=
  match s.progress with
  | none => some .begun
  | some (.waiting _ wait) => some (.ended (answer respond wait))
  | some (.returned _) => none

/-- Drives the pipeline without interrupts, as far as `fuel` steps go. -/
def serve (respond : CompletionRequest → Except ExecutorError String) (now : Moment) :
    (fuel : Nat) → Session → Session × List Remark
  | 0, s => (s, [])
  | fuel + 1, s =>
    match s.awaited? respond with
    | none => (s, [])
    | some happening =>
      let (s, remarks) := s.next happening now
      let (s, more) := serve respond now fuel s
      (s, remarks ++ more)

/-- Steps that are enough to come to the end: for every stage an answer and a rest for each attempt,
and the first turn. -/
def enough (budget : UInt32) : Nat :=
  Stage.count * (2 * (budget.toNat + 1)) + 1

end Session

end StagedPipeline.CommandLine
