import StagedPipeline.Engine.Attempt
import StagedPipeline.Engine.Store

/-!
# Driving pipelines

The engine creates pipelines, drives them through their stages, and lets callers pause, resume,
cancel and restore them. Each operation is a step on the store. A driving call advances from one
wait to the next: it either returns, or leaves a `Drive` together with what it waits for, and
`Drive.resume` takes it from there. A drive that is not resumed any more is ended by `Drive.drop`.
-/

namespace StagedPipeline

/-- When a step happens. -/
structure Moment where
  /-- Time on a clock that only runs forward. -/
  elapsed : Duration
  /-- Time of the calendar. -/
  instant : Instant
deriving DecidableEq, Repr

/-- What a step leaves behind: the store, what is told about it, and its value. -/
structure Effect (α : Type) where
  store : Store
  notices : List Notice
  value : α

namespace Effect

/-- The same step with another value. -/
def map {α β : Type} (f : α → β) (e : Effect α) : Effect β :=
  ⟨e.store, e.notices, f e.value⟩

/-- The same step with notices in front. -/
def after {α : Type} (e : Effect α) (notices : List Notice) : Effect α :=
  { e with notices := notices ++ e.notices }

end Effect

/-- A driving call that waits. -/
structure Drive where
  id : PipelineId
  /-- The attempts of the stage that is being worked on. -/
  trial : Trial
deriving DecidableEq

/-- What a driving call returns. -/
abbrev DriveResult := Except PipelineError Pipeline

/-- How far a driving call has come. -/
inductive Progress where
  | waiting (drive : Drive) (wait : Wait)
  | returned (result : DriveResult)

/-- The pipeline as it is now. -/
def Store.snapshot (s : Store) (id : PipelineId) : DriveResult :=
  match s.pipeline? id with
  | some p => .ok p
  | none => .error (.notFound id)

namespace Drive

/-- Completes a pipeline behind its last stage. -/
def finish (id : PipelineId) (now : Moment) (store : Store) : Effect Progress :=
  match store.update id (·.finish id now.instant) with
  | (store, .ok p) => ⟨store, [.completed id], .returned (.ok p)⟩
  | (store, .error e) => ⟨store, [], .returned (.error e)⟩

/-- Comes to a stage: the call waits there or returns, or it passes over the stage. -/
def visit (engine : EngineConfig) (id : PipelineId) (stage : Stage) (now : Moment)
    (store : Store) : Effect (Option Progress) :=
  match store.update id (·.boundary id stage now.instant) with
  | (store, .error e) => ⟨store, [], some (.returned (.error e))⟩
  | (store, .ok .halt) => ⟨store, [.paused id stage], some (.returned (store.snapshot id))⟩
  | (store, .ok .skip) => ⟨store, [.skipping id stage], none⟩
  | (store, .ok (.run config artifacts)) =>
    let (trial, wait, notices) :=
      Trial.start (.ofEngine engine) ⟨stage, config, artifacts⟩ now.elapsed
    ⟨store, .starting id stage :: notices, some (.waiting ⟨id, trial⟩ wait)⟩

/-- Walks a pipeline through the stages ahead, up to the first wait. -/
def walk (engine : EngineConfig) (id : PipelineId) (now : Moment) :
    List Stage → Store → Effect Progress
  | [], store => finish id now store
  | stage :: ahead, store =>
    match visit engine id stage now store with
    | ⟨store, notices, some progress⟩ => ⟨store, notices, progress⟩
    | ⟨store, notices, none⟩ => (walk engine id now ahead store).after notices

/-- Hands the result of a stage in: the call returns, or it goes on. -/
def handIn (id : PipelineId) (result : StageResult) (now : Moment) (store : Store) :
    Effect (Option DriveResult) :=
  match store.update id (·.addResult id result now.instant) with
  | (store, .ok _) => ⟨store, [.stageCompleted id result.stage result.retryCount], none⟩
  | (store, .error e) => ⟨store, [.stopped id result.stage e], some (.error e)⟩

/-- Hands the result of a stage in, and walks on. -/
def settle (engine : EngineConfig) (id : PipelineId) (result : StageResult) (now : Moment)
    (store : Store) : Effect Progress :=
  match handIn id result now store with
  | ⟨store, notices, some returned⟩ => ⟨store, notices, .returned returned⟩
  | ⟨store, notices, none⟩ => (walk engine id now result.stage.after store).after notices

/-- Goes on after a signal. A signal that is not waited for changes nothing. -/
def resume (engine : EngineConfig) (drive : Drive) (signal : Signal) (now : Moment)
    (store : Store) : Option (Effect Progress) :=
  match drive.trial.resume (.ofEngine engine) signal now.elapsed with
  | none => none
  | some (.waiting trial wait, notices) => some ⟨store, notices, .waiting ⟨drive.id, trial⟩ wait⟩
  | some (.finished result, notices) =>
    some ((settle engine drive.id result now store).after notices)

/-- Gives the call up: its claim on the pipeline ends. -/
def drop (drive : Drive) (now : Moment) (store : Store) : Effect Unit :=
  match store.update drive.id (·.release now.instant) with
  | (store, .ok status) => ⟨store, [.abandoned drive.id status], ()⟩
  | (store, .error _) => ⟨store, [], ()⟩

section Store

variable (engine : EngineConfig) (id : PipelineId) (now : Moment) (store : Store)

theorem store_finish :
    (finish id now store).store = (store.update id (·.finish id now.instant)).1 := by
  unfold finish
  split <;> simp_all

theorem store_visit (stage : Stage) :
    (visit engine id stage now store).store =
      (store.update id (·.boundary id stage now.instant)).1 := by
  unfold visit
  split <;> simp_all

theorem store_handIn (result : StageResult) :
    (handIn id result now store).store =
      (store.update id (·.addResult id result now.instant)).1 := by
  unfold handIn
  split <;> simp_all

theorem store_drop (drive : Drive) :
    (drive.drop now store).store = (store.update drive.id (·.release now.instant)).1 := by
  unfold drop
  split <;> simp_all

end Store

end Drive

namespace Engine

/-- Creates a pipeline under a new identifier. -/
def create (id : PipelineId) (config : PipelineConfig) (now : Moment) (store : Store) :
    Effect (Except PipelineError Pipeline) :=
  match config.refusal? with
  | some refusal => ⟨store, [], .error (.invalidConfig refusal.message)⟩
  | none =>
    let pipeline := Pipeline.pending id now.instant
    ⟨store.put (.ofPipeline pipeline config), [.created id config.task], .ok pipeline⟩

/-- Asks for a pipeline to be driven. The caller is its driver now, unless there is something to
return at once: a refusal, or the pipeline if a driver is still at work. -/
def claim (entry : PipelineRecord.Entry) (id : PipelineId) (now : Moment) (store : Store) :
    Effect (Option DriveResult) :=
  match store.update id (·.start entry id now.instant) with
  | (store, .error e) => ⟨store, [], some (.error e)⟩
  | (store, .ok false) => ⟨store, [], some (store.snapshot id)⟩
  | (store, .ok true) => ⟨store, [.running id], none⟩

/-- Drives a pipeline, as one that is run or as one that is resumed. -/
def start (engine : EngineConfig) (entry : PipelineRecord.Entry) (id : PipelineId) (now : Moment)
    (store : Store) : Effect Progress :=
  match claim entry id now store with
  | ⟨store, notices, some result⟩ => ⟨store, notices, .returned result⟩
  | ⟨store, notices, none⟩ => (Drive.walk engine id now Stage.all store).after notices

/-- Runs the remaining stages of a pipeline that is pending or paused. -/
def execute (engine : EngineConfig) (id : PipelineId) (now : Moment) (store : Store) :
    Effect Progress :=
  start engine .execute id now store

/-- Continues a paused pipeline. -/
def resume (engine : EngineConfig) (id : PipelineId) (now : Moment) (store : Store) :
    Effect Progress :=
  (start engine .resume id now store).after [.resuming id]

/-- Asks for a pause in front of the next stage. -/
def pause (id : PipelineId) (now : Moment) (store : Store) : Effect (Except PipelineError Unit) :=
  match store.update id (·.pause id now.instant) with
  | (store, .ok _) => ⟨store, [.pauseRequested id], .ok ()⟩
  | (store, .error e) => ⟨store, [], .error e⟩

/-- Marks a pipeline failed, whatever it is. -/
def cancel (id : PipelineId) (now : Moment) (store : Store) : Effect (Except PipelineError Unit) :=
  match store.update id (·.cancel now.instant) with
  | (store, .ok previous) => ⟨store, [.cancelled id previous], .ok ()⟩
  | (store, .error e) => ⟨store, [], .error e⟩

/-- Takes over a pipeline from outside. -/
def restore (pipeline : Pipeline) (config : PipelineConfig) (now : Moment) (store : Store) :
    Effect Pipeline :=
  let record := PipelineRecord.adopt pipeline config now.instant
  ⟨store.put record,
    [.restored pipeline.id record.pipeline.status record.pipeline.progress], record.pipeline⟩

section Store

variable (id : PipelineId) (now : Moment) (store : Store)

theorem store_claim (entry : PipelineRecord.Entry) :
    (claim entry id now store).store = (store.update id (·.start entry id now.instant)).1 := by
  unfold claim
  split <;> simp_all

theorem store_pause :
    (pause id now store).store = (store.update id (·.pause id now.instant)).1 := by
  unfold pause
  split <;> simp_all

theorem store_cancel :
    (cancel id now store).store = (store.update id (·.cancel now.instant)).1 := by
  unfold cancel
  split <;> simp_all

end Store

end Engine

end StagedPipeline
