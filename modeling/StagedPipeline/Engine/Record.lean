import StagedPipeline.Error
import StagedPipeline.Pipeline.Basic
import StagedPipeline.Pipeline.Config

/-!
# Records

A record holds a pipeline, the settings it was created with, and whether a driver is walking it
through its stages. Every transition looks at the record, changes it, and tells the outcome in one
step; it may change the record also when it ends in an error.
-/

namespace StagedPipeline

/-- A pipeline as the engine keeps it. -/
structure PipelineRecord where
  pipeline : Pipeline
  config : PipelineConfig
  /-- Whether a driver is at work. -/
  driven : Bool
deriving DecidableEq

namespace PipelineRecord

/-- A record without a driver. -/
def ofPipeline (pipeline : Pipeline) (config : PipelineConfig) : PipelineRecord :=
  ⟨pipeline, config, false⟩

/-- The record as it is written: whether it is driven is not told. -/
def toJson (r : PipelineRecord) : Json :=
  .object [
    ("pipeline", Pipeline.record.encode r.pipeline),
    ("config", PipelineConfig.record.encode r.config)]

/-- How a caller asks for a pipeline to be driven. -/
inductive Entry where
  | execute
  | resume
deriving DecidableEq, Repr

/-- Why a pipeline cannot be driven as asked, if it cannot. -/
def entryError? (entry : Entry) (id : PipelineId) (status : Status) : Option PipelineError :=
  match entry, status with
  | .resume, .paused => none
  | .execute, .pending => none
  | .execute, .paused => none
  | .resume, _ => some (.notPaused id)
  | .execute, .running => some (.alreadyRunning id)
  | .execute, status => some (.terminal id status)

/-- Only a pipeline that waits, for its start or after a pause, can be driven. -/
theorem pending_or_paused {entry : Entry} {id : PipelineId} {status : Status}
    (h : entryError? entry id status = none) : status = .pending ∨ status = .paused := by
  cases entry <;> cases status <;> simp_all [entryError?]

/-- Sets a pipeline running, and tells whether the caller is now its driver. A driver that is still
at work goes on instead. -/
def start (entry : Entry) (id : PipelineId) (now : Instant) (r : PipelineRecord) :
    PipelineRecord × Except PipelineError Bool :=
  match entryError? entry id r.pipeline.status with
  | some e => (r, .error e)
  | none =>
    ({ r with pipeline := r.pipeline.setStatus .running now, driven := true }, .ok !r.driven)

/-- What a driver does at a stage. -/
inductive Boundary where
  /-- It ends, because a pause was asked for. -/
  | halt
  /-- It passes over the stage, which is completed. -/
  | skip
  | run (config : PipelineConfig) (artifacts : ArtifactSet)

/-- Comes to a stage. -/
def boundary (id : PipelineId) (stage : Stage) (now : Instant) (r : PipelineRecord) :
    PipelineRecord × Except PipelineError Boundary :=
  match r.pipeline.status with
  | .paused => ({ r with driven := false }, .ok .halt)
  | .failed => ({ r with driven := false }, .error (.cancelled id))
  | _ =>
    if r.pipeline.hasCompleted stage then (r, .ok .skip)
    else
      ({ r with pipeline := r.pipeline.setCurrent (some stage) now },
        .ok (.run r.config r.pipeline.artifacts))

/-- Takes the result of a stage. After a cancel it is thrown away; a failure ends the pipeline. -/
def addResult (id : PipelineId) (result : StageResult) (now : Instant) (r : PipelineRecord) :
    PipelineRecord × Except PipelineError Unit :=
  if r.pipeline.status = .failed then ({ r with driven := false }, .error (.cancelled id))
  else
    let pipeline := r.pipeline.addResult result now
    if result.success then ({ r with pipeline }, .ok ())
    else
      ({ r with pipeline := pipeline.setStatus .failed now, driven := false },
        .error (.stageFailed result.stage result.retryCount (result.error.getD "")))

/-- Completes a pipeline behind its last stage. -/
def finish (id : PipelineId) (now : Instant) (r : PipelineRecord) :
    PipelineRecord × Except PipelineError Pipeline :=
  if r.pipeline.status = .failed then ({ r with driven := false }, .error (.cancelled id))
  else
    let pipeline := (r.pipeline.setCurrent none now).setStatus .completed now
    ({ r with pipeline, driven := false }, .ok pipeline)

/-- Asks for a pause. -/
def pause (id : PipelineId) (now : Instant) (r : PipelineRecord) :
    PipelineRecord × Except PipelineError Unit :=
  if r.pipeline.status = .running then
    ({ r with pipeline := r.pipeline.setStatus .paused now }, .ok ())
  else (r, .error (.notRunning id))

/-- Marks a pipeline failed, and tells what it was. -/
def cancel (now : Instant) (r : PipelineRecord) :
    PipelineRecord × Except PipelineError Status :=
  ({ r with pipeline := r.pipeline.setStatus .failed now }, .ok r.pipeline.status)

/-- Gives the driver up; a pipeline that was running is paused. -/
def release (now : Instant) (r : PipelineRecord) :
    PipelineRecord × Except PipelineError Status :=
  let pipeline :=
    if r.pipeline.status = .running then r.pipeline.setStatus .paused now else r.pipeline
  ({ r with pipeline, driven := false }, .ok pipeline.status)

theorem completed_release (now : Instant) (r : PipelineRecord) :
    (r.release now).1.pipeline.completed = r.pipeline.completed := by
  unfold release
  dsimp only
  split <;> rfl

/-- A record of a pipeline from outside. Completed stages that nothing stands behind are open again,
and a pipeline that was running is paused, since its driver is gone. -/
def adopt (pipeline : Pipeline) (config : PipelineConfig) (now : Instant) : PipelineRecord :=
  let reconciled := pipeline.reconcile now
  let parked :=
    if reconciled.status = .running then reconciled.setStatus .paused now else reconciled
  ofPipeline parked config

@[simp] theorem id_adopt (pipeline : Pipeline) (config : PipelineConfig) (now : Instant) :
    (adopt pipeline config now).pipeline.id = pipeline.id := by
  unfold adopt ofPipeline
  dsimp only
  split <;> rfl

@[simp] theorem driven_adopt (pipeline : Pipeline) (config : PipelineConfig) (now : Instant) :
    (adopt pipeline config now).driven = false := rfl

theorem status_adopt_ne_running (pipeline : Pipeline) (config : PipelineConfig) (now : Instant) :
    (adopt pipeline config now).pipeline.status ≠ .running := by
  unfold adopt ofPipeline
  dsimp only
  split
  · simp [Pipeline.setStatus]
  · assumption

section Transitions

variable {r : PipelineRecord} {id : PipelineId} {stage : Stage} {result : StageResult}
  {entry : Entry} (now : Instant)

theorem start_of_error {e : PipelineError} (h : entryError? entry id r.pipeline.status = some e) :
    r.start entry id now = (r, .error e) := by
  simp [start, h]

theorem start_of_none (h : entryError? entry id r.pipeline.status = none) :
    r.start entry id now =
      ({ r with pipeline := r.pipeline.setStatus .running now, driven := true },
        .ok !r.driven) := by
  simp [start, h]

theorem boundary_of_paused (h : r.pipeline.status = .paused) :
    r.boundary id stage now = ({ r with driven := false }, .ok .halt) := by
  simp [boundary, h]

theorem boundary_of_failed (h : r.pipeline.status = .failed) :
    r.boundary id stage now = ({ r with driven := false }, .error (.cancelled id)) := by
  simp [boundary, h]

theorem boundary_of_completed (hpaused : r.pipeline.status ≠ .paused)
    (hfailed : r.pipeline.status ≠ .failed) (h : r.pipeline.hasCompleted stage = true) :
    r.boundary id stage now = (r, .ok .skip) := by
  unfold boundary
  split
  · contradiction
  · contradiction
  · rw [if_pos h]

theorem boundary_of_open (hpaused : r.pipeline.status ≠ .paused)
    (hfailed : r.pipeline.status ≠ .failed) (h : r.pipeline.hasCompleted stage = false) :
    r.boundary id stage now =
      ({ r with pipeline := r.pipeline.setCurrent (some stage) now },
        .ok (.run r.config r.pipeline.artifacts)) := by
  unfold boundary
  split
  · contradiction
  · contradiction
  · rw [if_neg (by simp [h])]

theorem addResult_of_failed (h : r.pipeline.status = .failed) :
    r.addResult id result now = ({ r with driven := false }, .error (.cancelled id)) := by
  simp [addResult, h]

theorem addResult_of_success (hfailed : r.pipeline.status ≠ .failed)
    (h : result.success = true) :
    r.addResult id result now =
      ({ r with pipeline := r.pipeline.addResult result now }, .ok ()) := by
  simp [addResult, hfailed, h]

theorem addResult_of_failure (hfailed : r.pipeline.status ≠ .failed)
    (h : result.success = false) :
    r.addResult id result now =
      ({ r with pipeline := (r.pipeline.addResult result now).setStatus .failed now,
                driven := false },
        .error (.stageFailed result.stage result.retryCount (result.error.getD ""))) := by
  simp [addResult, hfailed, h]

theorem finish_of_failed (h : r.pipeline.status = .failed) :
    r.finish id now = ({ r with driven := false }, .error (.cancelled id)) := by
  simp [finish, h]

theorem finish_of_ne_failed (h : r.pipeline.status ≠ .failed) :
    r.finish id now =
      ({ r with pipeline := (r.pipeline.setCurrent none now).setStatus .completed now,
                driven := false },
        .ok ((r.pipeline.setCurrent none now).setStatus .completed now)) := by
  simp [finish, h]

theorem pause_of_running (h : r.pipeline.status = .running) :
    r.pause id now = ({ r with pipeline := r.pipeline.setStatus .paused now }, .ok ()) := by
  simp [pause, h]

theorem pause_of_ne_running (h : r.pipeline.status ≠ .running) :
    r.pause id now = (r, .error (.notRunning id)) := by
  simp [pause, h]

end Transitions

end PipelineRecord

end StagedPipeline
