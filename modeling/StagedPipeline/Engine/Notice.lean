import StagedPipeline.Artifact.Basic
import StagedPipeline.Error

/-!
# Notices

What the engine tells an operator while it works. A `Notice` says what happened; `Notice.entry`
gives it the level, the source, the wording and the named values it is logged with.
-/

namespace StagedPipeline

/-- How much a log entry matters. -/
inductive LogLevel where
  | error
  | warning
  | info
  | debug
deriving DecidableEq, Repr

/-- The name of a level. -/
def LogLevel.name : LogLevel → String
  | error => "ERROR"
  | warning => "WARN"
  | info => "INFO"
  | debug => "DEBUG"

/-- A line of a log. -/
structure LogEntry where
  level : LogLevel
  /-- The part of the program it comes from. -/
  source : String
  message : String
  /-- Named values. -/
  fields : List (String × String)
deriving DecidableEq, Repr

/-- Something worth telling. -/
inductive Notice where
  | created (id : PipelineId) (task : String)
  | resuming (id : PipelineId)
  | running (id : PipelineId)
  | starting (id : PipelineId) (stage : Stage)
  | skipping (id : PipelineId) (stage : Stage)
  | paused (id : PipelineId) (next : Stage)
  | stageCompleted (id : PipelineId) (stage : Stage) (retries : UInt32)
  /-- A driver comes to its end without the pipeline being completed or paused. -/
  | stopped (id : PipelineId) (stage : Stage) (error : PipelineError)
  | completed (id : PipelineId)
  | pauseRequested (id : PipelineId)
  | cancelled (id : PipelineId) (previous : Status)
  | restored (id : PipelineId) (status : Status) (progress : Nat)
  /-- A driver is given up while a stage is worked on. -/
  | abandoned (id : PipelineId) (status : Status)
  /-- A request goes to the executor; the lengths of its prompts are in bytes. -/
  | dispatching (stage : Stage) (systemLength userLength : Nat)
  | undecoded (stage : Stage) (error : Artifact.ParseError)
  /-- An attempt, counted from one, failed and will be repeated. -/
  | retrying (stage : Stage) (attempt : UInt32) (delay : Duration) (error : AttemptError)
  | exhausted (stage : Stage) (attempts : UInt32) (error : AttemptError)
  /-- No key is known for the completion service. -/
  | keyMissing (name : String)
  /-- The completion service answered with an error status. -/
  | rejected (status : Nat)
deriving DecidableEq

namespace Notice

/-- An entry of the engine about a pipeline. -/
def engineEntry (level : LogLevel) (id : PipelineId) (message : String)
    (fields : List (String × String)) : LogEntry :=
  ⟨level, "autopipe_core::engine", message, ("pipeline_id", id.text) :: fields⟩

/-- How a notice is logged. -/
def entry : Notice → LogEntry
  | created id task => engineEntry .info id ("Created pipeline: " ++ task) []
  | resuming id => engineEntry .info id "Resuming pipeline" []
  | running id => engineEntry .info id "Pipeline running" []
  | starting id stage => engineEntry .info id "Starting stage" [("stage", stage.name)]
  | skipping id stage => engineEntry .debug id "Skipping completed stage" [("stage", stage.name)]
  | paused id next => engineEntry .info id "Pipeline paused" [("next_stage", next.name)]
  | stageCompleted id stage retries =>
    engineEntry .info id "Stage completed"
      [("stage", stage.name), ("retries", decimalText retries.toNat)]
  | stopped id stage error =>
    engineEntry .error id ("Pipeline stopped: " ++ error.message) [("stage", stage.name)]
  | completed id => engineEntry .info id "Pipeline completed" []
  | pauseRequested id => engineEntry .info id "Pause requested" []
  | cancelled id previous => engineEntry .info id "Pipeline cancelled" [("previous", previous.name)]
  | restored id status progress =>
    engineEntry .info id "Restored pipeline"
      [("status", status.name), ("progress", decimalText progress)]
  | abandoned id status =>
    engineEntry .warning id "Driver dropped mid-stage" [("status", status.name)]
  | dispatching stage systemLength userLength =>
    ⟨.debug, "autopipe_core::runner", "Dispatching stage request",
      [("stage", stage.name), ("system_len", decimalText systemLength),
        ("user_len", decimalText userLength)]⟩
  | undecoded stage error =>
    ⟨.debug, "autopipe_core::runner", "No artifacts decoded: " ++ error.message,
      [("stage", stage.name)]⟩
  | retrying stage attempt delay error =>
    ⟨.warning, "autopipe_core::retry", "Stage attempt failed, retrying: " ++ error.message,
      [("stage", stage.name), ("attempt", decimalText attempt.toNat),
        ("delay_ms", decimalText delay.word.toNat)]⟩
  | exhausted stage attempts error =>
    ⟨.warning, "autopipe_core::retry", "Stage retries exhausted: " ++ error.message,
      [("stage", stage.name), ("attempts", decimalText attempts.toNat)]⟩
  | keyMissing name =>
    ⟨.warning, "autopipe_http", "No API key found, sending unauthenticated requests",
      [("env", name)]⟩
  | rejected status =>
    ⟨.debug, "autopipe_http", "Completion request rejected", [("status", decimalText status)]⟩

end Notice

end StagedPipeline
