import StagedPipeline.Config.Engine
import StagedPipeline.Text.Blank

/-!
# Settings of one pipeline

What a pipeline is created with: its task, and how its stages are attempted.
-/

namespace StagedPipeline

open Json

/-- The settings of a pipeline. -/
structure PipelineConfig where
  /-- What is to be done. -/
  task : String
  /-- What else the executor is told. -/
  context : Option String
  /-- Whether failed attempts are repeated. -/
  autoRetry : Bool
  /-- Attempts after the first one, if failed attempts are repeated. -/
  maxRetries : UInt32
  /-- Time limit of an attempt. -/
  stageTimeout : Duration
deriving DecidableEq, Repr, Inhabited

namespace PipelineConfig

/-- The settings of a task in an engine. -/
def ofEngine (task : String) (engine : EngineConfig) : PipelineConfig :=
  ⟨task, none, engine.defaults.autoRetry, engine.defaults.maxRetries,
    .ofSeconds engine.defaults.stageTimeout.toNat⟩

/-- The settings of a task without an engine. -/
def ofTask (task : String) : PipelineConfig :=
  ofEngine task .initial

/-- Number of attempts that may follow the first one. -/
def retryBudget (c : PipelineConfig) : UInt32 :=
  if c.autoRetry then c.maxRetries else 0

/-- Why settings are refused. -/
inductive Refusal where
  | blankTask
  | noTimeout
deriving DecidableEq, Repr

/-- What is said about refused settings. -/
def Refusal.message : Refusal → String
  | blankTask => "task description must not be empty"
  | noTimeout => "stage timeout must be positive"

/-- Why the settings are refused, if they are. -/
def refusal? (c : PipelineConfig) : Option Refusal :=
  if Text.allBlank c.task then some .blankTask
  else if c.stageTimeout.isZero then some .noTimeout
  else none

/-- The settings, by name. -/
def record : Record PipelineConfig where
  initial := default
  mayStop := false
  fields := [
    .required "task" .string (·.task) (fun v a => { a with task := v }),
    .defaulted "context" (.optional .string) (·.context) (fun v a => { a with context := v }),
    .required "auto_retry" .bool (·.autoRetry) (fun v a => { a with autoRetry := v }),
    .required "max_retries" .word32 (·.maxRetries) (fun v a => { a with maxRetries := v }),
    .required "stage_timeout_ms" Duration.codec (·.stageTimeout)
      (fun v a => { a with stageTimeout := v })]

end PipelineConfig

end StagedPipeline
