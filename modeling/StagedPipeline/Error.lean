import StagedPipeline.Pipeline.Id
import StagedPipeline.Pipeline.Status
import StagedPipeline.Stage
import StagedPipeline.Time.Duration

/-!
# Errors

What can go wrong on each level: an executor gives no text, an attempt of a stage ends without a
result, and a call on a pipeline is refused or does not reach its end. Each has its wording.
-/

namespace StagedPipeline

/-- Why an executor gives no text. -/
inductive ExecutorError where
  /-- The provider was not reached, or the connection broke. -/
  | transport (text : String)
  /-- The provider answered with an error status. -/
  | provider (status : Nat) (text : String)
  /-- The provider's answer was unusable. -/
  | invalidResponse (text : String)
  | other (text : String)
deriving DecidableEq, Repr

/-- The wording of an executor's error. -/
def ExecutorError.message : ExecutorError → String
  | transport text => "transport error: " ++ text
  | provider status text => "provider returned " ++ decimalText status ++ ": " ++ text
  | invalidResponse text => "invalid response: " ++ text
  | other text => text

/-- Why an attempt of a stage failed. -/
inductive AttemptError where
  /-- There was no answer within the time limit. -/
  | timeout (stage : Stage) (limit : Duration)
  | executor (stage : Stage) (error : ExecutorError)
deriving DecidableEq, Repr

namespace AttemptError

/-- The stage of the attempt. -/
def stage : AttemptError → Stage
  | timeout stage _ => stage
  | executor stage _ => stage

/-- Whether the time limit was reached. -/
def isTimeout : AttemptError → Bool
  | timeout _ _ => true
  | executor _ _ => false

/-- The wording of a failed attempt. -/
def message : AttemptError → String
  | timeout stage limit =>
    "stage " ++ stage.name ++ " timed out after " ++ decimalText limit.milliseconds ++ "ms"
  | executor stage error => "stage " ++ stage.name ++ " executor error: " ++ error.message

end AttemptError

/-- Why a call on a pipeline fails. -/
inductive PipelineError where
  | notFound (id : PipelineId)
  | alreadyRunning (id : PipelineId)
  | notRunning (id : PipelineId)
  | notPaused (id : PipelineId)
  /-- The pipeline has come to its end. -/
  | terminal (id : PipelineId) (status : Status)
  /-- A stage failed, and its retries are used up. -/
  | stageFailed (stage : Stage) (retries : UInt32) (text : String)
  /-- The pipeline was cancelled while a stage was worked on. -/
  | cancelled (id : PipelineId)
  | invalidConfig (text : String)
deriving DecidableEq, Repr

namespace PipelineError

/-- The wording of a failed call. -/
def message : PipelineError → String
  | notFound id => "pipeline " ++ id.text ++ " not found"
  | alreadyRunning id => "pipeline " ++ id.text ++ " is already running"
  | notRunning id => "pipeline " ++ id.text ++ " is not running"
  | notPaused id => "pipeline " ++ id.text ++ " is not paused"
  | terminal id status =>
    "pipeline " ++ id.text ++ " is " ++ status.name ++ " and can no longer change"
  | stageFailed stage retries text =>
    "stage " ++ stage.name ++ " failed after " ++ decimalText retries.toNat ++ " retries: " ++ text
  | cancelled id => "pipeline " ++ id.text ++ " was cancelled"
  | invalidConfig text => "invalid pipeline configuration: " ++ text

/-- Whether the call was refused, so that nothing has happened. -/
def isCallerError : PipelineError → Bool
  | stageFailed _ _ _ => false
  | cancelled _ => false
  | _ => true

/-- Whether the call came to an end because a stage failed. -/
def isStageFailure : PipelineError → Bool
  | stageFailed _ _ _ => true
  | _ => false

end PipelineError

end StagedPipeline
