import StagedPipeline.Engine.Record
import StagedPipeline.Report
import StagedPipeline.Simulation.Script

/-!
# Steps of a rehearsal

A rehearsal is a sequence of steps on an engine. Pipelines go by names that are given to them when
they are created or restored. Times are in milliseconds.
-/

namespace StagedPipeline.Simulation

/-- A step. -/
inductive Step where
  | create (name : String) (config : PipelineConfig)
  | restore (name : String) (pipeline : Pipeline) (config : PipelineConfig)
  /-- Drives a pipeline to the end of the call, or gives the call up after a time. -/
  | drive (entry : PipelineRecord.Entry) (name : String) (dropAfter : Option Nat)
  | pause (name : String)
  | cancel (name : String)
  | sleep (time : Nat)
  | state (name : String)
  | config (name : String)
  | report (name : String)
  | record (name : String)
  | remove (name : String)
  | list
  /-- Drives a pipeline in the background. -/
  | spawn (entry : PipelineRecord.Entry) (name : String)
  /-- Waits until a call comes to the gate of a stage. -/
  | entered (stage : Stage)
  /-- Lets a call through the gate of a stage. -/
  | release (stage : Stage)
  /-- Gives up the call in the background. -/
  | abort (name : String)
  /-- Waits for the call in the background. -/
  | join (name : String)

/-- What a step yields. -/
inductive Answer where
  | done
  /-- The pipeline of a name, and for one that was restored whether it has changed since. -/
  | view (pipeline : Pipeline) (touched : Option Bool)
  | brief (pipeline : Pipeline)
  | failed (error : PipelineError)
  /-- The call was given up. -/
  | dropped
  /-- The call in the background was given up. -/
  | aborted
  /-- What was waited for did not happen in time. -/
  | stuck
  | config (config : Option PipelineConfig)
  | report (report : Option Report)
  /-- There is no report, because the results of the pipeline took too long together. -/
  | tooLong
  | record (record : Option PipelineRecord)
  | removed (record : Option PipelineRecord)
  | list (entries : List (PipelineId × Status))
  /-- There is no pipeline to tell about. -/
  | nothing
  /-- The name is neither known nor an identifier. -/
  | unknownName

/-- What a rehearsal logs. -/
inductive LogItem where
  /-- A call of the executor begins. -/
  | call (stage : Stage) (time : Nat) (request : CompletionRequest)
  /-- A step inside a call has come to its end. -/
  | act (step : Step) (answer : Answer)

/-- What happens in one call of the executor. -/
structure Turn where
  /-- Steps that are made inside the call, before its outcome. -/
  acts : List Step
  /-- An outcome of its own. Without one the call takes the next outcome of the executor's script,
  once its steps are made. -/
  outcome : Option Outcome

/-- A call without steps that takes its outcome from the script. -/
def Turn.plain : Turn := ⟨[], none⟩

/-- What happens in the calls of each stage, one after the other, and in those behind them. -/
structure Turns where
  next : PerStage (List Turn)
  always : Turn

namespace Turns

/-- Plain calls only. -/
def plain : Turns := ⟨.const [], .plain⟩

/-- Puts turns behind those a stage has. -/
def withTurns (t : Turns) (stage : Stage) (turns : List Turn) : Turns :=
  { t with next := t.next.modify stage (· ++ turns) }

/-- Takes the turn of the next call of a stage. -/
def take (t : Turns) (stage : Stage) : Turns × Turn :=
  match t.next.get stage with
  | turn :: rest => ({ t with next := t.next.set stage rest }, turn)
  | [] => (t, t.always)

end Turns

end StagedPipeline.Simulation
