import StagedPipeline.Artifact.Set
import StagedPipeline.Pipeline.Config

/-!
# Prompts

What an executor is asked for a stage. The system prompt gives it a role, a duty and the form of its
answer; the user prompt gives it the task, the context if there is any, and the artifacts of the
earlier stages.
-/

namespace StagedPipeline

/-- The form of a stage's answer. -/
def Stage.answerForm : Stage → String
  | .requirements =>
    "\x7b\n"
      ++ "  \"functional\": [\"string\"],\n"
      ++ "  \"nonFunctional\": [\"string\"],\n"
      ++ "  \"acceptanceCriteria\": [\"string\"]\n"
      ++ "\x7d"
  | .design =>
    "\x7b\n"
      ++ "  \"architecture\": \"string\",\n"
      ++ "  \"components\": [\"string\"],\n"
      ++ "  \"dataModel\": \"string\",\n"
      ++ "  \"apis\": [\"string\"]\n"
      ++ "\x7d"
  | .coding =>
    "\x7b\n"
      ++ "  \"files\": [\x7b \"path\": \"string\", \"content\": \"string\", "
      ++ "\"language\": \"string\" \x7d],\n"
      ++ "  \"changes\": [\"string\"]\n"
      ++ "\x7d"
  | .testing =>
    "\x7b\n"
      ++ "  \"testFiles\": [\x7b \"path\": \"string\", \"content\": \"string\", "
      ++ "\"language\": \"string\" \x7d],\n"
      ++ "  \"passed\": 0,\n"
      ++ "  \"failed\": 0,\n"
      ++ "  \"coverage\": 0.0\n"
      ++ "\x7d"
  | .deployment =>
    "\x7b\n"
      ++ "  \"config\": \"string\",\n"
      ++ "  \"documentation\": \"string\",\n"
      ++ "  \"checklist\": [\"string\"]\n"
      ++ "\x7d"

/-- What the executor has to do for a stage. -/
def Stage.duty : Stage → String
  | .requirements =>
    "Analyze the task and extract functional requirements, non-functional "
      ++ "requirements and acceptance criteria."
  | .design =>
    "Design the architecture, the components, the data model and the APIs that "
      ++ "satisfy the requirements."
  | .coding =>
    "Implement the design. Produce complete file contents and a summary of every "
      ++ "change."
  | .testing =>
    "Write tests for the implementation and report how many pass, how many fail and "
      ++ "the coverage percentage."
  | .deployment =>
    "Produce deployment configuration, user-facing documentation and a release "
      ++ "checklist."

/-- The prompts of one attempt. -/
structure Prompts where
  system : String
  user : String
deriving DecidableEq, Repr

namespace Prompts

/-- The system prompt of a stage. -/
def systemText (stage : Stage) : String :=
  "You are a " ++ stage.role ++ ". " ++ stage.duty
    ++ "\n\nRespond with a single JSON object matching this schema:\n" ++ stage.answerForm

/-- The part of the user prompt that gives the context; a blank context is left out. -/
def contextText : Option String → String
  | some context =>
    if Text.allBlank context then "" else "\nContext:\n" ++ context ++ "\n"
  | none => ""

/-- The user prompt of a stage. -/
def userText (stage : Stage) (config : PipelineConfig) (artifacts : ArtifactSet) : String :=
  "Task: " ++ config.task ++ "\n" ++ contextText config.context
    ++ "\nArtifacts from previous stages:\n" ++ artifacts.context.pretty ++ "\n"
    ++ "\nProduce the " ++ stage.name ++ " stage output now."

/-- The prompts of a stage. -/
def ofStage (stage : Stage) (config : PipelineConfig) (artifacts : ArtifactSet) : Prompts :=
  ⟨systemText stage, userText stage config artifacts⟩

end Prompts

end StagedPipeline
