import StagedPipeline.Prompt

/-!
# Completion requests

What an executor is handed for one attempt of a stage. It answers with text, or fails.
-/

namespace StagedPipeline

/-- A request for text. -/
structure CompletionRequest where
  systemPrompt : String
  userPrompt : String
  maxTokens : UInt32
  temperature : Binary32
deriving DecidableEq

/-- The request of a stage. -/
def CompletionRequest.ofStage (stage : Stage) (config : PipelineConfig) (artifacts : ArtifactSet)
    (settings : CompletionSettings) : CompletionRequest :=
  let prompts := Prompts.ofStage stage config artifacts
  ⟨prompts.system, prompts.user, settings.maxTokens, settings.temperature⟩

end StagedPipeline
