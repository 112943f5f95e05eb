import StagedPipeline.Config.Engine
import StagedPipeline.Text.Inspect

/-!
# Inspecting an engine

How an engine and its parts are shown to a developer.
-/

namespace StagedPipeline

open Text (Inspection)

/-- The settings of completions. -/
def CompletionSettings.inspection (c : CompletionSettings) : Inspection :=
  .record "CompletionSettings"
    [("max_tokens", .natural c.maxTokens.toNat), ("temperature", .number c.temperature)] false

/-- The settings of new pipelines. -/
def PipelineDefaults.inspection (d : PipelineDefaults) : Inspection :=
  .record "PipelineDefaults"
    [("auto_retry", .bool d.autoRetry), ("max_retries", .natural d.maxRetries.toNat),
      ("stage_timeout_secs", .natural d.stageTimeout.toNat)] false

/-- The waiting times. -/
def Backoff.inspection (b : Backoff) : Inspection :=
  .record "RetrySettings"
    [("base_delay_ms", .natural b.base.toNat), ("max_delay_ms", .natural b.cap.toNat)] false

/-- The settings of an engine. -/
def EngineConfig.inspection (c : EngineConfig) : Inspection :=
  .record "EngineConfig"
    [("poll_interval_ms", .natural c.pollInterval.toNat), ("defaults", c.defaults.inspection),
      ("retry", c.retry.inspection), ("completion", c.completion.inspection)] false

namespace Engine

/-- An engine. -/
def inspection (c : EngineConfig) : Inspection :=
  .record "PipelineEngine" [("config", c.inspection)] true

/-- The part that makes single attempts. -/
def runnerInspection (c : EngineConfig) : Inspection :=
  .record "StageRunner" [("completion", c.completion.inspection)] true

/-- The part that repeats attempts. -/
def controllerInspection (c : EngineConfig) : Inspection :=
  .record "RetryController"
    [("runner", runnerInspection c),
      ("base_delay", .plain (Duration.ofMilliseconds c.retry.base.toNat).shown),
      ("max_delay", .plain (Duration.ofMilliseconds c.retry.cap.toNat).shown)] false

end Engine

end StagedPipeline
