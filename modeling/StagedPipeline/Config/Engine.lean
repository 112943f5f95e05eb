import StagedPipeline.Time.Duration

/-!
# Settings of the engine

What holds for every pipeline of an engine: how often its state is polled, what new pipelines start
from, how long to wait before an attempt is repeated, and what is asked of a completion. Whatever is
left out keeps its default. `EngineConfig.check` names the first setting that is out of range.
-/

namespace StagedPipeline

open Json

/-- What the config of a new pipeline starts from. -/
structure PipelineDefaults where
  /-- Whether failed attempts are repeated. -/
  autoRetry : Bool
  /-- Attempts after the first one. -/
  maxRetries : UInt32
  /-- Time limit of an attempt, in seconds. -/
  stageTimeout : UInt64
deriving DecidableEq, Repr

/-- Waiting times between attempts, in milliseconds. -/
structure Backoff where
  /-- After the first attempt. -/
  base : UInt64
  /-- At most. -/
  cap : UInt64
deriving DecidableEq, Repr

/-- What is asked of every completion. -/
structure CompletionSettings where
  maxTokens : UInt32
  temperature : Binary32
deriving DecidableEq

/-- The settings of an engine. -/
structure EngineConfig where
  /-- Time between two looks at a pipeline's state, in milliseconds. -/
  pollInterval : UInt64
  defaults : PipelineDefaults
  retry : Backoff
  completion : CompletionSettings
deriving DecidableEq

/-- Three retries, and five minutes for an attempt. -/
def PipelineDefaults.initial : PipelineDefaults := ⟨true, 3, 300⟩

/-- From one second up to ten. -/
def Backoff.initial : Backoff := ⟨1000, 10000⟩

/-- A temperature of three tenths. -/
def CompletionSettings.initial : CompletionSettings :=
  ⟨4096, Binary.ofDecimal .single false 3 (-1)⟩

/-- The default of every setting. -/
def EngineConfig.initial : EngineConfig := ⟨2000, .initial, .initial, .initial⟩

/-- The settings of new pipelines, by name. -/
def PipelineDefaults.record : Record PipelineDefaults where
  initial := .initial
  mayStop := true
  fields := [
    .defaulted "auto_retry" .bool (·.autoRetry) (fun v a => { a with autoRetry := v }),
    .defaulted "max_retries" .word32 (·.maxRetries) (fun v a => { a with maxRetries := v }),
    .defaulted "stage_timeout_secs" .word64 (·.stageTimeout)
      (fun v a => { a with stageTimeout := v })]

/-- The waiting times, by name. -/
def Backoff.record : Record Backoff where
  initial := .initial
  mayStop := true
  fields := [
    .defaulted "base_delay_ms" .word64 (·.base) (fun v a => { a with base := v }),
    .defaulted "max_delay_ms" .word64 (·.cap) (fun v a => { a with cap := v })]

/-- The settings of completions, by name. -/
def CompletionSettings.record : Record CompletionSettings where
  initial := .initial
  mayStop := true
  fields := [
    .defaulted "max_tokens" .word32 (·.maxTokens) (fun v a => { a with maxTokens := v }),
    .defaulted "temperature" .single (·.temperature) (fun v a => { a with temperature := v })]

/-- The settings of an engine, by name. -/
def EngineConfig.record : Record EngineConfig where
  initial := .initial
  mayStop := true
  fields := [
    .defaulted "poll_interval_ms" .word64 (·.pollInterval)
      (fun v a => { a with pollInterval := v }),
    .defaulted "defaults" PipelineDefaults.record.codec (·.defaults)
      (fun v a => { a with defaults := v }),
    .defaulted "retry" Backoff.record.codec (·.retry) (fun v a => { a with retry := v }),
    .defaulted "completion" CompletionSettings.record.codec (·.completion)
      (fun v a => { a with completion := v })]

/-- A setting that is out of range. -/
inductive ConfigFlaw where
  | temperature (value : Binary32)
  | noTokens
  /-- The first waiting time exceeds the longest. -/
  | backoff (base cap : UInt64)
  | noPollInterval
  | noStageTimeout
deriving DecidableEq

/-- What is said about a setting that is out of range. -/
def ConfigFlaw.message : ConfigFlaw → String
  | temperature value =>
    "completion.temperature must be within [0, 2], got " ++ DecimalLayout.plain.text value
  | noTokens => "completion.max_tokens must be positive"
  | backoff base cap =>
    "retry.base_delay_ms (" ++ decimalText base.toNat ++ ") exceeds retry.max_delay_ms ("
      ++ decimalText cap.toNat ++ ")"
  | noPollInterval => "poll_interval_ms must be positive"
  | noStageTimeout => "defaults.stage_timeout_secs must be positive"

namespace EngineConfig

/-- Finds the first setting that is out of range. -/
def check (c : EngineConfig) : Except ConfigFlaw Unit :=
  if !c.completion.temperature.between0And 2 then .error (.temperature c.completion.temperature)
  else if c.completion.maxTokens = 0 then .error .noTokens
  else if c.retry.cap < c.retry.base then .error (.backoff c.retry.base c.retry.cap)
  else if c.pollInterval = 0 then .error .noPollInterval
  else if c.defaults.stageTimeout = 0 then .error .noStageTimeout
  else .ok ()

/-- The same settings with other waiting times. -/
def withRetry (c : EngineConfig) (base cap : Duration) : EngineConfig :=
  { c with retry := ⟨base.word, cap.word⟩ }

/-- The same settings with other demands on completions. -/
def withCompletion (c : EngineConfig) (maxTokens : UInt32) (temperature : Binary32) :
    EngineConfig :=
  { c with completion := ⟨maxTokens, temperature⟩ }

/-- Time between two looks at a pipeline's state. -/
def pollSpan (c : EngineConfig) : Duration :=
  .ofMilliseconds c.pollInterval.toNat

end EngineConfig

end StagedPipeline
