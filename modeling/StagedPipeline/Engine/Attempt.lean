import StagedPipeline.Completion.Request
import StagedPipeline.Engine.Notice
import StagedPipeline.Pipeline.Basic
import StagedPipeline.Retry

/-!
# Attempts of a stage

An `Attempt` sends one request and waits for the answer, up to a time limit. A `Trial` makes
attempts until one succeeds or the retry budget is spent, with a rest in front of each repetition,
and ends in a single result. Neither waits by itself: each names what it waits for as a `Wait`, and
goes on when it is given a `Signal`.
-/

namespace StagedPipeline

/-- What the engine waits for. -/
inductive Wait where
  /-- An executor's answer to a request, up to a limit. -/
  | answer (request : CompletionRequest) (limit : Duration)
  /-- The end of a rest. -/
  | rest (delay : Duration)
deriving DecidableEq

/-- What ends a wait. -/
inductive Signal where
  /-- The executor answered or failed. -/
  | answered (answer : Except ExecutorError String)
  /-- The limit passed before an answer. -/
  | timedOut
  /-- The rest is over. -/
  | rested

/-- What an attempt yields. -/
structure StageOutput where
  /-- The executor's text. -/
  content : String
  /-- What the text holds, if it is readable. -/
  artifact : Option Artifact
deriving DecidableEq

/-- One attempt of a stage. -/
structure Attempt where
  stage : Stage
  config : PipelineConfig
  artifacts : ArtifactSet
deriving DecidableEq

namespace Attempt

/-- Sends the request. -/
def start (settings : CompletionSettings) (a : Attempt) : Wait × List Notice :=
  let request := CompletionRequest.ofStage a.stage a.config a.artifacts settings
  (.answer request a.config.stageTimeout,
    [.dispatching a.stage request.systemPrompt.utf8ByteSize request.userPrompt.utf8ByteSize])

/-- Reads the artifact in an answer. A text without one is an answer all the same. -/
def read (a : Attempt) (content : String) : StageOutput × List Notice :=
  match Artifact.parse a.stage content with
  | .ok artifact => (⟨content, some artifact⟩, [])
  | .error e => (⟨content, none⟩, [.undecoded a.stage e])

/-- Ends the attempt. There is no end in a rest. -/
def conclude (a : Attempt) : Signal → Option (Except AttemptError StageOutput × List Notice)
  | .answered (.ok content) =>
    let (output, notices) := a.read content
    some (.ok output, notices)
  | .answered (.error e) => some (.error (.executor a.stage e), [])
  | .timedOut => some (.error (.timeout a.stage a.config.stageTimeout), [])
  | .rested => none

end Attempt

/-- How the attempts of a stage are made: what is asked of a completion, and the shape of the rests
between attempts. -/
structure TrialSettings where
  completion : CompletionSettings
  /-- The rest after the first attempt. -/
  baseDelay : Duration
  /-- The longest rest. -/
  maxDelay : Duration
deriving DecidableEq

namespace TrialSettings

/-- The settings of an engine. -/
def ofEngine (engine : EngineConfig) : TrialSettings :=
  ⟨engine.completion, .ofMilliseconds engine.retry.base.toNat,
    .ofMilliseconds engine.retry.cap.toNat⟩

@[simp] theorem completion_ofEngine (engine : EngineConfig) :
    (ofEngine engine).completion = engine.completion := rfl

/-- The retry policy of a pipeline. -/
def policy (s : TrialSettings) (config : PipelineConfig) : RetryPolicy :=
  ⟨config.retryBudget, s.baseDelay, s.maxDelay⟩

end TrialSettings

/-- The attempts of a stage, between two signals. -/
structure Trial where
  attempt : Attempt
  /-- When the first attempt began, on a clock that only runs forward. -/
  startedAt : Duration
  /-- The number of the present attempt, from zero. -/
  count : UInt32
  /-- Whether the present attempt failed and the next one is still to come. -/
  resting : Bool
deriving DecidableEq

namespace Trial

/-- How far a trial has come. -/
inductive Progress where
  | waiting (trial : Trial) (wait : Wait)
  | finished (result : StageResult)

/-- Time since the first attempt began. -/
def elapsed (t : Trial) (now : Duration) : Duration :=
  ⟨now.nanoseconds - t.startedAt.nanoseconds⟩

/-- The result of a successful attempt. -/
def success (t : Trial) (output : StageOutput) (now : Duration) : StageResult :=
  ⟨t.attempt.stage, true, output.content, output.artifact, none, t.elapsed now, t.count⟩

/-- The result of a failed last attempt. -/
def failure (t : Trial) (error : AttemptError) (now : Duration) : StageResult :=
  ⟨t.attempt.stage, false, "", none, some error.message, t.elapsed now, t.count⟩

/-- Makes the first attempt. -/
def start (settings : TrialSettings) (attempt : Attempt) (now : Duration) :
    Trial × Wait × List Notice :=
  (⟨attempt, now, 0, false⟩, attempt.start settings.completion)

/-- Goes on after a signal. A signal that is not waited for changes nothing. The number of attempts
that a notice of exhaustion tells has 32 bits and wraps around, as in a build for release: after
`2 ^ 32` attempts it tells zero, where a build that checks its sums would stop. -/
def resume (settings : TrialSettings) (t : Trial) (signal : Signal) (now : Duration) :
    Option (Progress × List Notice) :=
  let policy := settings.policy t.attempt.config
  if t.resting then
    match signal with
    | .rested =>
      let (wait, notices) := t.attempt.start settings.completion
      some (.waiting { t with count := t.count + 1, resting := false } wait, notices)
    | _ => none
  else
    match t.attempt.conclude signal with
    | none => none
    | some (.ok output, notices) => some (.finished (t.success output now), notices)
    | some (.error e, notices) =>
      if policy.allows t.count then
        let delay := policy.delay t.count
        some (.waiting { t with resting := true } (.rest delay),
          notices ++ [.retrying t.attempt.stage (t.count + 1) delay e])
      else
        some (.finished (t.failure e now),
          notices ++ [.exhausted t.attempt.stage (t.count + 1) e])

end Trial

end StagedPipeline
