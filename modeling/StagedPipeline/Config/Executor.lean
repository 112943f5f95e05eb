import StagedPipeline.Json.Codec

/-!
# Settings of the executor

Where completions are requested, and how.
-/

namespace StagedPipeline

open Json

/-- The settings of an executor that asks a completion service. -/
structure ExecutorConfig where
  /-- Address of the service. -/
  baseUrl : String
  model : String
  /-- Name of the environment variable that holds the key. -/
  apiKeyVariable : String
  /-- Time limit of a request, in seconds. -/
  requestTimeout : UInt64
deriving DecidableEq, Repr

namespace ExecutorConfig

/-- The default of every setting. -/
def initial : ExecutorConfig :=
  ⟨"https://api.openai.com/v1", "gpt-4o-mini", "OPENAI_API_KEY", 600⟩

/-- The settings, by name. -/
def record : Record ExecutorConfig where
  initial := initial
  mayStop := true
  fields := [
    .defaulted "base_url" .string (·.baseUrl) (fun v a => { a with baseUrl := v }),
    .defaulted "model" .string (·.model) (fun v a => { a with model := v }),
    .defaulted "api_key_env" .string (·.apiKeyVariable)
      (fun v a => { a with apiKeyVariable := v }),
    .defaulted "request_timeout_secs" .word64 (·.requestTimeout)
      (fun v a => { a with requestTimeout := v })]

/-- The address completions are requested at: that of the service without any slashes at its end,
and a fixed path. -/
def endpoint (c : ExecutorConfig) : String :=
  String.ofList (c.baseUrl.toList.reverse.dropWhile (· == '/')).reverse ++ "/chat/completions"

end ExecutorConfig

end StagedPipeline
