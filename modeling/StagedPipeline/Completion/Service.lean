import StagedPipeline.Completion.Chat
import StagedPipeline.Config.Executor
import StagedPipeline.Engine.Notice
import StagedPipeline.Text.Inspect

/-!
# Completion services

An executor that asks a completion service over HTTP. It says what is sent and how a reply is read;
the exchange itself is left to the caller.
-/

namespace StagedPipeline

/-- An executor that asks a completion service. -/
structure Service where
  endpoint : String
  model : String
  apiKey : Option String
deriving DecidableEq, Repr

/-- A request as it is sent. -/
structure HttpRequest where
  url : String
  /-- The key, if one is sent. -/
  bearer : Option String
  body : Json

/-- What comes back. -/
inductive HttpReply where
  /-- The exchange failed. -/
  | failed (text : String)
  | answered (status : Nat) (body : String)
deriving DecidableEq, Repr

namespace Service

/-- The executor of some settings, given the key in the environment. An empty key counts as none,
and no key is needed. -/
def ofConfig (config : ExecutorConfig) (key : Option String) : Service × List Notice :=
  let key := key.filter (!·.isEmpty)
  (⟨config.endpoint, config.model, key⟩,
    if key.isNone then [.keyMissing config.apiKeyVariable] else [])

/-- The same executor with another key. -/
def withApiKey (s : Service) (key : String) : Service :=
  { s with apiKey := some key }

/-- What is sent for a completion. -/
def send (s : Service) (request : CompletionRequest) : HttpRequest :=
  ⟨s.endpoint, s.apiKey, Chat.body s.model request⟩

/-- Whether a status reports success. -/
def isSuccess (status : Nat) : Bool :=
  200 ≤ status && status < 300

/-- What a reply means. -/
def receive : HttpReply → Except ExecutorError String × List Notice
  | .failed text => (.error (.transport text), [])
  | .answered status body =>
    if isSuccess status then (Chat.content body, [])
    else (.error (.provider status (Chat.errorText body)), [.rejected status])

/-- How the executor is shown; its key is not. -/
def inspection (s : Service) : Text.Inspection :=
  .record "HttpTaskExecutor"
    [("endpoint", .string s.endpoint), ("model", .string s.model),
      ("has_api_key", .bool s.apiKey.isSome)] false

end Service

end StagedPipeline
