import StagedPipeline.CommandLine.Response
import StagedPipeline.Completion.Service

/-!
# The program

The whole program as a function of its arguments and of what it finds around it, for a run that
nobody interrupts. There is no response if it is broken off over a sum in its report, which may
depend on how it was built.
-/

namespace StagedPipeline.CommandLine

/-- What the program finds around it. -/
structure Surroundings where
  /-- What a file holds, if it can be read. -/
  file? : String → Option String
  /-- The value of an environment variable. -/
  environment? : String → Option String
  /-- What comes back for a request. -/
  exchange : HttpRequest → HttpReply
  /-- An identifier for the pipeline. -/
  id : PipelineId
  now : Moment

namespace Surroundings

/-- The settings in the file of an invocation, or the defaults. -/
def settings (w : Surroundings) (path : Option String) : Except ConfigError Settings :=
  Settings.load (path.map fun path => ⟨path, w.file? path⟩)

/-- The executor of some settings. -/
def service (w : Surroundings) (config : ExecutorConfig) : Service × List Notice :=
  Service.ofConfig config (w.environment? config.apiKeyVariable)

/-- The answer to a request. -/
def respond (w : Surroundings) (service : Service) (request : CompletionRequest) :
    Except ExecutorError String :=
  (Service.receive (w.exchange (service.send request))).1

/-- Runs a task to its end. -/
def session (w : Surroundings) (settings : Settings) (options : RunOptions) :
    Except PipelineError (Session × List Remark) :=
  let (service, notices) := w.service settings.executor
  match Session.start settings.engine options w.id w.now with
  | .error e => .error e
  | .ok (s, remarks) =>
    let budget := (Session.pipelineConfig settings.engine options).retryBudget
    let (s, more) := s.serve (w.respond service) w.now (Session.enough budget)
    .ok (s, Remark.ofNotices notices ++ remarks ++ more ++ s.closing)

/-- Runs a task and reports on it. -/
def run? (w : Surroundings) (arithmetic : Arithmetic) (logJson : Bool) (settings : Settings)
    (options : RunOptions) : Option Response :=
  match w.session settings options with
  | .error e => some (.ofRefusal e)
  | .ok (s, remarks) =>
    (Response.ofSession? arithmetic options.json s).map
      (·.after (remarksText logJson w.now.instant remarks))

/-- Does what the arguments ask for. -/
def response? (w : Surroundings) (arithmetic : Arithmetic) (arguments : List String) :
    Option Response :=
  match Invocation.parse arguments with
  | .error stop => some (.ofStop stop)
  | .ok invocation =>
    match w.settings invocation.configPath with
    | .error e => some (.ofConfigError (invocation.configPath.getD "") e)
    | .ok settings =>
      match invocation.command with
      | .config => some (.ofSettings settings)
      | .run options => w.run? arithmetic invocation.logJson settings options

end Surroundings

end StagedPipeline.CommandLine
