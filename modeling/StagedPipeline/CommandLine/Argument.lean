import StagedPipeline.Json.Number
import StagedPipeline.Time.Duration

/-!
# Arguments

What can stand on the command line: the subcommands, their options, and the values options take. A
`Word` is an argument sorted by its form alone.
-/

namespace StagedPipeline.CommandLine

/-- An option. -/
inductive Argument where
  | task
  | context
  | config
  | maxRetries
  | noRetry
  | stageTimeout
  | json
  | logJson
deriving DecidableEq, Repr

namespace Argument

/-- The name of an option. -/
def name : Argument → String
  | task => "task"
  | context => "context"
  | config => "config"
  | maxRetries => "max-retries"
  | noRetry => "no-retry"
  | stageTimeout => "stage-timeout-secs"
  | json => "json"
  | logJson => "log-json"

/-- Whether an option takes a value. -/
def takesValue : Argument → Bool
  | noRetry => false
  | json => false
  | logJson => false
  | _ => true

/-- An option as it is shown, with the place of its value. -/
def form (a : Argument) : String :=
  "--" ++ a.name ++ (if a.takesValue then " <" ++ a.name ++ ">" else "")

/-- What an option is for. -/
def purpose : Argument → String
  | task => "High-level task description"
  | context => "Extra context passed to every stage"
  | config => "Path to a TOML config file with [engine] and [executor] tables"
  | maxRetries => "Retries per stage after the first attempt"
  | noRetry => "Give each stage a single attempt"
  | stageTimeout => "Per-attempt timeout in seconds"
  | json => "Print the report as JSON"
  | logJson => "Emit logs as JSON lines"

end Argument

/-- The value of a text of decimal digits. -/
def digitsValue? (digits : List Char) : Option Nat :=
  if digits.isEmpty || !digits.all Char.isDigit then none else some (Json.digitsValue 0 digits)

/-- A number of 32 bits. A sign may stand in front, and zero may be negative. -/
def readRetries? (text : String) : Option UInt32 :=
  let number? := match text.toList with
    | '+' :: digits => digitsValue? digits
    | '-' :: digits => (digitsValue? digits).filter (· = 0)
    | digits => digitsValue? digits
  (number?.filter (· < UInt32.size)).map UInt32.ofNat

/-- A positive number of seconds, of 64 bits. A plus may stand in front. -/
def readSeconds? (text : String) : Option Duration :=
  let number? := match text.toList with
    | '+' :: digits => digitsValue? digits
    | digits => digitsValue? digits
  (number?.filter fun n => 0 < n && n < UInt64.size).map Duration.ofSeconds

/-- A subcommand that does something. -/
inductive Subcommand where
  | run
  | config
deriving DecidableEq, Repr

namespace Subcommand

/-- The name of a subcommand. -/
def name : Subcommand → String
  | run => "run"
  | config => "config"

/-- The subcommand with a name. -/
def ofName? (name : String) : Option Subcommand :=
  [run, config].find? (·.name == name)

/-- What a subcommand does. -/
def purpose : Subcommand → String
  | run => "Run a task through every stage"
  | config => "Print the effective configuration"

/-- The options of a subcommand, as they are listed. -/
def arguments : Subcommand → List Argument
  | run => [.logJson, .task, .context, .config, .maxRetries, .noRetry, .stageTimeout, .json]
  | config => [.config, .logJson]

/-- The option of a subcommand with a name. -/
def argument? (s : Subcommand) (name : String) : Option Argument :=
  s.arguments.find? (·.name == name)

end Subcommand

/-- The name of the subcommand that explains others. -/
def helpName : String := "help"

/-- An argument by its form. -/
inductive Word where
  /-- Two dashes: no options follow. -/
  | escape
  /-- Two dashes and a name, and a value behind an equals sign. -/
  | long (name : String) (value : Option String)
  /-- A dash and a letter; what follows the letter does not matter. -/
  | short (letter : Char)
  | plain
deriving DecidableEq, Repr

/-- Sorts an argument. -/
def Word.ofText (text : String) : Word :=
  match text.toList with
  | ['-', '-'] => .escape
  | '-' :: '-' :: rest =>
    .long (String.ofList (rest.takeWhile (· ≠ '=')))
      (match rest.dropWhile (· ≠ '=') with
        | [] => none
        | _ :: value => some (String.ofList value))
  | '-' :: letter :: _ => .short letter
  | _ => .plain

end StagedPipeline.CommandLine
