import StagedPipeline.CommandLine.Help
import StagedPipeline.CommandLine.Session
import StagedPipeline.Config.Settings

/-!
# Responses

What the program leaves behind when it ends: its output, what it says besides, and an exit code. A
run ends with one report, and with the exit code zero exactly if the pipeline is completed.
Arguments that are refused end with the exit code two, everything else that goes wrong with one and
without output. Only a report whose sums are too large leaves no response: the program is broken
off.
-/

namespace StagedPipeline.CommandLine

/-- What the program leaves behind. -/
structure Response where
  output : String
  /-- What is said besides the output. -/
  comment : String
  exitCode : UInt32
deriving DecidableEq, Repr

namespace Response

/-- A response that consists of its output. -/
def ofOutput (output : String) : Response := ⟨output, "", 0⟩

/-- The response to something that goes wrong. -/
def failure (message : String) : Response := ⟨"", "Error: " ++ message ++ "\n", 1⟩

/-- The response to arguments that do not lead to a subcommand. -/
def ofStop : Stop → Response
  | .help topic => ofOutput topic.text
  | .version => ofOutput versionText
  | .refused error =>
    ⟨"", "error: " ++ error.message ++ "\n\nFor more information, try '--help'.\n", 2⟩

/-- The response to a settings file that cannot be used. -/
def ofConfigError (path : String) (error : ConfigError) : Response :=
  failure (Settings.loadContext path error ++ "\n\nCaused by:\n    " ++ error.message)

/-- The response to a question for the settings. -/
def ofSettings (settings : Settings) : Response :=
  match settings.print? with
  | some text => ofOutput text
  | none => failure "a number is too large"

/-- The response to a task that is refused. -/
def ofRefusal (error : PipelineError) : Response := failure error.message

/-- The text of a report, unless the build stops over a sum in it. -/
def reportText? (arithmetic : Arithmetic) (json : Bool) (report : Report) : Option String :=
  (if json then some report.toJson.pretty else report.text? arithmetic).map (· ++ "\n")

/-- The response that prints a report, unless the build stops over a sum in it. -/
def ofReport? (arithmetic : Arithmetic) (json : Bool) (report : Report) : Option Response :=
  (reportText? arithmetic json report).map fun text =>
    ⟨text, "", if report.status = .completed then 0 else 1⟩

/-- The response of a session at its end, unless the program is broken off over a sum in its
report. -/
def ofSession? (arithmetic : Arithmetic) (json : Bool) (s : Session) : Option Response :=
  match s.pipeline? with
  | some _ => s.report?.bind (ofReport? arithmetic json)
  | none => some (failure "pipeline disappeared before its report was generated")

/-- The same response with something said before. -/
def after (r : Response) (comment : String) : Response :=
  { r with comment := comment ++ r.comment }

end Response

/-- A value as it stands in a log line. -/
def logValues (fields : List (String × String)) : String :=
  String.join (fields.map fun (name, value) => " " ++ name ++ "=" ++ value)

/-- A log entry as a line of text. -/
def logLine (now : Instant) (e : LogEntry) : String :=
  now.text ++ " " ++ e.level.name ++ " " ++ e.source ++ ": " ++ e.message ++ logValues e.fields

/-- A log entry as a line of JSON. -/
def logJsonLine (now : Instant) (e : LogEntry) : String :=
  (Json.object [
    ("timestamp", .string now.text), ("level", .string e.level.name),
    ("fields", .object (("message", .string e.message)
      :: e.fields.map fun (name, value) => (name, .string value))),
    ("target", .string e.source)]).render

/-- A remark as it is said; entries for developers are left out. -/
def Remark.text (logJson : Bool) (now : Instant) : Remark → String
  | .line text => text ++ "\n"
  | .log e =>
    if e.level = .debug then ""
    else (if logJson then logJsonLine now e else logLine now e) ++ "\n"

/-- Remarks as they are said. -/
def remarksText (logJson : Bool) (now : Instant) (remarks : List Remark) : String :=
  String.join (remarks.map (·.text logJson now))

end StagedPipeline.CommandLine
