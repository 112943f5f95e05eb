import StagedPipeline.Pipeline.Status
import StagedPipeline.Stage

/-!
# Progress lines

A line that tells how far a pipeline has come.
-/

namespace StagedPipeline.CommandLine

/-- Percents with blanks in front, three characters at least. -/
def percentText (progress : Nat) : String :=
  let digits := digitsOf progress
  String.ofList (List.replicate (3 - digits.length) ' ' ++ digits)

/-- The stage that is being worked on, and the role it is worked on in; only while the pipeline
runs. -/
def workText (status : Status) : Option Stage → String
  | some stage =>
    if status = .running then ": " ++ stage.name ++ " (" ++ stage.role ++ ")" else ""
  | none => ""

/-- How far a pipeline has come. -/
def progressLine (progress : Nat) (status : Status) (stage : Option Stage) : String :=
  "[" ++ percentText progress ++ "%] " ++ status.name ++ workText status stage

end StagedPipeline.CommandLine
