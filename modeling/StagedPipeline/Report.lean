import StagedPipeline.Numeric.Word
import StagedPipeline.Pipeline.Basic

/-!
# Reports

A report sums a pipeline up: a line for every result, the artifacts the results left behind, and
what stands out among those of the coding and testing stages. It is derived from a snapshot and can
be written as JSON or as plain text.

Two sums can come to nothing. A pipeline whose results took longer together than a span can be has
no report (`Report.ofPipeline?`), and in a build that checks its sums of words a report whose
retries do not fit 32 bits together has no text (`Report.text?`).
-/

namespace StagedPipeline

open Json

/-- What a report tells about one result. -/
structure StageLine where
  stage : Stage
  success : Bool
  duration : Duration
  retryCount : UInt32
  error : Option String
deriving DecidableEq, Repr

/-- What stands out among the artifacts. -/
structure Highlights where
  /-- Summaries of the changes to the code. -/
  codeChanges : List String
  /-- Paths of the files that were written. -/
  filesChanged : List String
  /-- Number of test files. -/
  testCount : Option Nat
  coverage : Option Binary64
deriving DecidableEq

/-- A pipeline summed up. -/
structure Report where
  id : PipelineId
  status : Status
  progress : Nat
  /-- Time of all results. -/
  totalDuration : Duration
  stages : List StageLine
  artifacts : ArtifactSet
  highlights : Highlights
deriving DecidableEq

/-- The line of a result. -/
def StageLine.ofResult (result : StageResult) : StageLine :=
  ⟨result.stage, result.success, result.duration, result.retryCount, result.error⟩

/-- What stands out among some artifacts. -/
def Highlights.ofArtifacts (artifacts : ArtifactSet) : Highlights where
  codeChanges := (artifacts.coding?.map (·.changes)).getD []
  filesChanged := (artifacts.coding?.map (·.files.map (·.path))).getD []
  testCount := artifacts.testing?.map (·.testFiles.length)
  coverage := artifacts.testing?.bind (·.coverage)

namespace Report

/-- The report of a pipeline. Of several artifacts of a stage the last one counts. -/
def ofPipeline (p : Pipeline) : Report :=
  let artifacts := ArtifactSet.ofList (p.results.filterMap (·.artifact))
  { id := p.id
    status := p.status
    progress := p.progress
    totalDuration := Duration.sum (p.results.map (·.duration))
    stages := p.results.map .ofResult
    artifacts := artifacts
    highlights := .ofArtifacts artifacts }

section OfPipeline

variable (p : Pipeline)

@[simp] theorem id_ofPipeline : (ofPipeline p).id = p.id := rfl

@[simp] theorem status_ofPipeline : (ofPipeline p).status = p.status := rfl

@[simp] theorem progress_ofPipeline : (ofPipeline p).progress = p.progress := rfl

end OfPipeline

/-- The report of a pipeline, unless its results took longer together than a span can be. -/
def ofPipeline? (p : Pipeline) : Option Report :=
  (Duration.sum? (p.results.map (·.duration))).map fun total =>
    { ofPipeline p with totalDuration := total }

/-- Retries of all stages together, as a number of 32 bits, unless the build stops over them. -/
def totalRetries? (arithmetic : Arithmetic) (r : Report) : Option UInt32 :=
  arithmetic.sum? (r.stages.map (·.retryCount))

/-- A line as JSON. -/
def lineToJson (line : StageLine) : Json :=
  .object [
    ("stage", .string line.stage.name),
    ("success", .bool line.success),
    ("duration_ms", .natural line.duration.word.toNat),
    ("retry_count", .natural line.retryCount.toNat),
    ("error", .textOrNull line.error)]

/-- What stands out, as JSON. -/
def highlightsToJson (h : Highlights) : Json :=
  .object [
    ("code_changes", .texts h.codeChanges),
    ("files_changed", .texts h.filesChanged),
    ("test_count", (h.testCount.map Json.natural).getD .null),
    ("coverage", (h.coverage.map Json.double).getD .null)]

/-- The report as JSON. -/
def toJson (r : Report) : Json :=
  .object [
    ("pipeline_id", .string r.id.text),
    ("status", .string r.status.name),
    ("progress", .natural r.progress),
    ("total_duration_ms", .natural r.totalDuration.word.toNat),
    ("stages", .array (r.stages.map lineToJson)),
    ("artifacts", ArtifactSet.codec.encode r.artifacts),
    ("summary", highlightsToJson r.highlights)]

/-- The text of a line: its number, what happened, and the error if there was one. -/
def lineText (number : Nat) (line : StageLine) : String :=
  decimalText number ++ ". " ++ line.stage.name ++ " [" ++ (if line.success then "ok" else "failed")
    ++ "] " ++ decimalText line.duration.milliseconds ++ "ms, "
    ++ decimalText line.retryCount.toNat ++ " retries\n"
    ++ (match line.error with
      | some error => "   error: " ++ error ++ "\n"
      | none => "")

/-- The text of the lines, numbered from `number` on. -/
def linesText : (number : Nat) → List StageLine → String
  | _, [] => ""
  | number, line :: rest => lineText number line ++ linesText (number + 1) rest

/-- The text about changes, if there are any. -/
def changesText (h : Highlights) : String :=
  if h.filesChanged.isEmpty && h.codeChanges.isEmpty then ""
  else
    "\n=== Changes ===\n"
      ++ String.join (h.filesChanged.map fun path => "file: " ++ path ++ "\n")
      ++ String.join (h.codeChanges.map fun change => "- " ++ change ++ "\n")

/-- The text about tests, if there are any. -/
def testsText (h : Highlights) : String :=
  (match h.testCount with
    | some count => "\nTest Files: " ++ decimalText count ++ "\n"
    | none => "")
    ++ (match h.coverage with
      | some coverage => "Coverage: " ++ coverage.tenths ++ "%\n"
      | none => "")

/-- The report as plain text, with a number of retries of all stages together. -/
def textWith (retries : UInt32) (r : Report) : String :=
  "=== Pipeline Report ===\n\n"
    ++ "Pipeline: " ++ r.id.text ++ "\n"
    ++ "Status: " ++ r.status.name ++ "\n"
    ++ "Progress: " ++ decimalText r.progress ++ "%\n"
    ++ "Total Duration: " ++ decimalText r.totalDuration.milliseconds ++ "ms\n"
    ++ "Total Retries: " ++ decimalText retries.toNat ++ "\n"
    ++ (if r.stages.isEmpty then "" else "\n=== Stages ===\n" ++ linesText 1 r.stages)
    ++ changesText r.highlights
    ++ testsText r.highlights

/-- The report as plain text, unless the build stops over the number of retries. -/
def text? (arithmetic : Arithmetic) (r : Report) : Option String :=
  (r.totalRetries? arithmetic).map r.textWith

end Report

end StagedPipeline
