import StagedPipeline.CommandLine.Response
import StagedPipeline.Proofs.CommandLine.Timing
import StagedPipeline.Proofs.Pipeline.Report

/-!
# What a session prints

At its end a session prints one report and nothing else. `Pipeline.printed` spells it out from the
pipeline alone, as text or as JSON, and `Response.ofSession?_eq` says when it is printed: always by
a build that does not check its sums and always as JSON, and as text by a build that does just if
the retries fit 32 bits together.
-/

namespace StagedPipeline

open Json

namespace Pipeline

/-- Retries of all results together. -/
def retriesSpent (p : Pipeline) : Nat := (p.results.map (·.retryCount.toNat)).sum

/-- What is printed of a pipeline as text about its artifact of the coding stage. -/
def printedChanges (p : Pipeline) : String :=
  let code := p.artifacts.coding?.getD ⟨[], []⟩
  if code.files = [] ∧ code.changes = [] then ""
  else
    "\n=== Changes ===\n"
      ++ String.join (code.files.map fun file => "file: " ++ file.path ++ "\n")
      ++ String.join (code.changes.map fun change => "- " ++ change ++ "\n")

/-- What is printed of a pipeline as text about its artifact of the testing stage. -/
def printedTests (p : Pipeline) : String :=
  match p.artifacts.testing? with
  | none => ""
  | some tests =>
    "\nTest Files: " ++ decimalText tests.testFiles.length ++ "\n"
      ++ tests.coverage.elim "" fun coverage => "Coverage: " ++ coverage.tenths ++ "%\n"

/-- What is printed of a pipeline as text. -/
def printedText (p : Pipeline) : String :=
  "=== Pipeline Report ===\n\nPipeline: " ++ p.id.text
    ++ "\nStatus: " ++ p.status.name
    ++ "\nProgress: " ++ decimalText p.progress
    ++ "%\nTotal Duration: " ++ decimalText p.timeSpent.milliseconds
    ++ "ms\nTotal Retries: " ++ decimalText (p.retriesSpent % 2 ^ 32) ++ "\n"
    ++ (if p.results = [] then "" else "\n=== Stages ===\n")
    ++ String.join ((p.results.zipIdx 1).map fun (result, number) =>
      decimalText number ++ ". " ++ result.stage.name
        ++ (if result.success then " [ok] " else " [failed] ")
        ++ decimalText result.duration.milliseconds ++ "ms, "
        ++ decimalText result.retryCount.toNat ++ " retries\n"
        ++ result.error.elim "" fun error => "   error: " ++ error ++ "\n")
    ++ p.printedChanges ++ p.printedTests

/-- What is printed of a pipeline as JSON. -/
def printedJson (p : Pipeline) : Json :=
  let code := p.artifacts.coding?.getD ⟨[], []⟩
  let tests := p.artifacts.testing?
  .object [
    ("pipeline_id", .string p.id.text),
    ("status", .string p.status.name),
    ("progress", .natural p.progress),
    ("total_duration_ms", .natural p.timeSpent.word.toNat),
    ("stages", .array (p.results.map fun result => .object [
      ("stage", .string result.stage.name),
      ("success", .bool result.success),
      ("duration_ms", .natural result.duration.word.toNat),
      ("retry_count", .natural result.retryCount.toNat),
      ("error", result.error.elim .null .string)])),
    ("artifacts", ArtifactSet.codec.encode p.artifacts),
    ("summary", .object [
      ("code_changes", .array (code.changes.map .string)),
      ("files_changed", .array (code.files.map (.string ·.path))),
      ("test_count", tests.elim .null (.natural ·.testFiles.length)),
      ("coverage", (tests.bind (·.coverage)).elim .null .double)])]

/-- What is printed of a pipeline, as JSON or as text. -/
def printed (json : Bool) (p : Pipeline) : String :=
  (if json then p.printedJson.pretty else p.printedText) ++ "\n"

end Pipeline

/-! ### The retries of a regular record -/

namespace PipelineRecord.Regular

variable {r : PipelineRecord}

/-- The stages have a budget each. -/
theorem retriesSpent_le (h : r.Regular) :
    r.pipeline.retriesSpent ≤ Stage.count * r.config.retryBudget.toNat := by
  have hle : ∀ n ∈ r.pipeline.results.map (·.retryCount.toNat),
      n ≤ r.config.retryBudget.toNat := by
    intro n hn
    obtain ⟨x, hx, rfl⟩ := List.mem_map.mp hn
    exact UInt32.le_iff_toNat_le.mp (h.retryCount_le hx)
  calc r.pipeline.retriesSpent
      ≤ r.pipeline.results.length * r.config.retryBudget.toNat := by
        simpa [Pipeline.retriesSpent] using List.sum_le_card_nsmul _ _ hle
    _ ≤ Stage.count * r.config.retryBudget.toNat := Nat.mul_le_mul_right _ h.length_results_le

end PipelineRecord.Regular

namespace Report

variable {p : Pipeline}

/-! ### Reports against pipelines -/

theorem totalDuration_ofPipeline (p : Pipeline) : (ofPipeline p).totalDuration = p.timeSpent :=
  congrArg Duration.mk (nanoseconds_totalDuration_ofPipeline p)

theorem lineText_ofResult (number : Nat) (result : StageResult) :
    lineText number (.ofResult result) =
      decimalText number ++ ". " ++ result.stage.name
        ++ (if result.success then " [ok] " else " [failed] ")
        ++ decimalText result.duration.milliseconds ++ "ms, "
        ++ decimalText result.retryCount.toNat ++ " retries\n"
        ++ result.error.elim "" fun error => "   error: " ++ error ++ "\n" := by
  rw [← String.toList_inj]
  cases herror : result.error <;> cases hsuccess : result.success <;>
    simp [lineText, StageLine.ofResult, herror, hsuccess]

/-- The lines are numbered one after the other. -/
theorem linesText_ofResult (number : Nat) (results : List StageResult) :
    linesText number (results.map .ofResult) =
      String.join ((results.zipIdx number).map fun (result, number) =>
        lineText number (.ofResult result)) := by
  induction results generalizing number with
  | nil => rfl
  | cons result results ih =>
    rw [List.map_cons, linesText, ih, List.zipIdx_cons, List.map_cons, String.join_cons]

/-- What stands out in a report whose artifacts are those of its pipeline. -/
theorem highlights_ofPipeline (h : (ofPipeline p).artifacts = p.artifacts) :
    (ofPipeline p).highlights = .ofArtifacts p.artifacts :=
  congrArg Highlights.ofArtifacts h

theorem changesText_ofPipeline (h : (ofPipeline p).artifacts = p.artifacts) :
    changesText (ofPipeline p).highlights = p.printedChanges := by
  rw [highlights_ofPipeline h]
  unfold changesText Pipeline.printedChanges Highlights.ofArtifacts
  cases p.artifacts.coding? with
  | none => rfl
  | some code => simp [Function.comp_def]

theorem testsText_ofPipeline (h : (ofPipeline p).artifacts = p.artifacts) :
    testsText (ofPipeline p).highlights = p.printedTests := by
  rw [highlights_ofPipeline h]
  unfold testsText Pipeline.printedTests Highlights.ofArtifacts
  cases p.artifacts.testing? with
  | none => rfl
  | some tests => cases hcoverage : tests.coverage <;> simp [hcoverage]

/-- The JSON of a report whose artifacts are those of its pipeline. -/
theorem toJson_ofPipeline (h : (ofPipeline p).artifacts = p.artifacts) :
    (ofPipeline p).toJson = p.printedJson := by
  have hlines : (ofPipeline p).stages.map lineToJson = p.results.map fun result => .object [
      ("stage", .string result.stage.name),
      ("success", .bool result.success),
      ("duration_ms", .natural result.duration.word.toNat),
      ("retry_count", .natural result.retryCount.toNat),
      ("error", result.error.elim .null .string)] := by
    rw [ofPipeline, List.map_map]
    refine List.map_congr_left fun result _ => ?_
    cases herror : result.error <;> simp [lineToJson, StageLine.ofResult, herror, Json.textOrNull]
  unfold toJson Pipeline.printedJson highlightsToJson
  rw [highlights_ofPipeline h, h, totalDuration_ofPipeline, hlines]
  unfold Highlights.ofArtifacts
  cases p.artifacts.coding? <;> rcases p.artifacts.testing? with _ | ⟨files, -, -, _ | coverage⟩ <;>
    simp [Json.texts, Function.comp_def]

/-- The text of a report whose artifacts are those of its pipeline. -/
theorem textWith_ofPipeline (h : (ofPipeline p).artifacts = p.artifacts) {retries : UInt32}
    (hretries : retries.toNat = p.retriesSpent % 2 ^ 32) :
    (ofPipeline p).textWith retries = p.printedText := by
  have hlines : (if (ofPipeline p).stages.isEmpty then ""
      else "\n=== Stages ===\n" ++ linesText 1 (ofPipeline p).stages) =
      (if p.results = [] then "" else "\n=== Stages ===\n") ++
        String.join ((p.results.zipIdx 1).map fun (result, number) =>
          lineText number (.ofResult result)) := by
    rw [ofPipeline, linesText_ofResult]
    cases p.results <;> simp
  simp only [lineText_ofResult] at hlines
  unfold textWith Pipeline.printedText
  rw [hlines, changesText_ofPipeline h, testsText_ofPipeline h, totalDuration_ofPipeline,
    hretries]
  rw [← String.toList_inj]
  simp

end Report

namespace CommandLine

variable {p : Pipeline}

/-- A report is printed unless the build stops over the number of retries in its text. -/
theorem Response.reportText?_ofPipeline (h : (Report.ofPipeline p).artifacts = p.artifacts)
    (arithmetic : Arithmetic) (json : Bool) :
    reportText? arithmetic json (.ofPipeline p) =
      if arithmetic = .wrapping ∨ json = true ∨ p.retriesSpent < 2 ^ 32 then some (p.printed json)
      else none := by
  cases json with
  | true => simp [reportText?, Pipeline.printed, Report.toJson_ofPipeline h]
  | false =>
    cases htotal : (Report.ofPipeline p).totalRetries? arithmetic with
    | none =>
      have htext : (Report.ofPipeline p).text? arithmetic = none := by
        rw [Report.text?, htotal, Option.map_none]
      obtain ⟨rfl, hlarge⟩ := Report.text?_eq_none_iff.mp htext
      rw [if_neg (by rintro (⟨⟨⟩⟩ | ⟨⟨⟩⟩ | hfits); exact Nat.not_lt.mpr hlarge hfits)]
      simp [reportText?, htext]
    | some retries =>
      obtain ⟨hfits, hretries⟩ := Report.totalRetries?_eq_some_iff.mp htotal
      rw [if_pos (hfits.imp_right .inr)]
      simp [reportText?, Report.text?, htotal, Pipeline.printed,
        Report.textWith_ofPipeline h hretries]

/-- A session whose pipeline holds the artifacts of its results, and has not taken longer than a
span can be, leaves one report on it. -/
theorem Response.ofSession?_eq {s : Session} (hp : s.pipeline? = some p)
    (hartifacts : (Report.ofPipeline p).artifacts = p.artifacts)
    (htime : p.timeSpent.nanoseconds < 2 ^ 64 * 10 ^ 9) (arithmetic : Arithmetic) (json : Bool) :
    ofSession? arithmetic json s =
      if arithmetic = .wrapping ∨ json = true ∨ p.retriesSpent < 2 ^ 32 then
        some ⟨p.printed json, "", if p.status = .completed then 0 else 1⟩
      else none := by
  have hreport : s.report? = some (.ofPipeline p) := by
    rw [Session.report?, hp, Option.bind_some]
    exact (Report.ofPipeline?_eq_some_iff p _).mpr ⟨htime, rfl⟩
  unfold ofSession?
  rw [hp, hreport]
  dsimp only
  rw [Option.bind_some, ofReport?, reportText?_ofPipeline hartifacts, Report.status_ofPipeline]
  by_cases hprints : arithmetic = .wrapping ∨ json = true ∨ p.retriesSpent < 2 ^ 32
  · rw [if_pos hprints, if_pos hprints, Option.map_some]
  · rw [if_neg hprints, if_neg hprints, Option.map_none]

namespace Session

variable {config : PipelineConfig} {s : Session} {f : Fleet} {heard : Nat → Happening × Moment}
  {n : Nat}

/-- The artifacts of the results of a session are those of its pipeline. -/
theorem Mirrors.artifacts_ofPipeline (h : s.Mirrors config f) (hp : s.pipeline? = some p) :
    (Report.ofPipeline p).artifacts = p.artifacts := by
  obtain ⟨r, hget, -⟩ := h.record
  obtain rfl := Option.some.inj ((h.pipeline?_eq hget).symm.trans hp)
  exact (h.regular.record r hget).ofList_artifacts

theorem Mirrors.retriesSpent_le (h : s.Mirrors config f) (hp : s.pipeline? = some p) :
    p.retriesSpent ≤ Stage.count * config.retryBudget.toNat := by
  obtain ⟨r, hget, rfl, -⟩ := h.record
  obtain rfl := Option.some.inj ((h.pipeline?_eq hget).symm.trans hp)
  exact (h.regular.record r hget).retriesSpent_le

/-- Whatever a session has heard, on a clock that only runs forward its results take no longer than
a span can be. -/
theorem Mirrors.timeSpent_lt (h : s.Mirrors config f) (hstart : ∀ t, s.Timed t t)
    (htimely : Timely heard) (hp : (s.after heard n).pipeline? = some p) :
    p.timeSpent.nanoseconds < 2 ^ 64 * 10 ^ 9 := by
  obtain ⟨r, hget, hspent, -⟩ := h.timed_after (hstart _) htimely n
  have hpipeline : (s.after heard n).pipeline? = some r.pipeline := by
    rw [pipeline?, Store.pipeline?, hget, Option.map_some]
  obtain rfl := Option.some.inj (hpipeline.symm.trans hp)
  have hbounded := htimely.bounded n
  omega

/-- The response of a session, whatever it has heard, on a clock that only runs forward. -/
theorem Mirrors.ofSession?_after (h : s.Mirrors config f) (hstart : ∀ t, s.Timed t t)
    (htimely : Timely heard) (hp : (s.after heard n).pipeline? = some p) (arithmetic : Arithmetic)
    (json : Bool) :
    Response.ofSession? arithmetic json (s.after heard n) =
      if arithmetic = .wrapping ∨ json = true ∨ p.retriesSpent < 2 ^ 32 then
        some ⟨p.printed json, "", if p.status = .completed then 0 else 1⟩
      else none := by
  obtain ⟨es, hlast, -⟩ := h.exists_after heard n
  exact Response.ofSession?_eq hp (hlast.artifacts_ofPipeline hp)
    (h.timeSpent_lt hstart htimely hp) arithmetic json

end Session

end CommandLine

end StagedPipeline
