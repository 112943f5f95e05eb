import Mathlib.Algebra.Order.BigOperators.Group.List
import Mathlib.Algebra.Order.Ring.Nat
import StagedPipeline.Proofs.Driving.Reporting
import StagedPipeline.Proofs.Pipeline.Persistence

/-!
# The report of any pipeline

A pipeline that comes from outside may have any results: many of one stage, artifacts of another
stage than their result, and numbers as large as their types allow. What a report says about its
artifacts and lines holds for all of them (`Report.artifacts_and_lines`). The sums do not: there is
no report at all when the times add up to more than a span can be, and when the retries do not fit
32 bits together a build that checks its sums gives no text, and one that does not a wrong number
(`Report.sums`).
-/

namespace StagedPipeline

open Json

/-! ### Spans added up -/

namespace Duration

theorem foldl_add (d : Duration) (ds : List Duration) :
    ds.foldl add d = ⟨d.nanoseconds + (ds.map (·.nanoseconds)).sum⟩ := by
  induction ds generalizing d with
  | nil => rfl
  | cons e ds ih =>
    rw [List.foldl_cons, ih, List.map_cons, List.sum_cons]
    exact congrArg mk (Nat.add_assoc _ _ _)

theorem nanoseconds_sum (ds : List Duration) :
    (sum ds).nanoseconds = (ds.map (·.nanoseconds)).sum := by
  rw [sum, foldl_add]
  exact Nat.zero_add _

/-- Spans that are added one after the other are too long exactly if their sum is: no sum on the way
is longer. -/
theorem foldlM_add? {d : Duration} (hd : d.nanoseconds < bound) (ds : List Duration) :
    ds.foldlM add? d =
      if (ds.foldl add d).nanoseconds < bound then some (ds.foldl add d) else none := by
  induction ds generalizing d with
  | nil => exact (if_pos hd).symm
  | cons e ds ih =>
    rw [List.foldlM_cons, List.foldl_cons]
    by_cases hsum : (d.add e).nanoseconds < bound
    · rw [add?, if_pos hsum]
      exact ih hsum
    · have hlong : ¬ (ds.foldl add (d.add e)).nanoseconds < bound := by
        rw [foldl_add]
        exact fun h => hsum (Nat.lt_of_le_of_lt (Nat.le_add_right _ _) h)
      rw [add?, if_neg hsum, if_neg hlong]
      rfl

theorem sum?_eq (ds : List Duration) :
    sum? ds = if (sum ds).nanoseconds < bound then some (sum ds) else none :=
  foldlM_add? (by decide) ds

/-- A duration that is read is no longer than the milliseconds that 64 bits can count. -/
theorem nanoseconds_le_of_rounded_eq {d : Duration} (h : d.rounded = d) :
    d.nanoseconds ≤ (2 ^ 64 - 1) * 10 ^ 6 := by
  have hword : d.word.toNat < 2 ^ 64 := d.word.toNat_lt
  rw [← h]
  exact Nat.mul_le_mul_right _ (by omega)

end Duration

/-! ### Words added up -/

namespace Arithmetic

/-- The sum of some words, up to multiples of `2 ^ 32`. -/
theorem toNat_foldl_add (a : UInt32) (words : List UInt32) :
    (words.foldl (· + ·) a).toNat = (a.toNat + (words.map UInt32.toNat).sum) % 2 ^ 32 := by
  induction words generalizing a with
  | nil => exact (Nat.mod_eq_of_lt a.toNat_lt).symm
  | cons b words ih =>
    rw [List.foldl_cons, ih, UInt32.toNat_add, Nat.mod_add_mod, List.map_cons, List.sum_cons,
      Nat.add_assoc]

theorem sum?_wrapping (words : List UInt32) :
    wrapping.sum? words = some (words.foldl (· + ·) 0) :=
  List.foldlM_pure

/-- Words that are added one after the other are too large exactly if their sum is: no sum on the
way is larger. -/
theorem foldlM_add?_checked (a : UInt32) (words : List UInt32) :
    words.foldlM checked.add? a =
      if a.toNat + (words.map UInt32.toNat).sum < 2 ^ 32 then some (words.foldl (· + ·) a)
      else none := by
  induction words generalizing a with
  | nil => exact (if_pos a.toNat_lt).symm
  | cons b words ih =>
    rw [List.foldlM_cons, List.foldl_cons, List.map_cons, List.sum_cons, ← Nat.add_assoc]
    by_cases hsum : a.toNat + b.toNat < UInt32.size
    · have hnext : (a + b).toNat = a.toNat + b.toNat := by
        rw [UInt32.toNat_add, Nat.mod_eq_of_lt hsum]
      simp only [add?, if_pos hsum, Option.bind_eq_bind, Option.bind_some]
      rw [ih, hnext]
    · have hlarge : ¬ a.toNat + b.toNat + (words.map UInt32.toNat).sum < 2 ^ 32 :=
        fun h => hsum (Nat.lt_of_le_of_lt (Nat.le_add_right _ _) h)
      rw [add?, if_neg hsum, if_neg hlarge]
      rfl

/-- What the sum of some words is, in either build. -/
theorem sum?_eq_some_iff {arithmetic : Arithmetic} {words : List UInt32} {n : UInt32} :
    arithmetic.sum? words = some n ↔
      (arithmetic = wrapping ∨ (words.map UInt32.toNat).sum < 2 ^ 32) ∧
        n.toNat = (words.map UInt32.toNat).sum % 2 ^ 32 := by
  have hvalue : n.toNat = (words.map UInt32.toNat).sum % 2 ^ 32 ↔
      words.foldl (· + ·) 0 = n := by
    rw [← UInt32.toNat_inj, toNat_foldl_add, UInt32.toNat_zero, Nat.zero_add, eq_comm]
  rw [hvalue]
  cases arithmetic with
  | wrapping => simp [sum?_wrapping]
  | checked => simp [sum?, foldlM_add?_checked]

theorem sum?_eq_none_iff {arithmetic : Arithmetic} {words : List UInt32} :
    arithmetic.sum? words = none ↔
      arithmetic = checked ∧ 2 ^ 32 ≤ (words.map UInt32.toNat).sum := by
  cases arithmetic with
  | wrapping => simp [sum?_wrapping]
  | checked => simp [sum?, foldlM_add?_checked]

end Arithmetic

namespace Report

/-! ### Sums -/

theorem totalRetries?_ofPipeline (arithmetic : Arithmetic) (p : Pipeline) :
    (ofPipeline p).totalRetries? arithmetic = arithmetic.sum? (p.results.map (·.retryCount)) := by
  have hlines : (ofPipeline p).stages.map (·.retryCount) = p.results.map (·.retryCount) :=
    List.map_map
  rw [totalRetries?, hlines]

/-- The retries of all results, in natural numbers. -/
theorem sum_toNat_retryCounts (p : Pipeline) :
    ((p.results.map (·.retryCount)).map UInt32.toNat).sum =
      (p.results.map (·.retryCount.toNat)).sum := by
  rw [List.map_map]
  rfl

/-- What the retries of a report are together, in either build. -/
theorem totalRetries?_eq_some_iff {arithmetic : Arithmetic} {p : Pipeline} {n : UInt32} :
    (ofPipeline p).totalRetries? arithmetic = some n ↔
      (arithmetic = .wrapping ∨ (p.results.map (·.retryCount.toNat)).sum < 2 ^ 32) ∧
        n.toNat = (p.results.map (·.retryCount.toNat)).sum % 2 ^ 32 := by
  rw [totalRetries?_ofPipeline, Arithmetic.sum?_eq_some_iff, sum_toNat_retryCounts]

/-- There is no text just when the build stops over the number of retries. -/
theorem text?_eq_none_iff {arithmetic : Arithmetic} {p : Pipeline} :
    (ofPipeline p).text? arithmetic = none ↔
      arithmetic = .checked ∧ 2 ^ 32 ≤ (p.results.map (·.retryCount.toNat)).sum := by
  rw [text?, Option.map_eq_none_iff, totalRetries?_ofPipeline, Arithmetic.sum?_eq_none_iff,
    sum_toNat_retryCounts]

theorem nanoseconds_totalDuration_ofPipeline (p : Pipeline) :
    (ofPipeline p).totalDuration.nanoseconds =
      (p.results.map (·.duration.nanoseconds)).sum := by
  rw [ofPipeline, Duration.nanoseconds_sum, List.map_map]
  rfl

/-- There is a report if the times of the results are a span together. -/
theorem ofPipeline?_eq (p : Pipeline) :
    ofPipeline? p =
      if (ofPipeline p).totalDuration.nanoseconds < Duration.bound then some (ofPipeline p)
      else none := by
  rw [ofPipeline?, Duration.sum?_eq]
  change Option.map _ (if (ofPipeline p).totalDuration.nanoseconds < _ then _ else _) = _
  split <;> rfl

theorem ofPipeline?_eq_some_iff (p : Pipeline) (r : Report) :
    ofPipeline? p = some r ↔
      (p.results.map (·.duration.nanoseconds)).sum < 2 ^ 64 * 10 ^ 9 ∧ r = ofPipeline p := by
  have hbound : Duration.bound = 2 ^ 64 * 10 ^ 9 := rfl
  rw [ofPipeline?_eq, nanoseconds_totalDuration_ofPipeline, hbound]
  simp [eq_comm]

/-- The durations of a pipeline that is read are together no longer than that many times the
longest. -/
theorem sum_nanoseconds_le_of_read {p : Pipeline} {text : String}
    (hread : Pipeline.record.codec.read text = .ok p) :
    (p.results.map (·.duration.nanoseconds)).sum ≤
      p.results.length * ((2 ^ 64 - 1) * 10 ^ 6) := by
  have hrounded : p.rounded = p := Pipeline.codec_yields.of_read hread
  have hresults : p.results.map StageResult.rounded = p.results :=
    congrArg Pipeline.results hrounded
  have hle : ∀ n ∈ p.results.map (·.duration.nanoseconds), n ≤ (2 ^ 64 - 1) * 10 ^ 6 := by
    intro n hn
    obtain ⟨r, hr, rfl⟩ := List.mem_map.mp hn
    rw [← hresults] at hr
    obtain ⟨x, -, rfl⟩ := List.mem_map.mp hr
    exact Duration.nanoseconds_le_of_rounded_eq (congrArg Duration.ofMilliseconds
      (congrArg UInt64.toNat x.duration.word_rounded))
  simpa using List.sum_le_card_nsmul _ _ hle

/-- A report tells the sum of all times, and there is none just when it is no span, which takes more
than a thousand results of a pipeline that is read. A build that checks its sums tells the sum of
all retries just when it fits 32 bits, and stops over the text of the report otherwise; one that
does not tells the sum up to multiples of `2 ^ 32`. -/
theorem sums (p : Pipeline) :
    (∀ r, ofPipeline? p = some r ↔
      (p.results.map (·.duration.nanoseconds)).sum < 2 ^ 64 * 10 ^ 9 ∧ r = ofPipeline p) ∧
    (∀ text, Pipeline.record.codec.read text = .ok p → p.results.length ≤ 1000 →
      ofPipeline? p = some (ofPipeline p)) ∧
    (ofPipeline p).totalDuration.nanoseconds = (p.results.map (·.duration.nanoseconds)).sum ∧
    (∀ n, (ofPipeline p).totalRetries? .checked = some n ↔
      n.toNat = (p.results.map (·.retryCount.toNat)).sum) ∧
    ((∃ n, (ofPipeline p).totalRetries? .checked = some n) ↔
      (p.results.map (·.retryCount.toNat)).sum < 2 ^ 32) ∧
    (∃ n, (ofPipeline p).totalRetries? .wrapping = some n ∧
      n.toNat = (p.results.map (·.retryCount.toNat)).sum % 2 ^ 32) ∧
    ∀ arithmetic, (ofPipeline p).text? arithmetic = none ↔
      arithmetic = .checked ∧ 2 ^ 32 ≤ (p.results.map (·.retryCount.toNat)).sum := by
  have hreport := ofPipeline?_eq_some_iff p
  refine ⟨hreport, ?_, nanoseconds_totalDuration_ofPipeline p, ?_, ?_, ?_,
    fun _ => text?_eq_none_iff⟩
  · intro text hread hlength
    refine (hreport _).mpr ⟨?_, rfl⟩
    calc (p.results.map (·.duration.nanoseconds)).sum
        ≤ p.results.length * ((2 ^ 64 - 1) * 10 ^ 6) := sum_nanoseconds_le_of_read hread
      _ ≤ 1000 * ((2 ^ 64 - 1) * 10 ^ 6) := Nat.mul_le_mul_right _ hlength
      _ < 2 ^ 64 * 10 ^ 9 := by decide
  · intro n
    rw [totalRetries?_eq_some_iff]
    constructor
    · rintro ⟨hbuild | hfits, hn⟩
      · cases hbuild
      · rw [hn, Nat.mod_eq_of_lt hfits]
    · intro hn
      have hfits : (p.results.map (·.retryCount.toNat)).sum < 2 ^ 32 := hn ▸ n.toNat_lt
      exact ⟨.inr hfits, by rw [hn, Nat.mod_eq_of_lt hfits]⟩
  · rw [← not_iff_not, not_lt, ← Option.isSome_iff_exists, Option.not_isSome_iff_eq_none,
      totalRetries?_ofPipeline, Arithmetic.sum?_eq_none_iff, sum_toNat_retryCounts]
    exact and_iff_right rfl
  · have hwrapping := totalRetries?_ofPipeline .wrapping p
    rw [Arithmetic.sum?_wrapping] at hwrapping
    exact ⟨_, hwrapping, (totalRetries?_eq_some_iff.mp hwrapping).2⟩

/-- A pipeline with the same result many times. -/
def repetitive (count : Nat) (time : UInt64) (retries : UInt32) : Pipeline :=
  { Pipeline.pending (.ofNat 1) ⟨0, 0⟩ with
    results := .replicate count
      ⟨.design, true, "", none, none, .ofMilliseconds time.toNat, retries⟩ }

/-- It can be read from a text. -/
theorem read_repetitive (count : Nat) (time : UInt64) (retries : UInt32) :
    Pipeline.record.codec.read (Pipeline.record.codec.write (repetitive count time retries)) =
      .ok (repetitive count time retries) := by
  have hinstant : Instant.Legible ⟨0, 0⟩ := rfl
  have hlegible : (repetitive count time retries).Legible := by
    refine ⟨?_, nofun, hinstant, hinstant⟩
    intro r hr a ha
    obtain rfl := List.eq_of_mem_replicate hr
    cases ha
  have hrounded : (repetitive count time retries).rounded = repetitive count time retries := by
    simp [Pipeline.rounded, repetitive, StageResult.rounded, Duration.rounded]
  rw [Pipeline.read_write hlegible, hrounded]

theorem length_repetitive (count : Nat) (time : UInt64) (retries : UInt32) :
    (repetitive count time retries).results.length = count :=
  List.length_replicate

theorem sum_nanoseconds_repetitive (count : Nat) (time : UInt64) (retries : UInt32) :
    ((repetitive count time retries).results.map (·.duration.nanoseconds)).sum =
      count * (time.toNat * 10 ^ 6) := by
  rw [repetitive, List.map_replicate, List.sum_replicate_nat]
  rfl

theorem sum_retries_repetitive (count : Nat) (time : UInt64) (retries : UInt32) :
    ((repetitive count time retries).results.map (·.retryCount.toNat)).sum =
      count * retries.toNat := by
  rw [repetitive, List.map_replicate, List.sum_replicate_nat]

/-- A thousand of the longest results that can be read are a span together. -/
theorem sums_of_thousand :
    ofPipeline? (repetitive 1000 18446744073709551615 3) =
        some (ofPipeline (repetitive 1000 18446744073709551615 3)) ∧
      (ofPipeline (repetitive 1000 18446744073709551615 3)).totalRetries? .checked =
        some 3000 := by
  obtain ⟨-, hreport, -, hretries, -⟩ := sums (repetitive 1000 18446744073709551615 3)
  refine ⟨hreport _ (read_repetitive _ _ _) (length_repetitive _ _ _).le, (hretries 3000).mpr ?_⟩
  rw [sum_retries_repetitive]
  rfl

/-- One more of them is too much, so that there is no report. Two results can have more retries than
32 bits can count: there is a report, but a build that checks its sums stops over its text, and one
that does not tells another number than the sum. -/
theorem sums_not_exact :
    (∃ p text, Pipeline.record.codec.read text = .ok p ∧ ofPipeline? p = none) ∧
      ∃ p text, Pipeline.record.codec.read text = .ok p ∧ ofPipeline? p = some (ofPipeline p) ∧
        (ofPipeline p).totalRetries? .checked = none ∧ (ofPipeline p).text? .checked = none ∧
        (ofPipeline p).totalRetries? .wrapping = some 4294967294 ∧
        (p.results.map (·.retryCount.toNat)).sum = 8589934590 := by
  have hretries := sum_retries_repetitive 2 10 4294967295
  refine ⟨⟨_, _, read_repetitive 1001 18446744073709551615 0, ?_⟩,
    _, _, read_repetitive 2 10 4294967295, rfl, rfl, rfl, rfl, hretries⟩
  rw [ofPipeline?_eq, nanoseconds_totalDuration_ofPipeline, sum_nanoseconds_repetitive]
  exact if_neg (by decide)

/-! ### Artifacts and lines -/

/-- Of the artifacts that the results of a pipeline left behind for a stage, a report has the last
one. -/
theorem get?_artifacts_eq_some_iff (p : Pipeline) (stage : Stage) (a : Artifact) :
    (ofPipeline p).artifacts.get? stage = some a ↔
      ∃ before x after, p.results = before ++ x :: after ∧ x.artifact = some a ∧
        a.stage = stage ∧ ∀ y ∈ after, ∀ b, y.artifact = some b → b.stage ≠ stage := by
  rw [artifacts_ofPipeline, ArtifactSet.get?_ofList, List.filter_filterMap,
    List.getLast?_filterMap, List.findSome?_eq_some_iff]
  constructor
  · rintro ⟨after, x, before, hresults, hartifact, hafter⟩
    obtain ⟨hartifact, hstage⟩ := Option.filter_eq_some_iff.mp hartifact
    refine ⟨before.reverse, x, after.reverse, ?_, hartifact, of_decide_eq_true hstage, ?_⟩
    · simpa using congrArg List.reverse hresults
    · intro y hy b hb hother
      simpa [hb, hother] using hafter y (List.mem_reverse.mp hy)
  · rintro ⟨before, x, after, hresults, hartifact, hstage, hafter⟩
    refine ⟨after.reverse, x, before.reverse, ?_, ?_, ?_⟩
    · simp [hresults]
    · exact Option.filter_eq_some_iff.mpr ⟨hartifact, decide_eq_true hstage⟩
    · intro y hy
      rw [Option.filter_eq_none_iff]
      intro b hb
      simpa using hafter y (List.mem_reverse.mp hy) b hb

theorem get?_artifacts_eq_none_iff (p : Pipeline) (stage : Stage) :
    (ofPipeline p).artifacts.get? stage = none ↔
      ∀ x ∈ p.results, ∀ a, x.artifact = some a → a.stage ≠ stage := by
  rw [artifacts_ofPipeline, ArtifactSet.get?_ofList, List.filter_filterMap,
    List.getLast?_filterMap, List.findSome?_eq_none_iff]
  simp [Option.filter_eq_none_iff]

/-- What a report has under a stage is an artifact of it. -/
theorem stage_of_get?_artifacts {p : Pipeline} {stage : Stage} {a : Artifact}
    (h : (ofPipeline p).artifacts.get? stage = some a) : a.stage = stage := by
  obtain ⟨-, -, -, -, -, hstage, -⟩ := (get?_artifacts_eq_some_iff p stage a).mp h
  exact hstage

/-- Whatever the results of a pipeline are, its report, if there is one, has for every stage the
last artifact of that stage that one of them holds, and nothing else. There is a line for every
result, in the same order, and what stands out is what the coding and the testing artifact hold, if
they are there. -/
theorem artifacts_and_lines (p : Pipeline) :
    (∀ r, ofPipeline? p = some r ↔
      (p.results.map (·.duration.nanoseconds)).sum < 2 ^ 64 * 10 ^ 9 ∧ r = ofPipeline p) ∧
    (∀ stage a, (ofPipeline p).artifacts.get? stage = some a ↔
      ∃ before x after, p.results = before ++ x :: after ∧ x.artifact = some a ∧
        a.stage = stage ∧ ∀ y ∈ after, ∀ b, y.artifact = some b → b.stage ≠ stage) ∧
    (∀ stage, (ofPipeline p).artifacts.get? stage = none ↔
      ∀ x ∈ p.results, ∀ a, x.artifact = some a → a.stage ≠ stage) ∧
    List.Forall₂ (fun line result => line.stage = result.stage ∧ line.success = result.success ∧
      line.duration = result.duration ∧ line.retryCount = result.retryCount ∧
      line.error = result.error) (ofPipeline p).stages p.results ∧
    (((ofPipeline p).artifacts.get? .coding = none ∧ (ofPipeline p).highlights.codeChanges = [] ∧
        (ofPipeline p).highlights.filesChanged = []) ∨
      ∃ code, (ofPipeline p).artifacts.get? .coding = some (.coding code) ∧
        (ofPipeline p).highlights.codeChanges = code.changes ∧
        (ofPipeline p).highlights.filesChanged = code.files.map (·.path)) ∧
    (((ofPipeline p).artifacts.get? .testing = none ∧
        (ofPipeline p).highlights.testCount = none ∧ (ofPipeline p).highlights.coverage = none) ∨
      ∃ tests, (ofPipeline p).artifacts.get? .testing = some (.testing tests) ∧
        (ofPipeline p).highlights.testCount = some tests.testFiles.length ∧
        (ofPipeline p).highlights.coverage = tests.coverage) := by
  have hhighlights : (ofPipeline p).highlights = .ofArtifacts (ofPipeline p).artifacts := rfl
  refine ⟨ofPipeline?_eq_some_iff p, get?_artifacts_eq_some_iff p, get?_artifacts_eq_none_iff p,
    forall₂_stages p, ?_, ?_⟩
  · rw [hhighlights]
    cases hcoding : (ofPipeline p).artifacts.get? .coding with
    | none =>
      left
      simp [Highlights.ofArtifacts, ArtifactSet.coding?, hcoding]
    | some a =>
      obtain ⟨code, rfl⟩ := Artifact.exists_coding (stage_of_get?_artifacts hcoding)
      right
      exact ⟨code, rfl, by simp [Highlights.ofArtifacts, ArtifactSet.coding?, hcoding,
        Artifact.asCoding?]⟩
  · rw [hhighlights]
    cases htesting : (ofPipeline p).artifacts.get? .testing with
    | none =>
      left
      simp [Highlights.ofArtifacts, ArtifactSet.testing?, htesting]
    | some a =>
      obtain ⟨tests, rfl⟩ := Artifact.exists_testing (stage_of_get?_artifacts htesting)
      right
      exact ⟨tests, rfl, by simp [Highlights.ofArtifacts, ArtifactSet.testing?, htesting,
        Artifact.asTesting?]⟩

end Report

end StagedPipeline
