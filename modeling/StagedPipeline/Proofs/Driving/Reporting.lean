import Mathlib.Data.List.Induction
import Mathlib.Data.List.Nodup
import StagedPipeline.Proofs.Driving.Regularity
import StagedPipeline.Report

/-!
# What a report tells of a pipeline

A pipeline takes over the artifact of a result unless it has one of that stage already; a report
puts the artifacts of all results together, and of several ones of a stage the last one counts. The
two differ as soon as a stage has two results with an artifact. In a regular record no stage has
two results at all, and a result that is no success has no artifact, so that a report holds just
the artifacts of its pipeline (`Fleet.report_of_created`).
-/

namespace StagedPipeline

/-! ### Artifacts put together -/

namespace Artifact

theorem exists_coding {a : Artifact} (h : a.stage = .coding) : ∃ code, a = .coding code := by
  cases a with
  | coding code => exact ⟨code, rfl⟩
  | _ => simp [stage] at h

theorem exists_testing {a : Artifact} (h : a.stage = .testing) : ∃ tests, a = .testing tests := by
  cases a with
  | testing tests => exact ⟨tests, rfl⟩
  | _ => simp [stage] at h

end Artifact

namespace ArtifactSet

/-- Of several artifacts of a stage the last one counts. -/
theorem get?_ofList (as : List Artifact) (stage : Stage) :
    (ofList as).get? stage = (as.filter (·.stage = stage)).getLast? := by
  induction as using List.reverseRecOn with
  | nil => exact get?_empty stage
  | append_singleton as a ih =>
    have hmerge : ofList (as ++ [a]) = (ofList as).merge a := by
      rw [ofList, List.foldl_append]
      rfl
    rw [hmerge, List.filter_append]
    by_cases hstage : a.stage = stage
    · subst hstage
      rw [get?_merge_self, List.filter_cons_of_pos (by simp), List.filter_nil, List.getLast?_concat]
    · rw [get?_merge_of_ne _ (Ne.symm hstage), List.filter_cons_of_neg (by simp [hstage]),
        List.filter_nil, List.append_nil, ih]

/-- If they are of different stages, each of them counts. -/
theorem get?_ofList_eq_some_iff {as : List Artifact} (h : (as.map (·.stage)).Nodup)
    {stage : Stage} {a : Artifact} :
    (ofList as).get? stage = some a ↔ a ∈ as ∧ a.stage = stage := by
  rw [get?_ofList]
  constructor
  · intro hlast
    have hmem := List.mem_filter.mp (List.mem_of_getLast? hlast)
    exact ⟨hmem.1, of_decide_eq_true hmem.2⟩
  · rintro ⟨ha, rfl⟩
    have hmem : a ∈ as.filter (·.stage = a.stage) := List.mem_filter.mpr ⟨ha, decide_eq_true rfl⟩
    have hlast := List.getLast?_eq_some_getLast (List.ne_nil_of_mem hmem)
    obtain ⟨hb, hstage⟩ := List.mem_filter.mp (List.mem_of_getLast? hlast)
    rw [hlast, List.inj_on_of_nodup_map h hb ha (of_decide_eq_true hstage)]

end ArtifactSet

/-! ### Regular records -/

namespace PipelineRecord.Regular

variable {r : PipelineRecord}

/-- The results are those of the first stages, one each. -/
theorem exists_stages_eq (h : r.Regular) :
    ∃ k, r.pipeline.results.map (·.stage) = Stage.all.take k := by
  obtain ⟨done, last, hresults, hdone, -, hlast⟩ := h.results
  cases last with
  | none =>
    refine ⟨r.pipeline.completed.length, ?_⟩
    rw [hresults, Option.toList_none, List.append_nil, hdone]
    exact h.completed
  | some x =>
    refine ⟨x.stage.index + 1, ?_⟩
    rw [hresults, Option.toList_some, List.map_append, hdone, h.completed, ← (hlast x rfl).2.1]
    exact Stage.take_index_append x.stage

theorem length_results_le (h : r.Regular) : r.pipeline.results.length ≤ Stage.count := by
  obtain ⟨k, hstages⟩ := h.exists_stages_eq
  calc r.pipeline.results.length
      = (Stage.all.take k).length := by rw [← hstages, List.length_map]
    _ ≤ Stage.count := List.length_take_le' _ _

theorem retryCount_le (h : r.Regular) {x : StageResult} (hx : x ∈ r.pipeline.results) :
    x.retryCount ≤ r.config.retryBudget := by
  obtain ⟨done, last, hresults, -, hsucceeded, hlast⟩ := h.results
  rw [hresults] at hx
  rcases List.mem_append.mp hx with hx | hx
  · exact (hsucceeded x hx).retryCount
  · rw [(hlast x (Option.mem_toList.mp hx)).1.retryCount]
    exact UInt32.le_refl _

theorem nodup_stages (h : r.Regular) : (r.pipeline.results.map (·.stage)).Nodup := by
  obtain ⟨k, hk⟩ := h.exists_stages_eq
  rw [hk]
  exact (by decide : Stage.all.Nodup).sublist (List.take_sublist k _)

/-- Only a success has an artifact, and it is one of its stage. -/
theorem of_artifact (h : r.Regular) {x : StageResult} (hx : x ∈ r.pipeline.results) {a : Artifact}
    (ha : x.artifact = some a) : x.success = true ∧ a.stage = x.stage := by
  obtain ⟨done, last, hresults, -, hsucceeded, hlast⟩ := h.results
  rw [hresults] at hx
  rcases List.mem_append.mp hx with hx | hx
  · have hkind := hsucceeded x hx
    exact ⟨hkind.success, Artifact.stage_of_decode? (hkind.artifact.symm.trans ha)⟩
  · have hkind := (hlast x (Option.mem_toList.mp hx)).1
    rw [hkind.artifact] at ha
    contradiction

/-- No two artifacts of the results are of the same stage. -/
theorem nodup_stages_artifacts (h : r.Regular) :
    ((r.pipeline.results.filterMap (·.artifact)).map (·.stage)).Nodup := by
  have hstages := List.pairwise_map.mp h.nodup_stages
  rw [List.nodup_iff_pairwise_ne, List.pairwise_map, List.pairwise_filterMap]
  refine hstages.imp_of_mem fun hx hy hne a ha b hb => ?_
  rw [(h.of_artifact hx ha).2, (h.of_artifact hy hb).2]
  exact hne

/-- The last artifacts of the stages are the first ones. -/
theorem ofList_artifacts (h : r.Regular) :
    ArtifactSet.ofList (r.pipeline.results.filterMap (·.artifact)) = r.pipeline.artifacts := by
  refine ArtifactSet.ext_get? fun stage => Option.ext fun a => ?_
  rw [ArtifactSet.get?_ofList_eq_some_iff h.nodup_stages_artifacts, h.artifacts, List.mem_filterMap]
  constructor
  · rintro ⟨⟨x, hx, ha⟩, rfl⟩
    obtain ⟨hsuccess, hstage⟩ := h.of_artifact hx ha
    exact ⟨x, hx, hsuccess, hstage.symm, ha⟩
  · rintro ⟨x, hx, -, rfl, ha⟩
    exact ⟨⟨x, hx, ha⟩, (h.of_artifact hx ha).2⟩

/-- What is held under a stage is an artifact of it. -/
theorem stage_of_get? (h : r.Regular) {stage : Stage} {a : Artifact}
    (ha : r.pipeline.artifacts.get? stage = some a) : a.stage = stage := by
  obtain ⟨x, hx, -, rfl, hartifact⟩ := (h.artifacts stage a).mp ha
  exact (h.of_artifact hx hartifact).2

/-- As many results are successes as stages are completed. -/
theorem countP_success (h : r.Regular) :
    r.pipeline.results.countP (·.success) = r.pipeline.completed.length := by
  obtain ⟨done, last, hresults, hdone, hsucceeded, hlast⟩ := h.results
  have hcount : done.countP (·.success) = done.length :=
    List.countP_eq_length.mpr fun x hx => (hsucceeded x hx).success
  have hrest : last.toList.countP (·.success) = 0 := by
    rw [List.countP_eq_zero]
    intro x hx
    simp [(hlast x (Option.mem_toList.mp hx)).1.success]
  rw [hresults, List.countP_append, hcount, hrest, ← hdone, List.length_map, Nat.add_zero]

end PipelineRecord.Regular

/-! ### Lines and highlights -/

theorem Report.artifacts_ofPipeline (p : Pipeline) :
    (ofPipeline p).artifacts = .ofList (p.results.filterMap (·.artifact)) := rfl

/-- A line for every result, in the same order. -/
theorem Report.forall₂_stages (p : Pipeline) :
    List.Forall₂ (fun line result => line.stage = result.stage ∧ line.success = result.success ∧
      line.duration = result.duration ∧ line.retryCount = result.retryCount ∧
      line.error = result.error) (ofPipeline p).stages p.results :=
  List.forall₂_map_left_iff.mpr
    (List.forall₂_same.mpr fun _ _ => ⟨rfl, rfl, rfl, rfl, rfl⟩)

/-- The lines that report a success are those of the results that are one. -/
theorem Report.countP_success (p : Pipeline) :
    (ofPipeline p).stages.countP (·.success) = p.results.countP (·.success) :=
  List.countP_map

namespace Fleet

variable {engine : EngineConfig} {s : Fleet} {id : PipelineId} {p : Pipeline}

/-- The report of a pipeline that was created: the artifacts it puts together are those the pipeline
has taken over, there is a line for every result, in the same order, a success counts 20 percent,
and what stands out is what the coding and the testing artifact hold, if they are there. -/
theorem report_of_created (h : s.Reached engine (Created id))
    (hget : s.store.pipeline? id = some p) :
    let report := Report.ofPipeline p
    report.artifacts = p.artifacts ∧
    List.Forall₂ (fun line result => line.stage = result.stage ∧ line.success = result.success ∧
      line.duration = result.duration ∧ line.retryCount = result.retryCount ∧
      line.error = result.error) report.stages p.results ∧
    report.stages.countP (·.success) * 20 = report.progress ∧
    ((p.artifacts.get? .coding = none ∧ report.highlights.codeChanges = [] ∧
        report.highlights.filesChanged = []) ∨
      ∃ code, p.artifacts.get? .coding = some (.coding code) ∧
        report.highlights.codeChanges = code.changes ∧
        report.highlights.filesChanged = code.files.map (·.path)) ∧
    ((p.artifacts.get? .testing = none ∧ report.highlights.testCount = none ∧
        report.highlights.coverage = none) ∨
      ∃ tests, p.artifacts.get? .testing = some (.testing tests) ∧
        report.highlights.testCount = some tests.testFiles.length ∧
        report.highlights.coverage = tests.coverage) := by
  intro report
  obtain ⟨r, hr, rfl⟩ := Option.map_eq_some_iff.mp hget
  have hregular := (regular_of_reached h).record r hr
  have hartifacts : report.artifacts = r.pipeline.artifacts := hregular.ofList_artifacts
  have hhighlights : report.highlights = .ofArtifacts r.pipeline.artifacts :=
    congrArg Highlights.ofArtifacts hartifacts
  refine ⟨hartifacts, Report.forall₂_stages r.pipeline, ?_, ?_, ?_⟩
  · calc report.stages.countP (·.success) * 20
        = r.pipeline.completed.length * 20 := by
          rw [Report.countP_success, hregular.countP_success]
      _ = r.pipeline.progress := by
          rw [Pipeline.progress_eq hregular.length_completed_le, Nat.mul_comm]
  · rw [hhighlights]
    cases hcoding : r.pipeline.artifacts.get? .coding with
    | none =>
      left
      simp [Highlights.ofArtifacts, ArtifactSet.coding?, hcoding]
    | some a =>
      obtain ⟨code, rfl⟩ := Artifact.exists_coding (hregular.stage_of_get? hcoding)
      right
      exact ⟨code, rfl, by simp [Highlights.ofArtifacts, ArtifactSet.coding?, hcoding,
        Artifact.asCoding?]⟩
  · rw [hhighlights]
    cases htesting : r.pipeline.artifacts.get? .testing with
    | none =>
      left
      simp [Highlights.ofArtifacts, ArtifactSet.testing?, htesting]
    | some a =>
      obtain ⟨tests, rfl⟩ := Artifact.exists_testing (hregular.stage_of_get? htesting)
      right
      exact ⟨tests, rfl, by simp [Highlights.ofArtifacts, ArtifactSet.testing?, htesting,
        Artifact.asTesting?]⟩

/-- One stage is completed and the next one fails: two lines, one of them about a success, and
nothing stands out. -/
theorem report_of_failedRun :
    (initial.run .initial (failedRun (.ofNat 1) ⟨.zero, ⟨0, 0⟩⟩)).Reached .initial
        (Created (.ofNat 1)) ∧
      ∃ p, (initial.run .initial (failedRun (.ofNat 1) ⟨.zero, ⟨0, 0⟩⟩)).store.pipeline?
          (.ofNat 1) = some p ∧
        (Report.ofPipeline p).artifacts = p.artifacts ∧
        (Report.ofPipeline p).stages.map (fun line => (line.stage, line.success)) =
          [(.requirements, true), (.design, false)] ∧
        (Report.ofPipeline p).progress = 20 := by
  have hreached : (initial.run .initial (failedRun (.ofNat 1) ⟨.zero, ⟨0, 0⟩⟩)).Reached .initial
      (Created (.ofNat 1)) := ⟨_, along_failedRun, rfl⟩
  obtain ⟨hartifacts, -, hprogress, -⟩ := report_of_created hreached rfl
  exact ⟨hreached, _, rfl, hartifacts, rfl, hprogress.symm⟩

end Fleet

end StagedPipeline
