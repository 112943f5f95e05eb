import StagedPipeline.Engine.Record
import StagedPipeline.Proofs.Driving.Trial

/-!
# Regular records

A record is regular if the completed stages are the first ones, the results are theirs and at most
one more, of the stage that failed, and the artifacts are those of the results. A new pipeline is
regular, and every transition that is made where it belongs preserves it.
-/

namespace StagedPipeline

/-- What the record of a pipeline looks like. -/
structure PipelineRecord.Regular (r : PipelineRecord) : Prop where
  /-- The completed stages are the first ones. -/
  completed : r.pipeline.completed = Stage.all.take r.pipeline.completed.length
  /-- Each of them has its result, in the same order. At most one result more is there, of the stage
  behind them; it has ended the pipeline. -/
  results : ∃ (done : List StageResult) (last : Option StageResult),
    r.pipeline.results = done ++ last.toList ∧
    done.map (·.stage) = r.pipeline.completed ∧
    (∀ x ∈ done, x.Succeeded r.config.retryBudget) ∧
    ∀ x ∈ last, x.Exhausted r.config.retryBudget ∧
      x.stage.index = r.pipeline.completed.length ∧ r.pipeline.current = some x.stage ∧
      r.pipeline.status = .failed ∧ r.driven = false
  /-- The artifacts are those of the results. -/
  artifacts : ∀ stage a, r.pipeline.artifacts.get? stage = some a ↔
    ∃ x ∈ r.pipeline.results, x.success = true ∧ x.stage = stage ∧ x.artifact = some a
  /-- A pipeline that waits for its start is empty. -/
  pending : r.pipeline.status = .pending →
    r.pipeline.completed = [] ∧ r.pipeline.results = [] ∧ r.pipeline.current = none
  /-- A completed one has completed all stages. -/
  finished : r.pipeline.status = .completed →
    r.pipeline.completed = Stage.all ∧ r.pipeline.current = none
  /-- The stage that is worked on is the last completed one, or the one behind it. -/
  current : ∀ stage, r.pipeline.current = some stage →
    stage.index ≤ r.pipeline.completed.length ∧ r.pipeline.completed.length ≤ stage.index + 1
  /-- No stage is worked on before the first one or behind the last one. -/
  idle : r.pipeline.current = none →
    r.pipeline.completed = [] ∨ r.pipeline.completed = Stage.all

namespace PipelineRecord

variable {r : PipelineRecord} {stage : Stage} {result : StageResult}

theorem regular_pending (id : PipelineId) (config : PipelineConfig) (now : Instant) :
    (ofPipeline (.pending id now) config).Regular where
  completed := rfl
  results := ⟨[], none, rfl, rfl, by simp, by simp⟩
  artifacts := by simp [ofPipeline, Pipeline.pending]
  pending := by simp [ofPipeline, Pipeline.pending]
  finished := by simp [ofPipeline, Pipeline.pending]
  current := by simp [ofPipeline, Pipeline.pending]
  idle := by simp [ofPipeline, Pipeline.pending]

namespace Regular

/-- A stage is completed if it stands in front of the next one. -/
theorem hasCompleted_iff (h : r.Regular) (stage : Stage) :
    r.pipeline.hasCompleted stage = true ↔ stage.index < r.pipeline.completed.length := by
  unfold Pipeline.hasCompleted
  rw [List.contains_iff_mem, h.completed, Stage.mem_take_iff, ← h.completed]

theorem hasCompleted_eq_false (h : r.Regular) (hstage : stage.index = r.pipeline.completed.length) :
    r.pipeline.hasCompleted stage = false := by
  rw [Bool.eq_false_iff, ne_eq, h.hasCompleted_iff]
  omega

theorem length_completed_le (h : r.Regular) : r.pipeline.completed.length ≤ Stage.count := by
  have hlen := congrArg List.length h.completed
  rw [List.length_take] at hlen
  exact Nat.le_trans (Nat.le_of_eq hlen) (Nat.min_le_right _ _)

/-- All stages are completed if as many are as there are. -/
theorem completed_eq_all (h : r.Regular) (hlen : Stage.count ≤ r.pipeline.completed.length) :
    r.pipeline.completed = Stage.all := by
  rw [h.completed, List.take_of_length_le hlen]

/-- As long as the pipeline has not failed, the results are those of the completed stages. -/
theorem results_of_ne_failed (h : r.Regular) (hfailed : r.pipeline.status ≠ .failed) :
    r.pipeline.results.map (·.stage) = r.pipeline.completed ∧
      ∀ x ∈ r.pipeline.results, x.Succeeded r.config.retryBudget := by
  obtain ⟨done, last, hresults, hdone, hsucceeded, hlast⟩ := h.results
  cases last with
  | some x => exact absurd (hlast x rfl).2.2.2.1 hfailed
  | none =>
    rw [hresults, Option.toList_none, List.append_nil]
    exact ⟨hdone, hsucceeded⟩

/-- There is no artifact yet of the stage behind the completed ones. -/
theorem get?_artifacts_eq_none (h : r.Regular) (hfailed : r.pipeline.status ≠ .failed)
    (hstage : stage.index = r.pipeline.completed.length) :
    r.pipeline.artifacts.get? stage = none := by
  rw [Option.eq_none_iff_forall_ne_some]
  intro a ha
  obtain ⟨x, hx, -, hxstage, -⟩ := (h.artifacts stage a).mp ha
  have hmem : stage ∈ r.pipeline.completed := by
    rw [← (h.results_of_ne_failed hfailed).1, ← hxstage]
    exact List.mem_map_of_mem hx
  rw [h.completed, Stage.mem_take_iff] at hmem
  omega

/-! ### What the transitions preserve -/

/-- A new status, unless the pipeline was ended by a stage that failed. -/
theorem setStatus (h : r.Regular) {status : Status} {driven : Bool} (now : Instant)
    (hpending : status ≠ .pending) (hcompleted : status ≠ .completed)
    (hfailed : r.pipeline.status = .failed →
      status = .failed ∧ (r.driven = false → driven = false)) :
    Regular { r with pipeline := r.pipeline.setStatus status now, driven } where
  completed := h.completed
  results := by
    obtain ⟨done, last, hresults, hdone, hsucceeded, hlast⟩ := h.results
    refine ⟨done, last, hresults, hdone, hsucceeded, ?_⟩
    intro x hx
    obtain ⟨hexhausted, hindex, hcurrent, hstatus, hdriven⟩ := hlast x hx
    obtain ⟨hnew, hgiven⟩ := hfailed hstatus
    exact ⟨hexhausted, hindex, hcurrent, hnew, hgiven hdriven⟩
  artifacts := h.artifacts
  pending hstatus := absurd hstatus hpending
  finished hstatus := absurd hstatus hcompleted
  current := h.current
  idle := h.idle

/-- The driver is given up. -/
theorem undriven (h : r.Regular) : Regular { r with driven := false } where
  completed := h.completed
  results := by
    obtain ⟨done, last, hresults, hdone, hsucceeded, hlast⟩ := h.results
    refine ⟨done, last, hresults, hdone, hsucceeded, ?_⟩
    intro x hx
    obtain ⟨hexhausted, hindex, hcurrent, hstatus, -⟩ := hlast x hx
    exact ⟨hexhausted, hindex, hcurrent, hstatus, rfl⟩
  artifacts := h.artifacts
  pending := h.pending
  finished := h.finished
  current := h.current
  idle := h.idle

theorem release (h : r.Regular) (now : Instant) : (r.release now).1.Regular := by
  unfold PipelineRecord.release
  dsimp only
  split
  · rename_i hrunning
    exact h.setStatus now (by decide) (by decide) (by simp [hrunning])
  · exact h.undriven

/-- The stage behind the completed ones is begun. -/
theorem begin (h : r.Regular) (now : Instant) (hrunning : r.pipeline.status = .running)
    (hstage : stage.index = r.pipeline.completed.length) :
    Regular { r with pipeline := r.pipeline.setCurrent (some stage) now } where
  completed := h.completed
  results := by
    obtain ⟨hdone, hsucceeded⟩ := h.results_of_ne_failed (by simp [hrunning])
    exact ⟨r.pipeline.results, none, by simp [Pipeline.setCurrent], hdone, hsucceeded, by simp⟩
  artifacts := h.artifacts
  pending hstatus := by simp [Pipeline.setCurrent, hrunning] at hstatus
  finished hstatus := by simp [Pipeline.setCurrent, hrunning] at hstatus
  current := by
    intro s hs
    obtain rfl : stage = s := by simpa [Pipeline.setCurrent] using hs
    simp only [Pipeline.setCurrent]
    omega
  idle hcurrent := by simp [Pipeline.setCurrent] at hcurrent

/-- The pipeline is completed behind the last stage. -/
theorem complete (h : r.Regular) (now : Instant) (hfailed : r.pipeline.status ≠ .failed)
    (hlen : Stage.count ≤ r.pipeline.completed.length) :
    Regular { r with
      pipeline := (r.pipeline.setCurrent none now).setStatus .completed now
      driven := false } where
  completed := h.completed
  results := by
    obtain ⟨hdone, hsucceeded⟩ := h.results_of_ne_failed hfailed
    exact ⟨r.pipeline.results, none, by simp [Pipeline.setCurrent, Pipeline.setStatus], hdone,
      hsucceeded, by simp⟩
  artifacts := h.artifacts
  pending hstatus := by simp [Pipeline.setStatus] at hstatus
  finished _ := ⟨h.completed_eq_all hlen, rfl⟩
  current _ hcurrent := by simp [Pipeline.setCurrent, Pipeline.setStatus] at hcurrent
  idle _ := .inr (h.completed_eq_all hlen)

/-- The artifact of a result of the stage behind the completed ones is taken over. -/
theorem get?_artifacts_addResult (h : r.Regular) (now : Instant)
    (hfailed : r.pipeline.status ≠ .failed)
    (hstage : result.stage.index = r.pipeline.completed.length) {budget : UInt32}
    (hresult : result.Succeeded budget) (stage : Stage) :
    (r.pipeline.addResult result now).artifacts.get? stage =
      if stage = result.stage then result.artifact else r.pipeline.artifacts.get? stage := by
  rw [r.pipeline.artifacts_addResult_of_success result now hresult.success
    (h.hasCompleted_eq_false hstage)]
  have hnone := h.get?_artifacts_eq_none hfailed hstage
  cases hartifact : result.artifact with
  | none =>
    dsimp only
    split
    · rename_i heq
      rw [heq, hnone]
    · rfl
  | some a =>
    have ha : a.stage = result.stage :=
      Artifact.stage_of_decode? (hresult.artifact.symm.trans hartifact)
    dsimp only
    split
    · rename_i heq
      rw [heq, ← ha, ArtifactSet.get?_insert_self, ha, hnone, Option.getD_none]
    · rename_i hne
      exact ArtifactSet.get?_insert_of_ne _ (ha ▸ hne)

/-- A successful result of the stage behind the completed ones is recorded. -/
theorem addResult_of_success (h : r.Regular) (now : Instant)
    (hworked : r.pipeline.status = .running ∨ r.pipeline.status = .paused)
    (hstage : result.stage.index = r.pipeline.completed.length)
    (hcurrent : r.pipeline.current = some result.stage)
    (hresult : result.Succeeded r.config.retryBudget) :
    Regular { r with pipeline := r.pipeline.addResult result now } := by
  have hfailed : r.pipeline.status ≠ .failed := by
    rcases hworked with hworked | hworked <;> simp [hworked]
  have hcompleted := r.pipeline.completed_addResult_of_success result now hresult.success
    (h.hasCompleted_eq_false hstage)
  have hlen : (r.pipeline.addResult result now).completed.length = result.stage.index + 1 := by
    rw [hcompleted, List.length_append, List.length_singleton, hstage]
  obtain ⟨hdone, hsucceeded⟩ := h.results_of_ne_failed hfailed
  refine ⟨?_, ?_, ?_, ?_, ?_, ?_, ?_⟩
  · rw [hlen, hcompleted, h.completed, ← hstage, Stage.take_index_append]
  · refine ⟨r.pipeline.results ++ [result], none, by simp, ?_, ?_, by simp⟩
    · rw [List.map_append, hdone, hcompleted, List.map_singleton]
    · intro x hx
      rcases List.mem_append.mp hx with hx | hx
      · exact hsucceeded x hx
      · exact List.mem_singleton.mp hx ▸ hresult
  · intro stage a
    rw [h.get?_artifacts_addResult now hfailed hstage hresult, Pipeline.results_addResult]
    split
    · rename_i heq
      subst heq
      constructor
      · intro ha
        exact ⟨result, by simp, hresult.success, rfl, ha⟩
      · rintro ⟨x, hx, hsuccess, hxstage, hartifact⟩
        rcases List.mem_append.mp hx with hx | hx
        · have hnone := h.get?_artifacts_eq_none hfailed hstage
          rw [(h.artifacts _ a).mpr ⟨x, hx, hsuccess, hxstage, hartifact⟩] at hnone
          contradiction
        · exact List.mem_singleton.mp hx ▸ hartifact
    · rename_i hne
      rw [h.artifacts]
      constructor
      · rintro ⟨x, hx, hsuccess, hxstage, hartifact⟩
        exact ⟨x, List.mem_append_left _ hx, hsuccess, hxstage, hartifact⟩
      · rintro ⟨x, hx, hsuccess, hxstage, hartifact⟩
        rcases List.mem_append.mp hx with hx | hx
        · exact ⟨x, hx, hsuccess, hxstage, hartifact⟩
        · exact absurd (List.mem_singleton.mp hx ▸ hxstage).symm hne
  · intro hstatus
    rw [Pipeline.status_addResult] at hstatus
    simp [hstatus] at hworked
  · intro hstatus
    rw [Pipeline.status_addResult] at hstatus
    simp [hstatus] at hworked
  · intro stage hs
    rw [Pipeline.current_addResult, hcurrent] at hs
    obtain rfl := Option.some.inj hs
    rw [hlen]
    exact ⟨Nat.le_succ _, Nat.le_refl _⟩
  · intro hs
    rw [Pipeline.current_addResult, hcurrent] at hs
    contradiction

/-- The result of a stage behind the completed ones that failed is recorded, and ends the
pipeline. -/
theorem addResult_of_failure (h : r.Regular) (now : Instant)
    (hfailed : r.pipeline.status ≠ .failed)
    (hstage : result.stage.index = r.pipeline.completed.length)
    (hcurrent : r.pipeline.current = some result.stage)
    (hresult : result.Exhausted r.config.retryBudget) :
    Regular { r with
      pipeline := (r.pipeline.addResult result now).setStatus .failed now
      driven := false } := by
  have hcompleted := r.pipeline.completed_addResult_of_failure result now hresult.success
  have hartifacts := r.pipeline.artifacts_addResult_of_failure result now hresult.success
  obtain ⟨hdone, hsucceeded⟩ := h.results_of_ne_failed hfailed
  refine ⟨?_, ?_, ?_, ?_, ?_, ?_, ?_⟩
  · simp only [Pipeline.setStatus, hcompleted]
    exact h.completed
  · refine ⟨r.pipeline.results, some result, rfl, ?_, hsucceeded, ?_⟩
    · simp only [Pipeline.setStatus, hcompleted]
      exact hdone
    · intro x hx
      obtain rfl : result = x := by simpa using hx
      refine ⟨hresult, ?_, ?_, rfl, rfl⟩
      · simp only [Pipeline.setStatus, hcompleted]
        exact hstage
      · simp only [Pipeline.setStatus, Pipeline.current_addResult]
        exact hcurrent
  · intro stage a
    simp only [Pipeline.setStatus, hartifacts, Pipeline.results_addResult]
    rw [h.artifacts]
    constructor
    · rintro ⟨x, hx, hx'⟩
      exact ⟨x, List.mem_append_left _ hx, hx'⟩
    · rintro ⟨x, hx, hsuccess, hx'⟩
      rcases List.mem_append.mp hx with hx | hx
      · exact ⟨x, hx, hsuccess, hx'⟩
      · rw [List.mem_singleton.mp hx, hresult.success] at hsuccess
        contradiction
  · intro hstatus
    simp [Pipeline.setStatus] at hstatus
  · intro hstatus
    simp [Pipeline.setStatus] at hstatus
  · intro stage hs
    simp only [Pipeline.setStatus, Pipeline.current_addResult, hcompleted] at hs ⊢
    exact h.current stage hs
  · intro hs
    simp only [Pipeline.setStatus, Pipeline.current_addResult, hcurrent] at hs
    contradiction

end Regular

end PipelineRecord

end StagedPipeline
