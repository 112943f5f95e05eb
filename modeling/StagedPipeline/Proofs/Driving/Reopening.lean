import StagedPipeline.Proofs.Driving.Execution
import StagedPipeline.Proofs.Driving.Recovery

/-!
# Running a pipeline from outside

A pipeline from outside may tell anything about its status, its stages and its results. A restore
keeps the completed stages that a successful result stands behind, and no others, and a run that
follows works on the stages that are missing then (`Fleet.restore_keeps_backed`). The stages that
the restore takes back are among them (`Fleet.run_again_of_restored`), unless the pipeline has
failed: a restore does not revive it.
-/

namespace StagedPipeline

namespace Fleet

variable {engine : EngineConfig} {s : Fleet} {es : List Event} {p : Pipeline}
  {config : PipelineConfig} {now : Moment} {stage : Stage}

/-! ### What is kept -/

/-- **What a restore keeps.** Whatever a pipeline tells, its restore stores it without a driver and
returns it as stored: with the completed stages that a successful result stands behind, paused if it
was running, and otherwise as it was. A second restore changes nothing. If it can be run and is left
alone then, requests are sent for the missing stages only, in execution order, and each stage that
is attempted to its end leaves one result behind the old ones; if none of them is a failure, the
pipeline is completed with all of its stages. -/
theorem restore_keeps_backed (engine : EngineConfig) (s : Fleet) (p : Pipeline)
    (config : PipelineConfig) (now : Moment) :
    ∃ q, (Engine.restore p config now s.store).value = q ∧
      (s.restored engine p config now).store.get? p.id = some ⟨q, config, false⟩ ∧
      (∀ stage, stage ∈ q.completed ↔
        stage ∈ p.completed ∧ ∃ x ∈ p.results, x.success = true ∧ x.stage = stage) ∧
      q.status = (if p.status = .running then .paused else p.status) ∧
      (q.id = p.id ∧ q.current = p.current ∧ q.results = p.results ∧ q.artifacts = p.artifacts ∧
        q.createdAt = p.createdAt) ∧
      (∀ config' later store, (Engine.restore q config' later store).value = q) ∧
      (q.status = .pending ∨ q.status = .paused → ∀ (b : Behaviour) (later : Moment),
        ∃ k, ∀ nows : List Moment, k ≤ nows.length → ∃ r result new,
          ((s.restored engine p config now).run engine
            ((s.restored engine p config now).execution engine b p.id later nows)).store.get? p.id =
              some r ∧
          ((s.restored engine p config now).run engine
            ((s.restored engine p config now).execution engine b p.id later nows)).calls[
              s.calls.length]? = some ⟨p.id, .returned result⟩ ∧
          r.pipeline.results = p.results ++ new ∧
          new.map (·.stage) <+: q.missing ∧
          new.map (·.timeless) = b.results config q.missing ∧
          (requestsFor p.id ((s.restored engine p config now).emitted engine
            ((s.restored engine p config now).execution engine b p.id later nows))).map Prod.fst =
              new.flatMap (fun x => List.replicate (x.retryCount.toNat + 1) x.stage) ∧
          ((∀ x ∈ new, x.success = true) → new.map (·.stage) = q.missing ∧
            result = .ok r.pipeline ∧ r.pipeline.status = .completed ∧
            r.pipeline.nextPending = none)) := by
  obtain ⟨t, hadopt⟩ := PipelineRecord.adopt_eq p config now.instant
  have hget := get?_restored engine s config now (rfl : p.id = p.id)
  refine ⟨(PipelineRecord.adopt p config now.instant).pipeline, rfl, ?_, fun stage => ?_, ?_, ?_,
    ?_, fun hopen b later => ⟨(Point.walking Stage.all).rank, fun nows hlong => ?_⟩⟩
  · rw [hget, hadopt]
  · rw [PipelineRecord.mem_completed_adopt, Pipeline.isBacked_iff]
  · rw [hadopt]
  · rw [hadopt]
    exact ⟨rfl, rfl, rfl, rfl, rfl⟩
  · intro config' later store
    have hagain := congrArg PipelineRecord.pipeline
      (PipelineRecord.adopt_adopt p config now.instant config' later.instant)
    exact hagain
  · have hentry : PipelineRecord.entryError? .execute p.id
        (PipelineRecord.adopt p config now.instant).pipeline.status = none := by
      rcases hopen with hstatus | hstatus <;> rw [hstatus] <;> rfl
    obtain ⟨r, result, done, last, hget', hcall, hworked⟩ :=
      exists_end_of_execution engine b later hget hentry rfl hlong
    have hconfig : (PipelineRecord.adopt p config now.instant).config = config := rfl
    have hresults := PipelineRecord.results_adopt p config now.instant
    refine ⟨r, result, done ++ last.toList, hget', hcall, ?_, hworked.continues.stages_prefix,
      hworked.map_timeless, hworked.map_fst_log, fun hsuccess => ?_⟩
    · rw [← hresults]
      exact hworked.continues.results
    · obtain ⟨rfl, hresult, hstatus, hmissing⟩ := hworked.of_success hsuccess
      refine ⟨?_, hresult, hstatus, Pipeline.nextPending_eq_none_iff.mpr hmissing⟩
      rw [← hworked.continues.missing, hmissing, Option.toList_none]
      simp

theorem success_emptyRecords (config : PipelineConfig) (stage : Stage) :
    (emptyRecords.result config stage).success = true := by
  rw [Behaviour.result, Behaviour.resultFrom_of_text rfl]

/-- A paused pipeline that names a stage twice and another one without a result. -/
def doubtful : Pipeline :=
  { Pipeline.pending (.ofNat 1) ⟨0, 0⟩ with
    status := .paused
    completed := [.requirements, .design, .requirements]
    results := [emptyRecords.result singleAttempt .requirements] }

/-- The one stage is kept, and the others are run. -/
theorem restore_of_doubtful :
    ∃ q, (Engine.restore doubtful singleAttempt ⟨.zero, ⟨0, 0⟩⟩ .empty).value = q ∧
      q.status = .paused ∧ q.missing = [.design, .coding, .testing, .deployment] ∧
      ∃ k, ∀ nows : List Moment, k ≤ nows.length → ∃ r new,
        ((initial.restored .initial doubtful singleAttempt ⟨.zero, ⟨0, 0⟩⟩).run .initial
          ((initial.restored .initial doubtful singleAttempt ⟨.zero, ⟨0, 0⟩⟩).execution .initial
            emptyRecords (.ofNat 1) ⟨.zero, ⟨0, 0⟩⟩ nows)).store.get? (.ofNat 1) = some r ∧
        r.pipeline.status = .completed ∧ r.pipeline.results = doubtful.results ++ new ∧
        new.map (·.stage) = [.design, .coding, .testing, .deployment] := by
  obtain ⟨q, hq, -, hkept, hstatus, -, -, hrun⟩ := restore_keeps_backed .initial initial doubtful
    singleAttempt ⟨.zero, ⟨0, 0⟩⟩
  have hcompleted : ∀ stage, q.hasCompleted stage = decide (stage = .requirements) := by
    intro stage
    rw [Bool.eq_iff_iff, Pipeline.hasCompleted_iff, hkept]
    cases stage <;> simp [doubtful, Behaviour.stage_result, success_emptyRecords]
  have hmissing : q.missing = [.design, .coding, .testing, .deployment] := by
    simp only [Pipeline.missing, hcompleted]
    rfl
  obtain ⟨k, hend⟩ := hrun (.inr hstatus) emptyRecords ⟨.zero, ⟨0, 0⟩⟩
  refine ⟨q, hq, hstatus, hmissing, k, fun nows hlong => ?_⟩
  obtain ⟨r, result, new, hget, -, hresults, -, htimeless, -, hsuccess⟩ := hend nows hlong
  have hall := emptyRecords.results_append [] fun stage (_ : stage ∈ q.missing) =>
    success_emptyRecords singleAttempt stage
  rw [List.append_nil] at hall
  obtain ⟨hstages, -, hfinal, -⟩ := hsuccess fun x hx => by
    have hmem : x.timeless ∈ new.map (·.timeless) := List.mem_map_of_mem hx
    rw [htimeless, hall, Behaviour.results, List.append_nil] at hmem
    obtain ⟨stage, -, hstage⟩ := List.mem_map.mp hmem
    exact (congrArg StageResult.success hstage).symm.trans (success_emptyRecords _ stage)
  exact ⟨r, new, hget, hfinal, hresults, hstages.trans hmissing⟩

/-! ### What is run again -/

/-- An execution of the pipeline runs the stage: under some executor a request for it comes out. -/
def RunsAgain (engine : EngineConfig) (s : Fleet) (id : PipelineId) (stage : Stage) : Prop :=
  ∃ (b : Behaviour) (now : Moment) (nows : List Moment),
    stage ∈ (requestsFor id (s.emitted engine (s.execution engine b id now nows))).map Prod.fst

/-- A pipeline that has not come to its end can be run, and every stage that is missing with it. -/
theorem runsAgain_of_missing (engine : EngineConfig) (s : Fleet) (config : PipelineConfig)
    (now : Moment) (hopen : p.status.isTerminal = false)
    (hmissing : stage ∉ (PipelineRecord.adopt p config now.instant).pipeline.completed) :
    RunsAgain engine (s.restored engine p config now) p.id stage := by
  have hget := get?_restored engine s config now (rfl : p.id = p.id)
  have hentry := PipelineRecord.entryError?_adopt p.id p config now.instant hopen
  obtain ⟨nows, hlong⟩ : ∃ nows : List Moment, (Point.walking Stage.all).rank ≤ nows.length :=
    ⟨List.replicate _ now, Nat.le_of_eq List.length_replicate.symm⟩
  obtain ⟨r, result, done, last, -, -, hworked⟩ :=
    exists_end_of_execution engine emptyRecords now hget hentry rfl hlong
  -- an executor that always succeeds leaves no stage missing, so it was asked for each of them
  refine ⟨emptyRecords, now, nows, ?_⟩
  have hsuccess : ∀ x ∈ done ++ last.toList, x.success = true := by
    intro x hx
    exact (congrArg StageResult.success (hworked.results x hx)).trans (success_emptyRecords _ _)
  obtain ⟨rfl, -, -, hnone⟩ := hworked.of_success hsuccess
  have hstages := hworked.continues.missing
  rw [hnone, List.append_nil] at hstages
  obtain ⟨x, hx, rfl⟩ := List.mem_map.mp (hstages ▸ Pipeline.mem_missing.mpr hmissing)
  rw [hworked.map_fst_log, Option.toList_none, List.append_nil, List.mem_flatMap]
  exact ⟨x, hx, List.mem_replicate.mpr ⟨Nat.succ_ne_zero _, rfl⟩⟩

/-- **What can be run again.** If a pipeline calls itself completed only with all of its stages, so
it does when it is restored. A stage that the restore takes back is run again by an execution,
unless the pipeline has failed: then it stays failed, and no further call comes to drive it. -/
theorem run_again_of_restored (engine : EngineConfig) (s : Fleet) (config : PipelineConfig)
    (now : Moment) (hwhole : p.status = .completed → p.Whole) :
    ∃ q, (Engine.restore p config now s.store).value = q ∧
      (s.restored engine p config now).store.get? p.id = some ⟨q, config, false⟩ ∧
      (q.status = .completed → q.Whole) ∧
      ∀ stage ∈ p.completed, stage ∉ q.completed →
        (p.status ≠ .failed → (q.status = .pending ∨ q.status = .paused) ∧
          RunsAgain engine (s.restored engine p config now) p.id stage) ∧
        (p.status = .failed → q.status = .failed ∧
          ∀ es, (s.restored engine p config now).Along engine (Created p.id) es →
            ∀ n, ((s.restored engine p config now).run engine es).Drives p.id n →
              s.Drives p.id n) := by
  have hstatus := PipelineRecord.status_adopt p config now.instant
  have hwhole' := PipelineRecord.whole_adopt_iff p config now.instant
  refine ⟨(PipelineRecord.adopt p config now.instant).pipeline, rfl,
    get?_restored engine s config now rfl, fun hcompleted => ?_, fun stage hstage hdropped =>
    ⟨fun hfailed => ?_, fun hfailed => ⟨?_, fun es hes n hn => ?_⟩⟩⟩
  · refine hwhole'.mpr (hwhole ?_)
    rw [hstatus] at hcompleted
    split at hcompleted
    · contradiction
    · exact hcompleted
  · have hopen : p.status.isTerminal = false := by
      cases hp : p.status with
      | completed =>
        have hkept := (PipelineRecord.mem_completed_adopt p config now.instant).mpr
          (hwhole hp stage)
        contradiction
      | failed => exact absurd hp hfailed
      | _ => rfl
    refine ⟨?_, runsAgain_of_missing engine s config now hopen hdropped⟩
    exact PipelineRecord.pending_or_paused
      (PipelineRecord.entryError?_adopt p.id p config now.instant hopen)
  · rw [hstatus, hfailed, if_neg (by decide)]
  · have hterminal : p.status.isTerminal = true := by rw [hfailed]; rfl
    have hclosed := closed_restored engine s config now rfl hterminal
    exact (closed_of_along hes hclosed).live n (drives_iff.mp hn)

/-- The stage without a result is run again. -/
theorem run_again_of_doubtful :
    (doubtful.status = .completed → doubtful.Whole) ∧ .design ∈ doubtful.completed ∧
      ∃ q, (Engine.restore doubtful singleAttempt ⟨.zero, ⟨0, 0⟩⟩ .empty).value = q ∧
        .design ∉ q.completed ∧ q.status = .paused ∧
        RunsAgain .initial (initial.restored .initial doubtful singleAttempt ⟨.zero, ⟨0, 0⟩⟩)
          (.ofNat 1) .design := by
  have hwhole : doubtful.status = .completed → doubtful.Whole := nofun
  obtain ⟨q, hq, -, -, hdropped⟩ :=
    run_again_of_restored .initial initial singleAttempt ⟨.zero, ⟨0, 0⟩⟩ hwhole
  subst hq
  have hdesign : Stage.design ∉ (Engine.restore doubtful singleAttempt ⟨.zero, ⟨0, 0⟩⟩
      Store.empty).value.completed := by
    decide
  obtain ⟨-, hruns⟩ := (hdropped .design (by decide) hdesign).1 nofun
  exact ⟨hwhole, by decide, _, rfl, hdesign, rfl, hruns⟩

/-- A failed pipeline that names a stage without a result. -/
def unfounded : Pipeline :=
  { Pipeline.pending (.ofNat 1) ⟨0, 0⟩ with status := .failed, completed := [.requirements] }

/-- The stage is taken back, but whoever asks to run the pipeline or to resume it is refused. -/
theorem refused_of_unfounded :
    .requirements ∈ unfounded.completed ∧
      ∃ q, (Engine.restore unfounded singleAttempt ⟨.zero, ⟨0, 0⟩⟩ .empty).value = q ∧
        .requirements ∉ q.completed ∧ q.status = .failed ∧
        (((initial.restored .initial unfounded singleAttempt ⟨.zero, ⟨0, 0⟩⟩).react .initial
          ⟨.drive .execute (.ofNat 1), ⟨.zero, ⟨0, 0⟩⟩⟩).2 =
            [.answered (.ofNat 1) (.error (.terminal (.ofNat 1) .failed))]) ∧
        (((initial.restored .initial unfounded singleAttempt ⟨.zero, ⟨0, 0⟩⟩).react .initial
          ⟨.drive .resume (.ofNat 1), ⟨.zero, ⟨0, 0⟩⟩⟩).2 =
            [.answered (.ofNat 1) (.error (.notPaused (.ofNat 1)))]) :=
  ⟨by decide, _, rfl, by decide, rfl, rfl, rfl⟩

end Fleet

end StagedPipeline
