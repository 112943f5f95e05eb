import StagedPipeline.Proofs.Driving.Locality

/-!
# The moves of a call

A driving call moves from point to point, and each of its moves changes the store at most once. Only
a call that observes a pause looks at the store again in the same move, for the pipeline that it
returns. `Moves` lists what a move can do to the record of the pipeline, and `Moves.of_advance` says
that these are all. What comes out in a move tells where the call has come to.
-/

namespace StagedPipeline

/-- What a call at a point can do to the record of its pipeline, and the point it comes to. -/
inductive Moves (engine : EngineConfig) (id : PipelineId) :
    PipelineRecord → Point → Move → PipelineRecord → Point → Prop
  /-- In front of a stage it observes a pause. -/
  | halt {r : PipelineRecord} {stage : Stage} {ahead : List Stage}
      (hpaused : r.pipeline.status = .paused) :
      Moves engine id r (.walking (stage :: ahead)) .proceed { r with driven := false }
        (.returned (.ok r.pipeline))
  /-- In front of a stage, or behind the last one, it observes a cancel. -/
  | stop {r : PipelineRecord} {ahead : List Stage} (hfailed : r.pipeline.status = .failed) :
      Moves engine id r (.walking ahead) .proceed { r with driven := false }
        (.returned (.error (.cancelled id)))
  | skip {r : PipelineRecord} {stage : Stage} {ahead : List Stage}
      (hpaused : r.pipeline.status ≠ .paused) (hfailed : r.pipeline.status ≠ .failed)
      (hdone : r.pipeline.hasCompleted stage = true) :
      Moves engine id r (.walking (stage :: ahead)) .proceed r (.walking ahead)
  | begin {r : PipelineRecord} {stage : Stage} {ahead : List Stage} (now : Moment)
      (hpaused : r.pipeline.status ≠ .paused) (hfailed : r.pipeline.status ≠ .failed)
      (hopen : r.pipeline.hasCompleted stage = false) :
      Moves engine id r (.walking (stage :: ahead)) .proceed
        { r with pipeline := r.pipeline.setCurrent (some stage) now.instant }
        (.waiting ⟨⟨stage, r.config, r.pipeline.artifacts⟩, now.elapsed, 0, false⟩
          (.answer
            (CompletionRequest.ofStage stage r.config r.pipeline.artifacts engine.completion)
            r.config.stageTimeout))
  | complete {r : PipelineRecord} (now : Moment) (hfailed : r.pipeline.status ≠ .failed) :
      Moves engine id r (.walking []) .proceed
        { r with
          pipeline := (r.pipeline.setCurrent none now.instant).setStatus .completed now.instant
          driven := false }
        (.returned
          (.ok ((r.pipeline.setCurrent none now.instant).setStatus .completed now.instant)))
  /-- The trial goes on or comes to its end; the record is not looked at. -/
  | hear {r : PipelineRecord} {trial : Trial} {wait : Wait} {signal : Signal} {now : Moment}
      {progress : Trial.Progress} {notices : List Notice}
      (hresume : trial.resume (.ofEngine engine) signal now.elapsed = some (progress, notices)) :
      Moves engine id r (.waiting trial wait) (.hear signal) r (.ofTrial progress)
  /-- After a cancel the result is thrown away. -/
  | discard {r : PipelineRecord} {result : StageResult} (hfailed : r.pipeline.status = .failed) :
      Moves engine id r (.settling result) .proceed { r with driven := false }
        (.returned (.error (.cancelled id)))
  | record {r : PipelineRecord} {result : StageResult} (now : Moment)
      (hfailed : r.pipeline.status ≠ .failed) (hsuccess : result.success = true) :
      Moves engine id r (.settling result) .proceed
        { r with pipeline := r.pipeline.addResult result now.instant }
        (.walking result.stage.after)
  | fail {r : PipelineRecord} {result : StageResult} (now : Moment)
      (hfailed : r.pipeline.status ≠ .failed) (hsuccess : result.success = false) :
      Moves engine id r (.settling result) .proceed
        { r with
          pipeline := (r.pipeline.addResult result now.instant).setStatus .failed now.instant
          driven := false }
        (.returned
          (.error (.stageFailed result.stage result.retryCount (result.error.getD ""))))
  | drop {r : PipelineRecord} {trial : Trial} {wait : Wait} (now : Moment) :
      Moves engine id r (.waiting trial wait) .drop (r.release now.instant).1 .dropped

theorem Moves.config_eq {engine : EngineConfig} {id : PipelineId} {r r' : PipelineRecord}
    {p p' : Point} {move : Move} (h : Moves engine id r p move r' p') : r'.config = r.config := by
  cases h <;> rfl

/-- No call brings a pipeline back that has come to its end. -/
theorem Moves.isTerminal {engine : EngineConfig} {id : PipelineId} {r r' : PipelineRecord}
    {p p' : Point} {move : Move} (hmoves : Moves engine id r p move r' p')
    (h : r.pipeline.status.isTerminal = true) : r'.pipeline.status.isTerminal = true := by
  cases hmoves with
  | complete now hfailed => rfl
  | fail now hfailed hsuccess => rfl
  | record now hfailed hsuccess =>
    rw [Pipeline.status_addResult]
    exact h
  | drop now =>
    unfold PipelineRecord.release
    dsimp only
    split
    · rename_i hrunning
      simp [hrunning, Status.isTerminal] at h
    · exact h
  | _ => exact h

/-! ### What comes out -/

/-- The pipeline of the driving call that an output comes from, if it comes from one. -/
def Output.driven? : Output → Option PipelineId
  | request _ id _ _ => some id
  | returned _ id _ => some id
  | _ => none

/-- A request comes out when a call comes to wait for it. -/
theorem Point.exists_waiting_of_mem_outputs {m n : Nat} {id other : PipelineId} {stage : Stage}
    {sent : CompletionRequest} {p : Point} (h : .request m other stage sent ∈ p.outputs n id) :
    m = n ∧ ∃ trial wait, p = .waiting trial wait ∧ trial.attempt.stage = stage := by
  unfold Point.outputs at h
  split at h
  · rename_i trial request limit
    obtain ⟨rfl, -, hstage, -⟩ := Output.request.inj (List.mem_singleton.mp h)
    exact ⟨rfl, trial, _, rfl, hstage.symm⟩
  · cases List.mem_singleton.mp h
  · contradiction

/-- The pipeline is the one that the output is about. -/
theorem Output.subject_of_driven? {o : Output} {id : PipelineId} (h : o.driven? = some id) :
    o.subject = id := by
  cases o with
  | request n other stage sent => exact Option.some.inj h
  | returned n other result => exact Option.some.inj h
  | _ => contradiction

/-! ### Every move is one of these -/

section Advance

variable {engine : EngineConfig} {id : PipelineId} {now : Moment} {store store' : Store}
  {r : PipelineRecord} {p p' : Point} {move : Move}

theorem Moves.of_finish (hget : store.get? id = some r) :
    ∃ r', Moves engine id r (.walking []) .proceed r'
        (.ofProgress (Drive.finish id now store).value) ∧
      (Drive.finish id now store).store.get? id = some r' := by
  have hset := Store.get?_update_self (·.finish id now.instant) hget
  unfold Drive.finish
  rw [Store.update_of_get?_eq_some _ hget] at hset ⊢
  by_cases hfailed : r.pipeline.status = .failed
  · rw [PipelineRecord.finish_of_failed _ hfailed] at hset ⊢
    exact ⟨_, .stop hfailed, hset⟩
  · rw [PipelineRecord.finish_of_ne_failed _ hfailed] at hset ⊢
    exact ⟨_, .complete now hfailed, hset⟩

theorem Moves.of_visit {stage : Stage} {ahead : List Stage} (hget : store.get? id = some r) :
    ∃ r', Moves engine id r (.walking (stage :: ahead)) .proceed r'
        (((Drive.visit engine id stage now store).value.map .ofProgress).getD (.walking ahead)) ∧
      (Drive.visit engine id stage now store).store.get? id = some r' := by
  have hset := Store.get?_update_self (·.boundary id stage now.instant) hget
  unfold Drive.visit
  rw [Store.update_of_get?_eq_some _ hget] at hset ⊢
  by_cases hpaused : r.pipeline.status = .paused
  · rw [PipelineRecord.boundary_of_paused _ hpaused] at hset ⊢
    refine ⟨_, ?_, hset⟩
    simp only [Store.snapshot, Store.pipeline?, hset]
    exact .halt hpaused
  by_cases hfailed : r.pipeline.status = .failed
  · rw [PipelineRecord.boundary_of_failed _ hfailed] at hset ⊢
    exact ⟨_, .stop hfailed, hset⟩
  cases hdone : r.pipeline.hasCompleted stage with
  | true =>
    rw [PipelineRecord.boundary_of_completed _ hpaused hfailed hdone] at hset ⊢
    exact ⟨_, .skip hpaused hfailed hdone, hset⟩
  | false =>
    rw [PipelineRecord.boundary_of_open _ hpaused hfailed hdone] at hset ⊢
    exact ⟨_, .begin now hpaused hfailed hdone, hset⟩

theorem Moves.of_handIn {result : StageResult} (hget : store.get? id = some r) :
    ∃ r', Moves engine id r (.settling result) .proceed r'
        (((Drive.handIn id result now store).value.map .returned).getD
          (.walking result.stage.after)) ∧
      (Drive.handIn id result now store).store.get? id = some r' := by
  have hset := Store.get?_update_self (·.addResult id result now.instant) hget
  unfold Drive.handIn
  rw [Store.update_of_get?_eq_some _ hget] at hset ⊢
  by_cases hfailed : r.pipeline.status = .failed
  · rw [PipelineRecord.addResult_of_failed _ hfailed] at hset ⊢
    exact ⟨_, .discard hfailed, hset⟩
  cases hsuccess : result.success with
  | true =>
    rw [PipelineRecord.addResult_of_success _ hfailed hsuccess] at hset ⊢
    exact ⟨_, .record now hfailed hsuccess, hset⟩
  | false =>
    rw [PipelineRecord.addResult_of_failure _ hfailed hsuccess] at hset ⊢
    exact ⟨_, .fail now hfailed hsuccess, hset⟩

/-- Whatever a call does at its point is one of the moves. -/
theorem Moves.of_advance (hget : store.get? id = some r)
    (h : p.advance engine id move now store = some (store', p')) :
    ∃ r', Moves engine id r p move r' p' ∧ store'.get? id = some r' := by
  unfold Point.advance at h
  split at h
  · split at h
    · obtain ⟨rfl, rfl⟩ := Prod.mk.inj (Option.some.inj h)
      exact Moves.of_finish hget
    · contradiction
  · split at h
    · obtain ⟨rfl, rfl⟩ := Prod.mk.inj (Option.some.inj h)
      exact Moves.of_visit hget
    · contradiction
  · split at h
    · obtain ⟨rfl, rfl⟩ := Prod.mk.inj (Option.some.inj h)
      exact Moves.of_handIn hget
    · contradiction
  · split at h
    · obtain ⟨⟨progress, notices⟩, hresume, h⟩ := Option.map_eq_some_iff.mp h
      obtain ⟨rfl, rfl⟩ := Prod.mk.inj h
      exact ⟨r, .hear hresume, hget⟩
    · obtain ⟨rfl, rfl⟩ := Prod.mk.inj (Option.some.inj h)
      rw [Drive.store_drop]
      exact ⟨_, .drop now, Store.get?_update_self _ hget⟩
    · contradiction
  · contradiction
  · contradiction

end Advance

end StagedPipeline
