import StagedPipeline.Proofs.Driving.Outcome

/-!
# Requests of a pipeline

The results of a pipeline tell which requests have been sent for it: as many for each stage as there
were attempts, with what the stages before it left behind. `PipelineRecord.sent` are these requests,
`Point.sent` those of the stage that a driving call is working on, and `Moves.sent_eq` says that
each move of the call accounts for what comes out of it.
-/

namespace StagedPipeline

/-- The request that comes out of an engine for a pipeline, and its stage. -/
def Output.requestFor? (id : PipelineId) : Output → Option (Stage × CompletionRequest)
  | request _ other stage sent => if other = id then some (stage, sent) else none
  | _ => none

/-- The requests that come out of an engine for a pipeline. -/
def requestsFor (id : PipelineId) (outs : List Output) : List (Stage × CompletionRequest) :=
  outs.filterMap (·.requestFor? id)

@[simp] theorem requestsFor_nil (id : PipelineId) : requestsFor id [] = [] := rfl

theorem requestsFor_append (id : PipelineId) (outs outs' : List Output) :
    requestsFor id (outs ++ outs') = requestsFor id outs ++ requestsFor id outs' :=
  List.filterMap_append

/-- What comes out for other pipelines is not a request for this one. -/
theorem requestsFor_eq_nil {id : PipelineId} {outs : List Output}
    (h : ∀ o ∈ outs, o.driven? ≠ some id) : requestsFor id outs = [] := by
  rw [requestsFor, List.filterMap_eq_nil_iff]
  intro o ho
  have hne := h o ho
  cases o with
  | request n other stage sent =>
    rw [Output.requestFor?, if_neg fun hid => hne (congrArg some hid)]
  | _ => rfl

/-- The requests behind some results, of which the first stage finds some artifacts. -/
def sentFor (engine : EngineConfig) (config : PipelineConfig) :
    ArtifactSet → List StageResult → List (Stage × CompletionRequest)
  | _, [] => []
  | artifacts, x :: xs =>
    List.replicate (x.retryCount.toNat + 1)
        (x.stage, CompletionRequest.ofStage x.stage config artifacts engine.completion) ++
      sentFor engine config (artifacts.takeOver x) xs

theorem sentFor_append (engine : EngineConfig) (config : PipelineConfig) (artifacts : ArtifactSet)
    (xs ys : List StageResult) :
    sentFor engine config artifacts (xs ++ ys) =
      sentFor engine config artifacts xs ++
        sentFor engine config (xs.foldl .takeOver artifacts) ys := by
  induction xs generalizing artifacts with
  | nil => rfl
  | cons x xs ih =>
    rw [List.cons_append, sentFor, sentFor, ih, List.foldl_cons, List.append_assoc]

/-- The stages of the requests behind some results. -/
theorem map_fst_sentFor (engine : EngineConfig) (config : PipelineConfig)
    (artifacts : ArtifactSet) (xs : List StageResult) :
    (sentFor engine config artifacts xs).map Prod.fst =
      xs.flatMap fun x => List.replicate (x.retryCount.toNat + 1) x.stage := by
  induction xs generalizing artifacts with
  | nil => rfl
  | cons x xs ih =>
    rw [sentFor, List.map_append, ih, List.map_replicate, List.flatMap_cons]

/-- The time that a stage takes does not show in the requests. -/
theorem sentFor_map_timeless (engine : EngineConfig) (config : PipelineConfig)
    (artifacts : ArtifactSet) (xs : List StageResult) :
    sentFor engine config artifacts (xs.map (·.timeless)) = sentFor engine config artifacts xs := by
  induction xs generalizing artifacts with
  | nil => rfl
  | cons x xs ih =>
    rw [List.map_cons, sentFor, sentFor, ih]
    rfl

namespace PipelineRecord

/-- The request for a stage with what the record holds now. -/
def request (engine : EngineConfig) (r : PipelineRecord) (stage : Stage) : CompletionRequest :=
  .ofStage stage r.config r.pipeline.artifacts engine.completion

/-- The requests behind the results of a pipeline. -/
def sent (engine : EngineConfig) (r : PipelineRecord) : List (Stage × CompletionRequest) :=
  sentFor engine r.config .empty r.pipeline.results

/-- A result that is added stands for its attempts. -/
theorem sentFor_append_singleton (engine : EngineConfig) {r : PipelineRecord} (x : StageResult)
    (h : r.pipeline.artifacts = .gather r.pipeline.results) :
    sentFor engine r.config .empty (r.pipeline.results ++ [x]) =
      r.sent engine ++
        List.replicate (x.retryCount.toNat + 1) (x.stage, r.request engine x.stage) := by
  rw [sentFor_append, sentFor, sentFor, List.append_nil, request, h]
  rfl

end PipelineRecord

/-- The requests of the stage that a driving call is working on. -/
def Point.sent (engine : EngineConfig) (r : PipelineRecord) :
    Point → List (Stage × CompletionRequest)
  | waiting trial _ =>
    List.replicate (trial.count.toNat + 1)
      (trial.attempt.stage, r.request engine trial.attempt.stage)
  | settling x => List.replicate (x.retryCount.toNat + 1) (x.stage, r.request engine x.stage)
  | _ => []

section Moves

variable {engine : EngineConfig} {id : PipelineId} {n : Nat} {r r' : PipelineRecord} {p p' : Point}
  {move : Move}

/-- An attempt with what the record holds sends the request of the record. -/
theorem Attempt.request_eq {a : Attempt} (hconfig : a.config = r.config)
    (hartifacts : a.artifacts = r.pipeline.artifacts) :
    a.request engine.completion = r.request engine a.stage := by
  rw [Attempt.request, PipelineRecord.request, hconfig, hartifacts]

/-- A trial that goes on sends one request more with every further attempt. -/
theorem Trial.Step.sent_eq {trial : Trial} {wait : Wait} {now : Duration} {signal : Signal}
    {progress : Trial.Progress} (hstep : trial.Step (.ofEngine engine) now signal progress)
    (ht : trial.WithinBudget)
    (hrequest : trial.attempt.request engine.completion = r.request engine trial.attempt.stage) :
    (Point.waiting trial wait).sent engine r ++
        requestsFor id ((Point.ofTrial progress).outputs n id) =
      (Point.ofTrial progress).sent engine r := by
  cases hstep with
  | succeed hresting => exact List.append_nil _
  | exhaust hresting hfailure hspent => exact List.append_nil _
  | rest hresting hfailure hleft => exact List.append_nil _
  | again hresting =>
    have hcount := toNat_count_succ (ht.resting hresting)
    simp only [Point.ofTrial, Point.outputs, Point.sent, requestsFor, Output.requestFor?,
      List.filterMap_cons, List.filterMap_nil, if_true, TrialSettings.completion_ofEngine,
      hrequest, hcount]
    exact List.replicate_succ'.symm

/-- What comes out in a move is added to what has been sent. -/
theorem Moves.sent_eq (hmoves : Moves engine id r p move r' p') (hdriven : r.Driven p)
    (hfailed : r.pipeline.status ≠ .failed)
    (hartifacts : r.pipeline.artifacts = .gather r.pipeline.results) (hkept : p' ≠ .dropped) :
    r.sent engine ++ p.sent engine r ++ requestsFor id (p'.outputs n id) =
      r'.sent engine ++ p'.sent engine r' := by
  have hpoint := hdriven.point hfailed
  cases hmoves with
  | halt hpaused => exact List.append_nil _
  | stop hstatus => contradiction
  | skip hpaused hstatus hdone => exact List.append_nil _
  | begin now hpaused hstatus hopen =>
    simp only [Point.outputs, requestsFor, Output.requestFor?, List.filterMap_cons,
      List.filterMap_nil, if_true]
    rw [show Point.sent engine r (.walking _) = [] from rfl, List.append_nil]
    rfl
  | complete now hstatus => exact List.append_nil _
  | hear hresume =>
    rw [List.append_assoc, (Trial.Step.of_resume hresume).sent_eq hpoint.budget
      (Attempt.request_eq hpoint.config hpoint.artifacts)]
  | discard hstatus => contradiction
  | record now hstatus hsuccess =>
    simp only [Point.outputs, requestsFor_nil, PipelineRecord.sent, Pipeline.results_addResult]
    rw [PipelineRecord.sentFor_append_singleton engine _ hartifacts]
    rfl
  | fail now hstatus hsuccess =>
    simp only [PipelineRecord.sent, Pipeline.setStatus, Pipeline.results_addResult]
    rw [PipelineRecord.sentFor_append_singleton engine _ hartifacts]
    rfl
  | drop now => contradiction

end Moves

end StagedPipeline
