import StagedPipeline.Artifact.Set
import StagedPipeline.Pipeline.Id
import StagedPipeline.Pipeline.Status
import StagedPipeline.Time.Duration
import StagedPipeline.Time.Instant

/-!
# Pipelines

A `Pipeline` is what has become of a task so far: which stages are completed, what every stage that
was attempted to its end left behind, and the artifacts gathered on the way. All changes go through
`setStatus`, `setCurrent`, `addResult` and `reconcile`, each of which notes when it happened.
-/

namespace StagedPipeline

open Json

/-- How the attempts of a stage ended. -/
structure StageResult where
  stage : Stage
  success : Bool
  /-- The executor's last response; empty after a failure. -/
  output : String
  artifact : Option Artifact
  /-- The last error, after a failure. -/
  error : Option String
  /-- Time of all attempts and of the waits between them. -/
  duration : Duration
  /-- Attempts after the first one. -/
  retryCount : UInt32
deriving DecidableEq

/-- What has become of a task. -/
structure Pipeline where
  id : PipelineId
  status : Status
  /-- The stage that is being worked on. -/
  current : Option Stage
  completed : List Stage
  results : List StageResult
  artifacts : ArtifactSet
  createdAt : Instant
  updatedAt : Instant
deriving DecidableEq

namespace Pipeline

/-- A pipeline that waits for its start. -/
def pending (id : PipelineId) (now : Instant) : Pipeline :=
  ⟨id, .pending, none, [], [], .empty, now, now⟩

/-- Completed stages in percent, at most a hundred. -/
def progress (p : Pipeline) : Nat :=
  Nat.min 100 (p.completed.length * 100 / Stage.count)

/-- Each of five stages is a fifth. -/
theorem progress_eq {p : Pipeline} (h : p.completed.length ≤ Stage.count) :
    p.progress = 20 * p.completed.length := by
  have hcount : Stage.count = 5 := rfl
  unfold progress
  rw [hcount] at h ⊢
  rw [Nat.mul_div_assoc _ (by decide), Nat.mul_comm]
  exact Nat.min_eq_right (by omega)

/-- Whether a stage is completed. -/
def hasCompleted (p : Pipeline) (stage : Stage) : Bool :=
  p.completed.contains stage

/-- The first stage that is not completed. -/
def nextPending (p : Pipeline) : Option Stage :=
  Stage.all.find? fun stage => !p.hasCompleted stage

/-- Notes a change. -/
def touch (p : Pipeline) (now : Instant) : Pipeline :=
  { p with updatedAt := now }

/-- Gives the pipeline another status. -/
def setStatus (p : Pipeline) (status : Status) (now : Instant) : Pipeline :=
  { p with status, updatedAt := now }

/-- Notes which stage is being worked on. -/
def setCurrent (p : Pipeline) (stage : Option Stage) (now : Instant) : Pipeline :=
  { p with current := stage, updatedAt := now }

/-- Completes the stage of a successful result, if it is not completed already, and takes over its
artifact. -/
def complete (p : Pipeline) (result : StageResult) : Pipeline :=
  if result.success && !p.hasCompleted result.stage then
    { p with
      completed := p.completed ++ [result.stage]
      artifacts := match result.artifact with
        | some a => (p.artifacts.insert a).1
        | none => p.artifacts }
  else p

/-- Appends a result. -/
def addResult (p : Pipeline) (result : StageResult) (now : Instant) : Pipeline :=
  let completed := p.complete result
  { completed with results := p.results ++ [result], updatedAt := now }

/-- Whether a successful result stands behind a stage. -/
def isBacked (p : Pipeline) (stage : Stage) : Bool :=
  p.results.any fun result => result.success && result.stage == stage

/-- The elements of a list without those that equal the one in front of them. -/
def dropRepeats : List Stage → List Stage
  | a :: b :: rest => if a = b then dropRepeats (b :: rest) else a :: dropRepeats (b :: rest)
  | rest => rest

/-- Takes back the completion of stages that no successful result stands behind, and of a stage
directly behind itself. -/
def reconcile (p : Pipeline) (now : Instant) : Pipeline :=
  let kept := dropRepeats (p.completed.filter p.isBacked)
  { p with
    completed := kept
    updatedAt := if kept.length = p.completed.length then p.updatedAt else now }

section Fields

variable (p : Pipeline) (result : StageResult) (now : Instant)

@[simp] theorem id_addResult : (p.addResult result now).id = p.id := by
  unfold addResult complete
  dsimp only
  split <;> rfl

@[simp] theorem createdAt_addResult : (p.addResult result now).createdAt = p.createdAt := by
  unfold addResult complete
  dsimp only
  split <;> rfl

@[simp] theorem status_addResult : (p.addResult result now).status = p.status := by
  unfold addResult complete
  dsimp only
  split <;> rfl

@[simp] theorem current_addResult : (p.addResult result now).current = p.current := by
  unfold addResult complete
  dsimp only
  split <;> rfl

@[simp] theorem results_addResult :
    (p.addResult result now).results = p.results ++ [result] := rfl

theorem completed_addResult_of_success (hsuccess : result.success = true)
    (hopen : p.hasCompleted result.stage = false) :
    (p.addResult result now).completed = p.completed ++ [result.stage] := by
  simp [addResult, complete, hsuccess, hopen]

theorem artifacts_addResult_of_success (hsuccess : result.success = true)
    (hopen : p.hasCompleted result.stage = false) :
    (p.addResult result now).artifacts =
      match result.artifact with
      | some a => (p.artifacts.insert a).1
      | none => p.artifacts := by
  simp only [addResult, complete, hsuccess, hopen, Bool.not_false, Bool.and_self, if_true]

theorem completed_addResult_of_failure (hsuccess : result.success = false) :
    (p.addResult result now).completed = p.completed := by
  simp [addResult, complete, hsuccess]

theorem artifacts_addResult_of_failure (hsuccess : result.success = false) :
    (p.addResult result now).artifacts = p.artifacts := by
  simp [addResult, complete, hsuccess]

end Fields

end Pipeline

/-- The fields of a result. -/
def StageResult.record : Record StageResult where
  initial := ⟨default, false, "", none, none, .zero, 0⟩
  mayStop := false
  fields := [
    .required "stage" Stage.codec (·.stage) (fun v a => { a with stage := v }),
    .required "success" .bool (·.success) (fun v a => { a with success := v }),
    .required "output" .string (·.output) (fun v a => { a with output := v }),
    .defaulted "artifacts" (.optional Artifact.codec) (·.artifact)
      (fun v a => { a with artifact := v }),
    .defaulted "error" (.optional .string) (·.error) (fun v a => { a with error := v }),
    .required "duration_ms" Duration.codec (·.duration) (fun v a => { a with duration := v }),
    .required "retry_count" .word32 (·.retryCount) (fun v a => { a with retryCount := v })]

/-- The fields of a pipeline. -/
def Pipeline.record : Record Pipeline where
  initial := .pending default default
  mayStop := false
  fields := [
    .required "id" PipelineId.codec (·.id) (fun v a => { a with id := v }),
    .required "status" Status.codec (·.status) (fun v a => { a with status := v }),
    .defaulted "current_stage" (.optional Stage.codec) (·.current)
      (fun v a => { a with current := v }),
    .required "completed_stages" (.list Stage.codec) (·.completed)
      (fun v a => { a with completed := v }),
    .required "stage_results" (.list StageResult.record.codec) (·.results)
      (fun v a => { a with results := v }),
    .required "artifacts" ArtifactSet.codec (·.artifacts) (fun v a => { a with artifacts := v }),
    .required "created_at" Instant.codec (·.createdAt) (fun v a => { a with createdAt := v }),
    .required "updated_at" Instant.codec (·.updatedAt) (fun v a => { a with updatedAt := v })]

end StagedPipeline
