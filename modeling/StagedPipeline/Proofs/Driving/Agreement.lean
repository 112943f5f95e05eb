import Mathlib.Data.List.Forall2
import StagedPipeline.Proofs.Driving.Pursuit

/-!
# Records that differ in texts

Two executors whose replies are of the same kind, attempt by attempt, may still answer with
different texts. `Twins` are two of them. What they leave behind agrees in everything but the
outputs and the artifacts of successful results: `Pipeline.Agree` lists the fields, and every
transition of a record preserves the agreement, since none of them looks at a text. What is sent to
them agrees in everything but the artifacts of previous stages. Times agree as well if the two runs
keep the same time.
-/

namespace StagedPipeline

/-- Two replies of the same kind: two texts, the same error, or no answer at all. -/
inductive Reply.Alike : Reply → Reply → Prop
  | text (content other : String) : Alike (.text content) (.text other)
  | error (e : ExecutorError) : Alike (.error e) (.error e)
  | silence : Alike .silence .silence

/-- What becomes of a request, by the call that sends it and the stage and number of the attempt. -/
abbrev Executor := Nat → Stage → Nat → CompletionRequest → Reply

/-- Two executors whose replies are of the same kind, and whether the runs that are made with them
keep the same time. What is asked may decide what they say, but not whether they say it. -/
structure Twins where
  left : Executor
  right : Executor
  alike : ∀ call stage n request request',
    (left call stage n request).Alike (right call stage n request')
  timed : Prop

/-! ### Agreement -/

/-- Two results of a call that agree: values that do, or the same error. -/
inductive Agreeing {ε α : Type} (agree : α → α → Prop) : Except ε α → Except ε α → Prop
  | ok {a a' : α} (h : agree a a') : Agreeing agree (.ok a) (.ok a')
  | error (e : ε) : Agreeing agree (.error e) (.error e)

/-- Two requests that differ in the artifacts of previous stages that the user prompt gives, and in
nothing else. -/
structure CompletionRequest.Agree (request request' : CompletionRequest) : Prop where
  systemPrompt : request.systemPrompt = request'.systemPrompt
  userPrompt : ∃ (before after : String) (artifacts artifacts' : ArtifactSet),
    request.userPrompt = before ++ artifacts.context.pretty ++ after ∧
      request'.userPrompt = before ++ artifacts'.context.pretty ++ after
  maxTokens : request.maxTokens = request'.maxTokens
  temperature : request.temperature = request'.temperature

variable (w : Twins)

/-- What two executors said at the same attempt of a stage, to requests that agree. -/
def Twins.Said (stage : Stage) (n : Nat) (text text' : String) : Prop :=
  ∃ call request request', request.Agree request' ∧ w.left call stage n request = .text text ∧
    w.right call stage n request' = .text text'

/-- Two results of a stage. A successful one holds the text of its executor as it is. -/
structure StageResult.Agree (x x' : StageResult) : Prop where
  stage : x.stage = x'.stage
  success : x.success = x'.success
  error : x.error = x'.error
  retryCount : x.retryCount = x'.retryCount
  duration : w.timed → x.duration = x'.duration
  told : x.success = true → w.Said x.stage x.retryCount.toNat x.output x'.output

/-- Two pipelines. -/
structure Pipeline.Agree (p p' : Pipeline) : Prop where
  id : p.id = p'.id
  status : p.status = p'.status
  current : p.current = p'.current
  completed : p.completed = p'.completed
  results : List.Forall₂ (StageResult.Agree w) p.results p'.results
  createdAt : w.timed → p.createdAt = p'.createdAt
  updatedAt : w.timed → p.updatedAt = p'.updatedAt

/-- Two records. -/
structure PipelineRecord.Agree (r r' : PipelineRecord) : Prop where
  pipeline : r.pipeline.Agree w r'.pipeline
  config : r.config = r'.config
  driven : r.driven = r'.driven

/-- Two stores: they hold records of the same pipelines. -/
def Store.Agree (s s' : Store) : Prop :=
  ∀ id, Option.Rel (PipelineRecord.Agree w) (s.get? id) (s'.get? id)

variable {w} {now now' : Instant}

/-! ### Pipelines -/

namespace Pipeline.Agree

variable {p p' : Pipeline} {x x' : StageResult}

theorem hasCompleted (h : p.Agree w p') (stage : Stage) :
    p.hasCompleted stage = p'.hasCompleted stage := by
  rw [Pipeline.hasCompleted, Pipeline.hasCompleted, h.completed]

theorem setStatus (h : p.Agree w p') (status : Status) (hnow : w.timed → now = now') :
    (p.setStatus status now).Agree w (p'.setStatus status now') :=
  { h with status := rfl, updatedAt := hnow }

theorem setCurrent (h : p.Agree w p') (stage : Option Stage) (hnow : w.timed → now = now') :
    (p.setCurrent stage now).Agree w (p'.setCurrent stage now') :=
  { h with current := rfl, updatedAt := hnow }

theorem complete (h : p.Agree w p') (hx : x.Agree w x') :
    (p.complete x).completed = (p'.complete x').completed := by
  unfold Pipeline.complete
  rw [← hx.success, ← hx.stage, ← h.hasCompleted]
  split
  · exact congrArg (· ++ [x.stage]) h.completed
  · exact h.completed

theorem addResult (h : p.Agree w p') (hx : x.Agree w x') (hnow : w.timed → now = now') :
    (p.addResult x now).Agree w (p'.addResult x' now') where
  id := by rw [id_addResult, id_addResult, h.id]
  status := by rw [status_addResult, status_addResult, h.status]
  current := by rw [current_addResult, current_addResult, h.current]
  completed := h.complete hx
  results := List.rel_append h.results (.cons hx .nil)
  createdAt htimed := by rw [createdAt_addResult, createdAt_addResult, h.createdAt htimed]
  updatedAt := hnow

theorem pending (id : PipelineId) (hnow : w.timed → now = now') :
    (Pipeline.pending id now).Agree w (.pending id now') :=
  ⟨rfl, rfl, rfl, rfl, .nil, hnow, hnow⟩

end Pipeline.Agree

/-! ### Transitions -/

/-- Two decisions in front of a stage; the artifacts that are handed on may differ. -/
inductive PipelineRecord.Boundary.Agree : Boundary → Boundary → Prop
  | halt : Agree .halt .halt
  | skip : Agree .skip .skip
  | run (config : PipelineConfig) (artifacts artifacts' : ArtifactSet) :
      Agree (.run config artifacts) (.run config artifacts')

/-- Two outcomes of a transition. -/
def PipelineRecord.Transits {α : Type} (w : Twins) (agree : α → α → Prop)
    (o o' : PipelineRecord × Except PipelineError α) : Prop :=
  o.1.Agree w o'.1 ∧ Agreeing agree o.2 o'.2

namespace PipelineRecord.Agree

variable {r r' : PipelineRecord} {x x' : StageResult}

/-- A driver that gives up leaves the pipeline as it is. -/
theorem undriven (h : r.Agree w r') :
    PipelineRecord.Agree w { r with driven := false } { r' with driven := false } :=
  { h with driven := rfl }

theorem start (h : r.Agree w r') (entry : Entry) (id : PipelineId)
    (hnow : w.timed → now = now') :
    Transits w Eq (r.start entry id now) (r'.start entry id now') := by
  unfold PipelineRecord.start
  rw [← h.pipeline.status, ← h.driven]
  split
  · exact ⟨h, .error _⟩
  · exact ⟨⟨h.pipeline.setStatus .running hnow, h.config, rfl⟩, .ok rfl⟩

theorem boundary (h : r.Agree w r') (id : PipelineId) (stage : Stage)
    (hnow : w.timed → now = now') :
    Transits w Boundary.Agree (r.boundary id stage now) (r'.boundary id stage now') := by
  unfold PipelineRecord.boundary
  rw [← h.pipeline.status, ← h.pipeline.hasCompleted]
  split
  · exact ⟨h.undriven, .ok .halt⟩
  · exact ⟨h.undriven, .error _⟩
  · split
    · exact ⟨h, .ok .skip⟩
    · refine ⟨⟨h.pipeline.setCurrent (some stage) hnow, h.config, h.driven⟩, .ok ?_⟩
      rw [← h.config]
      exact .run _ _ _

theorem addResult (h : r.Agree w r') (id : PipelineId) (hx : x.Agree w x')
    (hnow : w.timed → now = now') :
    Transits w Eq (r.addResult id x now) (r'.addResult id x' now') := by
  have hpipeline := h.pipeline.addResult hx hnow
  unfold PipelineRecord.addResult
  rw [← h.pipeline.status, ← hx.success, ← hx.stage, ← hx.retryCount, ← hx.error]
  split
  · exact ⟨h.undriven, .error _⟩
  · dsimp only
    split
    · exact ⟨⟨hpipeline, h.config, h.driven⟩, .ok rfl⟩
    · exact ⟨⟨hpipeline.setStatus .failed hnow, h.config, rfl⟩, .error _⟩

theorem finish (h : r.Agree w r') (id : PipelineId) (hnow : w.timed → now = now') :
    Transits w (Pipeline.Agree w) (r.finish id now) (r'.finish id now') := by
  have hpipeline := (h.pipeline.setCurrent none hnow).setStatus .completed hnow
  unfold PipelineRecord.finish
  rw [← h.pipeline.status]
  split
  · exact ⟨h.undriven, .error _⟩
  · exact ⟨⟨hpipeline, h.config, rfl⟩, .ok hpipeline⟩

theorem pause (h : r.Agree w r') (id : PipelineId) (hnow : w.timed → now = now') :
    Transits w Eq (r.pause id now) (r'.pause id now') := by
  unfold PipelineRecord.pause
  rw [← h.pipeline.status]
  split
  · exact ⟨⟨h.pipeline.setStatus .paused hnow, h.config, h.driven⟩, .ok rfl⟩
  · exact ⟨h, .error _⟩

theorem cancel (h : r.Agree w r') (hnow : w.timed → now = now') :
    Transits w Eq (r.cancel now) (r'.cancel now') :=
  ⟨⟨h.pipeline.setStatus .failed hnow, h.config, h.driven⟩, .ok h.pipeline.status⟩

theorem release (h : r.Agree w r') (hnow : w.timed → now = now') :
    Transits w Eq (r.release now) (r'.release now') := by
  unfold PipelineRecord.release
  rw [← h.pipeline.status]
  dsimp only
  split
  · exact ⟨⟨h.pipeline.setStatus .paused hnow, h.config, rfl⟩, .ok rfl⟩
  · exact ⟨h.undriven, .ok h.pipeline.status⟩

end PipelineRecord.Agree

/-! ### Stores -/

namespace Store.Agree

variable {s s' : Store}

/-- Two stores hold records of the same pipelines, or of none. -/
theorem get? (h : s.Agree w s') (id : PipelineId) :
    s.get? id = none ∧ s'.get? id = none ∨
      ∃ r r', s.get? id = some r ∧ s'.get? id = some r' ∧ r.Agree w r' := by
  have hrecord := h id
  cases hget : s.get? id with
  | none =>
    rw [hget] at hrecord
    cases hget' : s'.get? id with
    | none => exact .inl ⟨rfl, rfl⟩
    | some r' =>
      rw [hget'] at hrecord
      cases hrecord
  | some r =>
    rw [hget] at hrecord
    cases hget' : s'.get? id with
    | none =>
      rw [hget'] at hrecord
      cases hrecord
    | some r' =>
      rw [hget'] at hrecord
      cases hrecord with
      | some hrecord => exact .inr ⟨r, r', rfl, rfl, hrecord⟩

/-- Two stores whose records make the same transition. -/
theorem update {α : Type} {agree : α → α → Prop} (h : s.Agree w s') (id : PipelineId)
    {f f' : PipelineRecord → PipelineRecord × Except PipelineError α}
    (hf : ∀ r r', r.Agree w r' → PipelineRecord.Transits w agree (f r) (f' r')) :
    ∃ t t' value value', s.update id f = (t, value) ∧ s'.update id f' = (t', value') ∧
      t.Agree w t' ∧ Agreeing agree value value' := by
  refine ⟨(s.update id f).1, (s'.update id f').1, (s.update id f).2, (s'.update id f').2, rfl, rfl,
    ?_⟩
  rcases h.get? id with ⟨hget, hget'⟩ | ⟨r, r', hget, hget', hrecord⟩
  · rw [update_of_get?_eq_none f hget, update_of_get?_eq_none f' hget']
    exact ⟨h, .error _⟩
  · obtain ⟨hnext, hvalue⟩ := hf r r' hrecord
    refine ⟨fun other => ?_, ?_⟩
    · by_cases hother : other = id
      · subst hother
        rw [get?_update_self f hget, get?_update_self f' hget']
        exact .some hnext
      · rw [get?_update_of_ne f hother, get?_update_of_ne f' hother]
        exact h other
    · rw [update_of_get?_eq_some f hget, update_of_get?_eq_some f' hget']
      exact hvalue

theorem put (h : s.Agree w s') {r r' : PipelineRecord} (hr : r.Agree w r') :
    (s.put r).Agree w (s'.put r') := by
  intro id
  by_cases hid : id = r.pipeline.id
  · subst hid
    rw [get?_put_self, hr.pipeline.id, get?_put_self]
    exact .some hr
  · rw [get?_put_of_ne s r hid, get?_put_of_ne s' r' (hr.pipeline.id ▸ hid)]
    exact h id

theorem snapshot (h : s.Agree w s') (id : PipelineId) :
    Agreeing (Pipeline.Agree w) (s.snapshot id) (s'.snapshot id) := by
  unfold Store.snapshot pipeline?
  rcases h.get? id with ⟨hget, hget'⟩ | ⟨r, r', hget, hget', hrecord⟩
  · rw [hget, hget']
    exact .error _
  · rw [hget, hget']
    exact .ok hrecord.pipeline

end Store.Agree

end StagedPipeline
