import StagedPipeline.Proofs.Driving.Fleet

/-!
# What an operation makes of an engine

What is asked of an engine is done at once, or refused at once. There is one equation for each way
that it can go, by what the store holds about the pipeline.
-/

namespace StagedPipeline

namespace Fleet

variable {s : Fleet} {id : PipelineId} {r : PipelineRecord} {config : PipelineConfig}
  {entry : PipelineRecord.Entry} (engine : EngineConfig) (now : Moment)

theorem react_create_of_refusal {refusal : PipelineConfig.Refusal}
    (h : config.refusal? = some refusal) :
    s.react engine ⟨.create id config, now⟩ =
      (s, [.answered id (.error (.invalidConfig refusal.message))]) := by
  simp only [react, Engine.create, h]

theorem react_create_of_accepted (h : config.refusal? = none) :
    s.react engine ⟨.create id config, now⟩ =
      ({ s with store := s.store.put (.ofPipeline (.pending id now.instant) config) },
        [.answered id (.ok (.pending id now.instant))]) := by
  simp only [react, Engine.create, h]

theorem react_drive_of_unknown (hget : s.store.get? id = none) :
    s.react engine ⟨.drive entry id, now⟩ = (s, [.answered id (.error (.notFound id))]) := by
  simp only [react, Engine.claim, Store.update_of_get?_eq_none _ hget]

theorem react_drive_of_error {err : PipelineError} (hget : s.store.get? id = some r)
    (hentry : PipelineRecord.entryError? entry id r.pipeline.status = some err) :
    s.react engine ⟨.drive entry id, now⟩ =
      ({ s with store := s.store.set id r }, [.answered id (.error err)]) := by
  simp only [react, Engine.claim]
  rw [Store.update_of_get?_eq_some _ hget, PipelineRecord.start_of_error _ hentry]

/-- A driver that is still at work goes on, and the caller is told about the pipeline. -/
theorem react_drive_of_driven (hget : s.store.get? id = some r)
    (hentry : PipelineRecord.entryError? entry id r.pipeline.status = none)
    (hdriven : r.driven = true) :
    s.react engine ⟨.drive entry id, now⟩ =
      (⟨s.store.set id
          { r with pipeline := r.pipeline.setStatus .running now.instant, driven := true },
        s.calls⟩,
        [.answered id (.ok (r.pipeline.setStatus .running now.instant))]) := by
  have hset := Store.get?_update_self (·.start entry id now.instant) hget
  simp only [react, Engine.claim]
  rw [Store.update_of_get?_eq_some _ hget, PipelineRecord.start_of_none _ hentry] at hset ⊢
  simp only [hdriven, Bool.not_true, Store.snapshot, Store.pipeline?, hset, Option.map_some]

/-- If there is none, a call begins to drive the pipeline. -/
theorem react_drive_of_undriven (hget : s.store.get? id = some r)
    (hentry : PipelineRecord.entryError? entry id r.pipeline.status = none)
    (hdriven : r.driven = false) :
    s.react engine ⟨.drive entry id, now⟩ =
      (⟨s.store.set id
          { r with pipeline := r.pipeline.setStatus .running now.instant, driven := true },
        s.calls ++ [⟨id, .walking Stage.all⟩]⟩, []) := by
  simp only [react, Engine.claim]
  rw [Store.update_of_get?_eq_some _ hget, PipelineRecord.start_of_none _ hentry, hdriven]
  rfl

theorem react_pause_of_unknown (hget : s.store.get? id = none) :
    s.react engine ⟨.pause id, now⟩ = (s, [.acknowledged id (.error (.notFound id))]) := by
  simp only [react, Engine.pause, Store.update_of_get?_eq_none _ hget]

theorem react_pause_of_running (hget : s.store.get? id = some r)
    (hrunning : r.pipeline.status = .running) :
    s.react engine ⟨.pause id, now⟩ =
      (⟨s.store.set id { r with pipeline := r.pipeline.setStatus .paused now.instant }, s.calls⟩,
        [.acknowledged id (.ok ())]) := by
  simp only [react, Engine.pause]
  rw [Store.update_of_get?_eq_some _ hget, PipelineRecord.pause_of_running _ hrunning]

theorem react_pause_of_ne_running (hget : s.store.get? id = some r)
    (hrunning : r.pipeline.status ≠ .running) :
    s.react engine ⟨.pause id, now⟩ =
      ({ s with store := s.store.set id r }, [.acknowledged id (.error (.notRunning id))]) := by
  simp only [react, Engine.pause]
  rw [Store.update_of_get?_eq_some _ hget, PipelineRecord.pause_of_ne_running _ hrunning]

theorem react_cancel_of_unknown (hget : s.store.get? id = none) :
    s.react engine ⟨.cancel id, now⟩ = (s, [.acknowledged id (.error (.notFound id))]) := by
  simp only [react, Engine.cancel, Store.update_of_get?_eq_none _ hget]

theorem react_cancel_of_known (hget : s.store.get? id = some r) :
    s.react engine ⟨.cancel id, now⟩ =
      (⟨s.store.set id { r with pipeline := r.pipeline.setStatus .failed now.instant }, s.calls⟩,
        [.acknowledged id (.ok ())]) := by
  simp only [react, Engine.cancel]
  rw [Store.update_of_get?_eq_some _ hget]
  rfl

end Fleet

end StagedPipeline
