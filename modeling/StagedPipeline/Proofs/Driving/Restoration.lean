import StagedPipeline.Proofs.Driving.Takeover
import StagedPipeline.Proofs.Driving.Verdict
import StagedPipeline.Proofs.Pipeline.Reconciliation
import StagedPipeline.Proofs.Pipeline.RoundTrip

/-!
# The record of a pipeline that is read back and restored

A restore takes back the completion of stages that nothing stands behind. There is none in a
pipeline whose completed stages are `Backed`, so that it is adopted as it is, but for the status
(`PipelineRecord.adopt_of_backed`). The pipeline of a regular record that has not come to its end is
such a one, also after it was read back from its text. Once it is run again its record is regular
and holds what the executor has made of the pipeline so far, as if it had never been away
(`PipelineRecord.Regular.revived`, `PipelineRecord.Faithful.revived`).
-/

namespace StagedPipeline

/-! ### Nothing is taken back -/

namespace Pipeline

variable {p : Pipeline} {now : Instant}

/-- No completed stage comes twice, and behind each of them stands a successful result. -/
structure Backed (p : Pipeline) : Prop where
  nodup : p.completed.Nodup
  backed : ∀ stage ∈ p.completed, p.isBacked stage = true

theorem Backed.reconciled (h : p.Backed) : p.Reconciled where
  chain := h.nodup.isChain
  backed := h.backed

/-- What stands behind a stage is not a matter of time. -/
theorem isBacked_rounded (p : Pipeline) (stage : Stage) :
    p.rounded.isBacked stage = p.isBacked stage := by
  rw [isBacked, isBacked, rounded, List.any_map]
  rfl

theorem Backed.rounded (h : p.Backed) : p.rounded.Backed := by
  refine ⟨h.nodup, fun stage hstage => ?_⟩
  rw [isBacked_rounded]
  exact h.backed stage hstage

end Pipeline

namespace PipelineRecord

variable {b : Behaviour} {r : PipelineRecord} {p : Pipeline} {config : PipelineConfig}
  {now later : Instant}

theorem Regular.backed (h : r.Regular) (hfailed : r.pipeline.status ≠ .failed) :
    r.pipeline.Backed := by
  obtain ⟨hstages, hsucceeded⟩ := h.results_of_ne_failed hfailed
  constructor
  · have hall : Stage.all.Nodup := by decide
    rw [h.completed]
    exact hall.sublist (List.take_sublist _ _)
  · intro stage hstage
    rw [← hstages] at hstage
    obtain ⟨x, hx, rfl⟩ := List.mem_map.mp hstage
    rw [Pipeline.isBacked, List.any_eq_true]
    exact ⟨x, hx, by simp [(hsucceeded x hx).success]⟩

theorem adopt_of_backed (h : p.Backed) :
    adopt p config now =
      ofPipeline (if p.status = .running then p.setStatus .paused now else p) config := by
  simp only [adopt, h.reconciled.reconcile_eq]

theorem completed_adopt_of_backed (h : p.Backed) (config : PipelineConfig) (now : Instant) :
    (adopt p config now).pipeline.completed = p.completed := by
  rw [adopt_of_backed h]
  unfold ofPipeline
  dsimp only
  split <;> rfl

/-- The record of a pipeline that is run, if nothing but the status changes. -/
def revived (p : Pipeline) (config : PipelineConfig) (now : Instant) : PipelineRecord :=
  ⟨p.setStatus .running now, config, true⟩

/-- A pipeline that is restored and run gets that record. -/
theorem start_adopt (h : p.Backed) (hopen : p.status.isTerminal = false) :
    (adopt p config now).start .execute p.id later = (revived p config later, .ok true) := by
  rw [start_of_none later (entryError?_adopt p.id p config now hopen), adopt_of_backed h]
  unfold ofPipeline revived
  dsimp only
  split <;> rfl

/-! ### As if it had never been away -/

theorem map_timeless_rounded (xs : List StageResult) :
    (xs.map StageResult.rounded).map (·.timeless) = xs.map (·.timeless) :=
  List.map_map

theorem Regular.revived (h : r.Regular) (hfailed : r.pipeline.status ≠ .failed) :
    (revived r.pipeline.rounded r.config now).Regular where
  completed := h.completed
  results := by
    obtain ⟨hstages, hsucceeded⟩ := h.results_of_ne_failed hfailed
    refine ⟨r.pipeline.results.map StageResult.rounded, none, (List.append_nil _).symm, ?_, ?_,
      nofun⟩
    · rw [List.map_map]
      exact hstages
    · intro x hx
      obtain ⟨y, hy, rfl⟩ := List.mem_map.mp hx
      obtain ⟨hsuccess, herror, hcount, hartifact⟩ := hsucceeded y hy
      exact ⟨hsuccess, herror, hcount, hartifact⟩
  artifacts := by
    intro stage a
    rw [show (PipelineRecord.revived r.pipeline.rounded r.config now).pipeline.artifacts =
      r.pipeline.artifacts from rfl, h.artifacts]
    constructor
    · rintro ⟨x, hx, hartifact⟩
      exact ⟨x.rounded, List.mem_map_of_mem hx, hartifact⟩
    · rintro ⟨x, hx, hartifact⟩
      obtain ⟨y, hy, rfl⟩ := List.mem_map.mp hx
      exact ⟨y, hy, hartifact⟩
  pending := nofun
  finished := nofun
  current := h.current
  idle := h.idle

theorem Faithful.revived (h : r.Faithful b) :
    (revived r.pipeline.rounded r.config now).Faithful b where
  results := by
    intro x hx
    obtain ⟨y, hy, rfl⟩ := List.mem_map.mp hx
    exact h.results y hy
  failed := nofun
  artifacts := by
    rw [← ArtifactSet.gather_map_timeless]
    change r.pipeline.artifacts = .gather ((r.pipeline.results.map StageResult.rounded).map _)
    rw [map_timeless_rounded, ArtifactSet.gather_map_timeless, h.artifacts]

/-- The requests behind the results are those that the executor makes of the completed stages. -/
theorem Faithful.sent_eq (h : r.Faithful b) (hr : r.Regular)
    (hfailed : r.pipeline.status ≠ .failed) (engine : EngineConfig) :
    r.sent engine =
      sentFor engine r.config .empty (r.pipeline.completed.map (b.result r.config)) := by
  rw [sent, ← sentFor_map_timeless, h.map_timeless fun _ hx => hx,
    (hr.results_of_ne_failed hfailed).1]

end PipelineRecord

end StagedPipeline
