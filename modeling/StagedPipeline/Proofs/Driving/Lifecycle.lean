import StagedPipeline.Proofs.Driving.Regularity

/-!
# The course of a pipeline

As long as it is not restored, a pipeline loses nothing of what it has come to: results and
completed stages are only added behind those that are there, and an artifact stays what it is
(`PipelineRecord.Grows`). Its status moves along a few ways only (`Status.Turns`). The first holds
of every transition by itself. The second does not: that a driver at work never finds its pipeline
waiting for its start or completed is what the record and its driver know of each other
(`PipelineRecord.Driven`), and without it a late result could make a completed pipeline fail.
-/

namespace StagedPipeline

/-- The ways of a status from one to the next. -/
inductive Status.Turns : Status → Status → Prop
  | start : Turns .pending .running
  | pause : Turns .running .paused
  | resume : Turns .paused .running
  | finish : Turns .running .completed
  /-- A pause that comes after the last stage has been begun is not observed any more. -/
  | finishPaused : Turns .paused .completed
  | fail (status : Status) : Turns status .failed

namespace Status.Turns

variable {status status' : Status}

/-- A pipeline waits for its start only once. -/
theorem ne_pending (h : status.Turns status') : status' ≠ .pending := by
  cases h <;> decide

/-- A pipeline that has come to its end can still fail, and nothing else. -/
theorem eq_failed (h : status.Turns status') (hterminal : status.isTerminal = true) :
    status' = .failed := by
  cases h with
  | fail status => rfl
  | _ => contradiction

/-- A pipeline that may be driven as asked turns to running. -/
theorem of_entry {entry : PipelineRecord.Entry} {id : PipelineId}
    (h : PipelineRecord.entryError? entry id status = none) : status.Turns .running := by
  rcases PipelineRecord.pending_or_paused h with rfl | rfl
  · exact .start
  · exact .resume

end Status.Turns

/-- A record has grown from another one. -/
structure PipelineRecord.Grows (r r' : PipelineRecord) : Prop where
  id : r'.pipeline.id = r.pipeline.id
  createdAt : r'.pipeline.createdAt = r.pipeline.createdAt
  config : r'.config = r.config
  results : r.pipeline.results <+: r'.pipeline.results
  completed : r.pipeline.completed <+: r'.pipeline.completed
  artifacts : ∀ stage a, r.pipeline.artifacts.get? stage = some a →
    r'.pipeline.artifacts.get? stage = some a

/-! ### What is recorded stays -/

/-- An artifact that is held is not replaced by one that is added. -/
theorem ArtifactSet.get?_insert_of_get? {s : ArtifactSet} {stage : Stage} {a : Artifact}
    (h : s.get? stage = some a) (b : Artifact) : (s.insert b).1.get? stage = some a := by
  by_cases hstage : stage = b.stage
  · subst hstage
    rw [get?_insert_self, h, Option.getD_some]
  · rw [get?_insert_of_ne s hstage, h]

namespace Pipeline

variable (p : Pipeline) (result : StageResult) (now : Instant)

theorem completed_prefix_addResult : p.completed <+: (p.addResult result now).completed := by
  unfold addResult complete
  dsimp only
  split
  · exact List.prefix_append _ _
  · exact List.prefix_refl _

variable {p} in
theorem get?_artifacts_addResult {stage : Stage} {a : Artifact}
    (h : p.artifacts.get? stage = some a) :
    (p.addResult result now).artifacts.get? stage = some a := by
  unfold addResult complete
  dsimp only
  split
  · cases result.artifact with
    | none => exact h
    | some b => exact ArtifactSet.get?_insert_of_get? h b
  · exact h

/-- Progress is measured by the completed stages alone. -/
theorem progress_le_progress {p p' : Pipeline} (h : p.completed.length ≤ p'.completed.length) :
    p.progress ≤ p'.progress := by
  have hscaled := Nat.div_le_div_right (c := Stage.count) (Nat.mul_le_mul_right 100 h)
  exact Nat.le_min.mpr ⟨Nat.min_le_left .., Nat.le_trans (Nat.min_le_right ..) hscaled⟩

end Pipeline

namespace PipelineRecord

variable {r r' r'' : PipelineRecord}

/-- A change that is not about what is recorded. -/
theorem Grows.of_eq (hid : r'.pipeline.id = r.pipeline.id)
    (hcreated : r'.pipeline.createdAt = r.pipeline.createdAt) (hconfig : r'.config = r.config)
    (hresults : r'.pipeline.results = r.pipeline.results)
    (hcompleted : r'.pipeline.completed = r.pipeline.completed)
    (hartifacts : r'.pipeline.artifacts = r.pipeline.artifacts) : r.Grows r' where
  id := hid
  createdAt := hcreated
  config := hconfig
  results := hresults ▸ List.prefix_refl _
  completed := hcompleted ▸ List.prefix_refl _
  artifacts stage a ha := by rw [hartifacts, ha]

theorem Grows.refl (r : PipelineRecord) : r.Grows r :=
  .of_eq rfl rfl rfl rfl rfl rfl

theorem Grows.trans (h : r.Grows r') (h' : r'.Grows r'') : r.Grows r'' where
  id := h'.id.trans h.id
  createdAt := h'.createdAt.trans h.createdAt
  config := h'.config.trans h.config
  results := h.results.trans h'.results
  completed := h.completed.trans h'.completed
  artifacts stage a ha := h'.artifacts stage a (h.artifacts stage a ha)

theorem Grows.progress_le (h : r.Grows r') : r.pipeline.progress ≤ r'.pipeline.progress :=
  Pipeline.progress_le_progress h.completed.length_le

theorem Grows.addResult (r : PipelineRecord) (result : StageResult) (now : Instant) :
    r.Grows { r with pipeline := r.pipeline.addResult result now } where
  id := r.pipeline.id_addResult result now
  createdAt := r.pipeline.createdAt_addResult result now
  config := rfl
  results := List.prefix_append _ _
  completed := r.pipeline.completed_prefix_addResult result now
  artifacts _ _ := Pipeline.get?_artifacts_addResult result now

theorem Grows.release (r : PipelineRecord) (now : Instant) : r.Grows (r.release now).1 := by
  unfold PipelineRecord.release
  dsimp only
  split <;> exact .of_eq rfl rfl rfl rfl rfl rfl

end PipelineRecord

/-! ### Steps -/

section Moves

variable {engine : EngineConfig} {id : PipelineId} {r r' : PipelineRecord} {p p' : Point}
  {move : Move}

theorem Moves.grows (hmoves : Moves engine id r p move r' p') : r.Grows r' := by
  cases hmoves with
  | record now hfailed hsuccess => exact .addResult r _ now.instant
  | fail now hfailed hsuccess =>
    exact (PipelineRecord.Grows.addResult r _ now.instant).trans (.of_eq rfl rfl rfl rfl rfl rfl)
  | drop now => exact .release r now.instant
  | _ => exact .of_eq rfl rfl rfl rfl rfl rfl

/-- A driving call changes the status of a pipeline that runs or is paused, and of no other. -/
theorem Moves.turns (hmoves : Moves engine id r p move r' p') (hdriven : r.Driven p)
    (hchange : r'.pipeline.status ≠ r.pipeline.status) :
    r.pipeline.status.Turns r'.pipeline.status ∧ r.pipeline.status.isTerminal = false := by
  cases hmoves with
  | complete now hfailed =>
    rcases hdriven.running_or_paused hfailed with hrunning | hpaused
    · rw [hrunning]
      exact ⟨.finish, rfl⟩
    · rw [hpaused]
      exact ⟨.finishPaused, rfl⟩
  | record now hfailed hsuccess =>
    exact absurd (r.pipeline.status_addResult _ now.instant) hchange
  | fail now hfailed hsuccess =>
    refine ⟨.fail _, ?_⟩
    rcases hdriven.running_or_paused hfailed with hrunning | hpaused
    · rw [hrunning]
      rfl
    · rw [hpaused]
      rfl
  | drop now =>
    unfold PipelineRecord.release at hchange ⊢
    by_cases hrunning : r.pipeline.status = .running
    · simp only [hrunning, if_true]
      exact ⟨.pause, rfl⟩
    · simp [hrunning] at hchange
  | _ => exact absurd rfl hchange

end Moves

namespace View

variable {engine : EngineConfig} {id : PipelineId} {v v' : View} {act : Act} {outs : List Output}
  {r r' : PipelineRecord}

/-- What a step makes of a record that is there: it grows, and a change of its status is one of the
few; only a cancel changes that of a pipeline that has come to its end. -/
theorem Step.exists_grows (hstep : Step engine id v act outs v') (h : v.Regular)
    (hrestore : ∀ p config, act = .restore p config → p.id ≠ id) (hr : v.record = some r) :
    ∃ r', v'.record = some r' ∧ r.Grows r' ∧
      (r'.pipeline.status ≠ r.pipeline.status → r.pipeline.status.Turns r'.pipeline.status ∧
        (r.pipeline.status.isTerminal = true → act = .cancel id)) := by
  cases hstep with
  | create now haccepted => contradiction
  | restore now hid => exact absurd hid (hrestore _ _ rfl)
  | claim now hentry hdriven hnew =>
    obtain rfl := Option.some.inj hr
    refine ⟨_, rfl, .of_eq rfl rfl rfl rfl rfl rfl, fun _ => ⟨.of_entry hentry, ?_⟩⟩
    simp [not_isTerminal_of_entry hentry]
  | rejoin now hentry hdriven =>
    obtain rfl := Option.some.inj hr
    refine ⟨_, rfl, .of_eq rfl rfl rfl rfl rfl rfl, fun _ => ⟨.of_entry hentry, ?_⟩⟩
    simp [not_isTerminal_of_entry hentry]
  | pause now hrunning =>
    obtain rfl := Option.some.inj hr
    refine ⟨_, rfl, .of_eq rfl rfl rfl rfl rfl rfl, fun _ => ?_⟩
    rw [hrunning]
    exact ⟨.pause, nofun⟩
  | cancel now =>
    obtain rfl := Option.some.inj hr
    exact ⟨_, rfl, .of_eq rfl rfl rfl rfl rfl rfl, fun _ => ⟨.fail _, fun _ => rfl⟩⟩
  | move hpoint hmoves =>
    obtain rfl := Option.some.inj hr
    refine ⟨_, rfl, hmoves.grows, fun hchange => ?_⟩
    obtain ⟨hturns, hopen⟩ := hmoves.turns (h.driven hpoint hmoves.isLive) hchange
    refine ⟨hturns, fun hterminal => ?_⟩
    rw [hterminal] at hopen
    contradiction

end View

/-! ### Runs -/

namespace Fleet

variable {engine : EngineConfig} {s : Fleet} {e : Event} {es : List Event} {id : PipelineId}
  {r : PipelineRecord}

/-- What an event makes of a record that is there. -/
theorem exists_grows_next (engine : EngineConfig) (he : s.Created id e)
    (hregular : (s.view id).Regular) (hget : s.store.get? id = some r) :
    ∃ r', (s.next engine e).store.get? id = some r' ∧ r.Grows r' ∧
      (r'.pipeline.status ≠ r.pipeline.status → r.pipeline.status.Turns r'.pipeline.status ∧
        (r.pipeline.status.isTerminal = true → e.Cancels id)) := by
  rcases accounted engine he.1 hregular.sole.known with ⟨hsame, -⟩ | hstep
  · have hget' : (s.next engine e).store.get? id = some r :=
      (congrArg View.record hsame).trans hget
    exact ⟨r, hget', .refl r, fun hchange => absurd rfl hchange⟩
  · exact hstep.exists_grows hregular he.ne_of_restore hget

/-- What a run makes of a record that is there. It is never pending again, and it leaves its end
only by a cancel. -/
theorem exists_grows_run (hes : s.Along engine (Created id) es) (hregular : (s.view id).Regular)
    (hget : s.store.get? id = some r) :
    ∃ r', (s.run engine es).store.get? id = some r' ∧ r.Grows r' ∧
      (r.pipeline.status ≠ .pending → r'.pipeline.status ≠ .pending) ∧
      (r.pipeline.status = .failed → r'.pipeline.status = .failed) ∧
      (r.pipeline.status = .completed → (∀ e ∈ es, ¬ e.Cancels id) →
        r'.pipeline.status = .completed) := by
  induction es generalizing s r with
  | nil => exact ⟨r, hget, .refl r, fun h => h, fun h => h, fun h _ => h⟩
  | cons e es ih =>
    obtain ⟨r₁, hget₁, hgrows₁, hturns⟩ := exists_grows_next engine hes.1 hregular hget
    obtain ⟨r', hget', hgrows, hpending, hfailed, hcompleted⟩ :=
      ih hes.2 (regular_next hes.1 hregular) hget₁
    refine ⟨r', hget', hgrows₁.trans hgrows, fun hstatus => hpending ?_,
      fun hstatus => hfailed ?_, fun hstatus hkept => hcompleted ?_ ?_⟩
    · by_cases hchange : r₁.pipeline.status = r.pipeline.status
      · exact hchange ▸ hstatus
      · exact (hturns hchange).1.ne_pending
    · by_cases hchange : r₁.pipeline.status = r.pipeline.status
      · exact hchange.trans hstatus
      · exact (hturns hchange).1.eq_failed (by rw [hstatus]; rfl)
    · by_contra hleft
      have hcancel := (hturns (by rw [hstatus]; exact hleft)).2 (by rw [hstatus]; rfl)
      exact hkept e List.mem_cons_self hcancel
    · exact fun e he => hkept e (List.mem_cons_of_mem _ he)

/-- What a pipeline has come to is never lost: from one point of a run to any later one results and
completed stages are only added at the end, artifacts stay what they are, progress does not go
down, and the identifier, the time of its creation and the settings are the same. It is never
pending again, stays failed once it has failed, and completed until it is cancelled; and whatever
event changes its status moves it along one of the few ways. -/
theorem history_only_grows (hs : s.Reached engine (Created id)) (hget : s.store.get? id = some r)
    (hes : s.Along engine (Created id) es) :
    ∃ r', (s.run engine es).store.get? id = some r' ∧ r.Grows r' ∧
      r.pipeline.progress ≤ r'.pipeline.progress ∧
      (r.pipeline.status ≠ .pending → r'.pipeline.status ≠ .pending) ∧
      (r.pipeline.status = .failed → r'.pipeline.status = .failed) ∧
      (r.pipeline.status = .completed → (∀ e ∈ es, ¬ e.Cancels id) →
        r'.pipeline.status = .completed) ∧
      ∀ e, (s.run engine es).Created id e →
        ∃ r'', ((s.run engine es).next engine e).store.get? id = some r'' ∧
          (r''.pipeline.status ≠ r'.pipeline.status →
            r'.pipeline.status.Turns r''.pipeline.status ∧
              (r'.pipeline.status = .completed → e.Cancels id)) := by
  have hregular := regular_of_reached hs
  obtain ⟨r', hget', hgrows, hpending, hfailed, hcompleted⟩ := exists_grows_run hes hregular hget
  refine ⟨r', hget', hgrows, hgrows.progress_le, hpending, hfailed, hcompleted, ?_⟩
  intro e he
  have hregular' := hes.preserves (fun _ _ => regular_next) hregular
  obtain ⟨r'', hget'', -, hturns⟩ := exists_grows_next engine he hregular' hget'
  refine ⟨r'', hget'', fun hchange => ?_⟩
  obtain ⟨hturn, hcancel⟩ := hturns hchange
  exact ⟨hturn, fun hstatus => hcancel (by rw [hstatus]; rfl)⟩

/-- From the first stage on, which is completed, the second one fails: its result comes behind the
one that is there, and the pipeline that ran has failed. -/
theorem history_of_failedRun :
    let run := failedRun (.ofNat 1) ⟨.zero, ⟨0, 0⟩⟩
    let s := initial.run .initial (run.take 5)
    s.Reached .initial (Created (.ofNat 1)) ∧
      s.Along .initial (Created (.ofNat 1)) (run.drop 5) ∧
      ∃ r r', s.store.get? (.ofNat 1) = some r ∧
        (s.run .initial (run.drop 5)).store.get? (.ofNat 1) = some r' ∧
        r.pipeline.status = .running ∧ r'.pipeline.status = .failed ∧
        r.pipeline.results.map (·.stage) = [.requirements] ∧
        r'.pipeline.results.map (·.stage) = [.requirements, .design] ∧
        r.pipeline.results <+: r'.pipeline.results ∧
        r.pipeline.completed <+: r'.pipeline.completed := by
  intro run s
  have halong := along_failedRun
  rw [show failedRun (.ofNat 1) ⟨.zero, ⟨0, 0⟩⟩ = run.take 5 ++ run.drop 5 from rfl,
    along_append] at halong
  obtain ⟨hfront, hrest⟩ := halong
  have hs : s.Reached .initial (Created (.ofNat 1)) := ⟨run.take 5, hfront, rfl⟩
  obtain ⟨r', hget', hgrows, -⟩ := history_only_grows hs rfl hrest
  have hstatus : r'.pipeline.status = .failed := by cases hget'; rfl
  have hresults : r'.pipeline.results.map (·.stage) = [.requirements, .design] := by
    cases hget'
    rfl
  exact ⟨hs, hrest, _, r', rfl, hget', rfl, hstatus, rfl, hresults, hgrows.results,
    hgrows.completed⟩

end Fleet

end StagedPipeline
