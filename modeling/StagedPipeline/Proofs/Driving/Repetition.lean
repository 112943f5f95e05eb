import Mathlib.Data.Finset.Card
import StagedPipeline.Proofs.Driving.Continuation
import StagedPipeline.Proofs.Driving.Recovery
import StagedPipeline.Proofs.Driving.Takeover
import StagedPipeline.Proofs.Pipeline.Reconciliation

/-!
# Stages that a restored pipeline names twice

A driving call completes a stage only if it is not completed yet. So the number of times that a
stage is named again stays what it is after a restore (`Moves.repeats_eq`), whatever happens to the
pipeline. The progress counts what is named, not the stages: it is ahead of them by a fifth for each
repetition (`Fleet.progress_of_restored`). There are none exactly if no stage comes again behind
another one.
-/

namespace StagedPipeline

namespace Pipeline

variable {p q : Pipeline}

/-- How many different stages are completed. -/
def distinct (p : Pipeline) : Nat :=
  p.completed.toFinset.card

/-- How often a completed stage is named again. -/
def repeats (p : Pipeline) : Nat :=
  p.completed.length - p.distinct

theorem length_completed (p : Pipeline) : p.completed.length = p.distinct + p.repeats :=
  (Nat.add_sub_of_le p.completed.toFinset_card_le).symm

theorem repeats_eq_zero_iff : p.repeats = 0 ↔ p.completed.Nodup := by
  have hlength := p.length_completed
  constructor
  · intro hzero
    have hcard : p.completed.toFinset.card = p.completed.length := by
      rw [hlength, hzero, Nat.add_zero]
      rfl
    exact Multiset.toFinset_card_eq_card_iff_nodup.mp hcard
  · intro hnodup
    rw [repeats, distinct, List.toFinset_card_of_nodup hnodup, Nat.sub_self]

theorem repeats_congr (h : q.completed = p.completed) : q.repeats = p.repeats := by
  simp only [repeats, distinct, h]

/-- A result of a stage does not name it again. -/
theorem repeats_addResult (p : Pipeline) (x : StageResult) (now : Instant) :
    (p.addResult x now).repeats = p.repeats := by
  by_cases hfailure : x.success = false
  · exact repeats_congr (p.completed_addResult_of_failure x now hfailure)
  have hsuccess : x.success = true := Bool.not_eq_false _ ▸ hfailure
  by_cases hdone : x.stage ∈ p.completed
  · refine repeats_congr ?_
    simp [addResult, complete, hasCompleted_iff.mpr hdone]
  -- a new stage makes the list longer by one, and the stages in it more by one
  · have hcompleted := p.completed_addResult_of_success x now hsuccess
      (hasCompleted_eq_false_iff.mpr hdone)
    have hset : (p.completed ++ [x.stage]).toFinset = insert x.stage p.completed.toFinset := by
      ext stage
      simp
    have hcard : (insert x.stage p.completed.toFinset).card = p.completed.toFinset.card + 1 :=
      Finset.card_insert_of_notMem (by simpa using hdone)
    simp only [repeats, distinct, hcompleted, hset, hcard, List.length_append,
      List.length_singleton]
    exact Nat.add_sub_add_right ..

/-- A stage is completed or missing. -/
theorem distinct_add_length_missing (p : Pipeline) :
    p.distinct + p.missing.length = Stage.count := by
  have hnodup : (Stage.all.filter p.hasCompleted).Nodup := (by decide : Stage.all.Nodup).filter _
  have hset : p.completed.toFinset = (Stage.all.filter p.hasCompleted).toFinset := by
    ext stage
    simp [Stage.mem_all, hasCompleted_iff]
  rw [distinct, hset, List.toFinset_card_of_nodup hnodup, Stage.count]
  exact (List.length_eq_length_filter_add _).symm

theorem nextPending_eq_none_iff_distinct : p.nextPending = none ↔ p.distinct = Stage.count := by
  have hcount := p.distinct_add_length_missing
  rw [nextPending_eq_none_iff, ← List.length_eq_zero_iff]
  omega

/-- The progress counts every time that a stage is named. -/
theorem progress_eq_min (p : Pipeline) : p.progress = min 100 (20 * (p.distinct + p.repeats)) := by
  have hfifth : p.completed.length * 100 / Stage.count = 20 * p.completed.length := by
    have hcount : Stage.count = 5 := rfl
    rw [hcount]
    omega
  rw [progress, hfifth, length_completed]

/-- Without repetitions it counts the stages. -/
theorem progress_of_nodup (h : p.completed.Nodup) : p.progress = 20 * p.distinct := by
  have hbound := p.distinct_add_length_missing
  have hcount : Stage.count = 5 := rfl
  rw [progress_eq_min, repeats_eq_zero_iff.mpr h, Nat.add_zero]
  exact Nat.min_eq_right (by omega)

end Pipeline

/-! ### Steps -/

/-- No call names a stage again that is completed. -/
theorem Moves.repeats_eq {engine : EngineConfig} {id : PipelineId} {r r' : PipelineRecord}
    {p p' : Point} {move : Move} (hmoves : Moves engine id r p move r' p') :
    r'.pipeline.repeats = r.pipeline.repeats := by
  cases hmoves with
  | record now hfailed hsuccess => exact r.pipeline.repeats_addResult _ now.instant
  | fail now hfailed hsuccess => exact r.pipeline.repeats_addResult _ now.instant
  | drop now => exact Pipeline.repeats_congr (r.completed_release now.instant)
  | _ => rfl

namespace View

variable {engine : EngineConfig} {id : PipelineId} {v v' : View} {act : Act} {outs : List Output}
  {k : Nat}

/-- The pipeline is known, and names stages again so many times. -/
def Repeats (k : Nat) (v : View) : Prop :=
  ∃ r, v.record = some r ∧ r.pipeline.repeats = k

theorem Repeats.known (h : v.Repeats k) : v.Known := by
  obtain ⟨r, hr, -⟩ := h
  exact .of_record hr

theorem Repeats.step (hstep : Step engine id v act outs v') (h : v.Repeats k)
    (hrestore : ∀ p c, act = .restore p c → p.id ≠ id) : v'.Repeats k := by
  obtain ⟨r, hr, hrepeats⟩ := h
  cases hstep with
  | create now haccepted => contradiction
  | restore now hid => exact absurd hid (hrestore _ _ rfl)
  | move hpoint hmoves =>
    obtain rfl := Option.some.inj hr
    exact ⟨_, rfl, hmoves.repeats_eq.trans hrepeats⟩
  | _ =>
    obtain rfl := Option.some.inj hr
    exact ⟨_, rfl, hrepeats⟩

end View

/-! ### Runs -/

namespace Fleet

variable {engine : EngineConfig} {s : Fleet} {e : Event} {es : List Event} {id : PipelineId}
  {k : Nat} {p : Pipeline} {config : PipelineConfig} {now : Moment}

/-- **What a restored pipeline counts.** A restore leaves no stage twice exactly if, among the
completed stages with a successful result, none comes again behind another one. The repetitions that
it leaves stay, wherever a run leads, and there are no others: each of them is counted as a fifth by
the progress, and only without them the progress is that of the stages, so that it is complete with
the last of them. -/
theorem progress_of_restored
    (hes : (s.restored engine p config now).Along engine (Created p.id) es) :
    ∃ q r, (Engine.restore p config now s.store).value = q ∧
      (s.restored engine p config now).store.get? p.id = some ⟨q, config, false⟩ ∧
      ((s.restored engine p config now).run engine es).store.get? p.id = some r ∧
      (q.completed.Nodup ↔ ∀ a b, [a, b, a].Sublist (p.completed.filter p.isBacked) → a = b) ∧
      r.pipeline.completed.length = r.pipeline.distinct + q.repeats ∧
      r.pipeline.progress = min 100 (20 * (r.pipeline.distinct + q.repeats)) ∧
      (r.pipeline.nextPending = none ↔ r.pipeline.distinct = Stage.count) ∧
      (q.completed.Nodup → r.pipeline.completed.Nodup ∧
        r.pipeline.progress = 20 * r.pipeline.distinct ∧
        (r.pipeline.progress = 100 ↔ r.pipeline.nextPending = none)) := by
  have hstart : ((s.restored engine p config now).view p.id).Repeats
      (PipelineRecord.adopt p config now.instant).pipeline.repeats := by
    rw [view_restored engine s config now rfl]
    exact ⟨_, rfl, rfl⟩
  obtain ⟨r, hget, hrepeats⟩ :=
    hes.preserves_view (fun _ => View.Repeats.known) (fun _ _ _ _ => View.Repeats.step) hstart
  have hkept : (PipelineRecord.adopt p config now.instant).pipeline.completed =
      Pipeline.dropRepeats (p.completed.filter p.isBacked) := by
    obtain ⟨t, hadopt⟩ := PipelineRecord.adopt_eq p config now.instant
    rw [hadopt]
    rfl
  refine ⟨(PipelineRecord.adopt p config now.instant).pipeline, r, rfl,
    get?_restored engine s config now rfl, hget, ?_, ?_, ?_,
    Pipeline.nextPending_eq_none_iff_distinct, fun hnodup => ?_⟩
  · rw [hkept]
    exact Pipeline.nodup_dropRepeats_iff
  · rw [← hrepeats]
    exact r.pipeline.length_completed
  · rw [← hrepeats]
    exact r.pipeline.progress_eq_min
  · have hnone : r.pipeline.repeats = 0 := hrepeats.trans (Pipeline.repeats_eq_zero_iff.mpr hnodup)
    have hnodup' := Pipeline.repeats_eq_zero_iff.mp hnone
    have hprogress := Pipeline.progress_of_nodup hnodup'
    refine ⟨hnodup', hprogress, ?_⟩
    have hcount : Stage.count = 5 := rfl
    rw [Pipeline.nextPending_eq_none_iff_distinct, hprogress, hcount]
    omega

/-- A paused pipeline that names two stages in turn. -/
def alternating : Pipeline :=
  { Pipeline.pending (.ofNat 1) ⟨0, 0⟩ with
    status := .paused
    completed := [.requirements, .design, .requirements, .design, .requirements]
    results := [.requirements, .design].map (emptyRecords.result singleAttempt) }

/-- It is run, and completes one stage more. -/
def alternatingRun (now : Moment) : List Event :=
  ([Act.drive .execute (.ofNat 1), .advance 0 .proceed, .advance 0 .proceed] ++ passing).map
    (⟨·, now⟩)

/-- With three stages it has named six, and calls itself all done. -/
theorem progress_of_alternatingRun :
    (initial.restored .initial alternating singleAttempt ⟨.zero, ⟨0, 0⟩⟩).Along .initial
        (Created (.ofNat 1)) (alternatingRun ⟨.zero, ⟨0, 0⟩⟩) ∧
      ∃ r, ((initial.restored .initial alternating singleAttempt ⟨.zero, ⟨0, 0⟩⟩).run .initial
          (alternatingRun ⟨.zero, ⟨0, 0⟩⟩)).store.get? (.ofNat 1) = some r ∧
        r.pipeline.distinct = 3 ∧ r.pipeline.completed.length = 6 ∧ r.pipeline.progress = 100 ∧
        r.pipeline.nextPending ≠ none := by
  have hes : (initial.restored .initial alternating singleAttempt ⟨.zero, ⟨0, 0⟩⟩).Along .initial
      (Created (.ofNat 1)) (alternatingRun ⟨.zero, ⟨0, 0⟩⟩) := by
    simp [alternatingRun, passing, Created, Event.Fresh, Event.Restores]
  obtain ⟨q, r, hq, -, hget, -, hlength, hprogress, hnone, -⟩ :=
    progress_of_restored (p := alternating) hes
  have hrepeats : q.repeats = 3 := by
    rw [← hq]
    decide
  have hdistinct : r.pipeline.distinct = 3 := by
    obtain rfl := Option.some.inj (hget.symm.trans (rfl : _ = some _))
    decide
  rw [hdistinct, hrepeats] at hlength hprogress
  refine ⟨hes, r, hget, hdistinct, hlength, hprogress, fun h => ?_⟩
  rw [hnone, hdistinct] at h
  contradiction

/-- Already with two stages, as it is restored, it has named five. -/
theorem not_nodup_of_alternating :
    ∃ q, (Engine.restore alternating singleAttempt ⟨.zero, ⟨0, 0⟩⟩ .empty).value = q ∧
      ¬ q.completed.Nodup ∧ q.progress = 100 ∧ q.distinct = 2 ∧ q.nextPending = some .coding :=
  ⟨_, rfl, by decide, by decide, by decide, by decide⟩

end Fleet

end StagedPipeline
