import StagedPipeline.Proofs.Driving.Outcome

/-!
# Going on from any record

A record that was restored need not be regular: which stages are completed, which results there are
and which artifacts, is what the pipeline from outside says. All the same, what driving calls add to
such a record is regular. They work on the stages that are missing, one after the other
(`Pipeline.missing`), and leave one result for each of them behind the old ones; at most one of
these results is a failure, and then it is the last one (`PipelineRecord.Continues`). For that it
takes nothing but that a call stands behind completed stages only (`Point.Placed`).
-/

namespace StagedPipeline

/-! ### Missing stages -/

namespace Pipeline

variable {p q : Pipeline} {stage : Stage}

/-- The stages that are not completed, in execution order. -/
def missing (p : Pipeline) : List Stage :=
  Stage.all.filter fun stage => !p.hasCompleted stage

theorem hasCompleted_iff : p.hasCompleted stage = true ↔ stage ∈ p.completed :=
  List.contains_iff_mem

theorem hasCompleted_eq_false_iff : p.hasCompleted stage = false ↔ stage ∉ p.completed := by
  rw [← hasCompleted_iff, Bool.not_eq_true]

theorem mem_missing : stage ∈ p.missing ↔ stage ∉ p.completed := by
  simp [missing, Stage.mem_all, hasCompleted_eq_false_iff]

theorem nodup_missing (p : Pipeline) : p.missing.Nodup :=
  (by decide : Stage.all.Nodup).filter _

/-- What is missing is a matter of the completed stages alone. -/
theorem missing_congr (h : q.completed = p.completed) : q.missing = p.missing := by
  simp only [missing, hasCompleted, h]

theorem nextPending_congr (h : q.completed = p.completed) : q.nextPending = p.nextPending := by
  simp only [nextPending, hasCompleted, h]

theorem nextPending_eq_head? (p : Pipeline) : p.nextPending = p.missing.head? :=
  List.head?_filter.symm

theorem nextPending_eq_none_iff : p.nextPending = none ↔ p.missing = [] := by
  rw [nextPending_eq_head?, List.head?_eq_none_iff]

/-- The next stage is the one behind completed stages that is not completed itself. -/
theorem nextPending_eq_some_iff : p.nextPending = some stage ↔
    stage ∉ p.completed ∧ ∀ s : Stage, s.index < stage.index → s ∈ p.completed := by
  have hsplit : Stage.all = Stage.all.take stage.index ++ stage :: stage.after := by
    rw [← Stage.drop_eq_cons_iff.mpr ⟨rfl, rfl⟩, List.take_append_drop]
  unfold nextPending
  rw [List.find?_eq_some_iff_append]
  simp only [Bool.not_eq_true', hasCompleted_eq_false_iff, Bool.not_not, hasCompleted_iff]
  refine and_congr_right fun _ => ⟨?_, ?_⟩
  · rintro ⟨front, rest, hall, hfront⟩ s hs
    have hindex : stage.index = front.length :=
      Stage.getElem?_all_eq_some_iff.mp (by rw [hall]; simp)
    have htake : front = Stage.all.take stage.index := by rw [hall, hindex, List.take_left]
    exact hfront s (htake ▸ Stage.mem_take_iff.mpr hs)
  · exact fun h => ⟨_, _, hsplit, fun s hs => h s (Stage.mem_take_iff.mp hs)⟩

/-- Once the next stage is completed, the stages behind it are missing. -/
theorem missing_eq_cons (h : p.nextPending = some stage)
    (hcompleted : q.completed = p.completed ++ [stage]) : p.missing = stage :: q.missing := by
  -- the next stage is the first one that is missing, and no stage is missing twice
  rw [nextPending_eq_head?] at h
  obtain ⟨rest, hrest⟩ := List.head?_eq_some_iff.mp h
  have hnot : stage ∉ rest := (List.nodup_cons.mp (hrest ▸ p.nodup_missing)).1
  have hmissing : q.missing = p.missing.filter (· ≠ stage) := by
    simp only [missing, List.filter_filter]
    refine List.filter_congr fun s _ => ?_
    simp [hasCompleted, hcompleted, Bool.and_comm]
  rw [hmissing, hrest, List.filter_cons_of_neg (by simp), List.filter_eq_self.mpr]
  intro s hs
  simpa using fun heq : s = stage => hnot (heq ▸ hs)

end Pipeline

/-! ### What has been added to a record -/

namespace PipelineRecord

/-- The record has gone on from another one, whatever that was. Stages that were missing have been
completed, in order and each with its result, and the artifacts of these results were taken over. At
most one result more is there, of the next stage; it has ended the pipeline. -/
structure Continues (r₀ r : PipelineRecord) (done : List StageResult)
    (last : Option StageResult) : Prop where
  config : r.config = r₀.config
  results : r.pipeline.results = r₀.pipeline.results ++ (done ++ last.toList)
  completed : r.pipeline.completed = r₀.pipeline.completed ++ done.map (·.stage)
  missing : done.map (·.stage) ++ r.pipeline.missing = r₀.pipeline.missing
  artifacts : r.pipeline.artifacts = done.foldl .takeOver r₀.pipeline.artifacts
  succeeded : ∀ x ∈ done, x.Succeeded r₀.config.retryBudget
  exhausted : ∀ x ∈ last, x.Exhausted r₀.config.retryBudget ∧
    r.pipeline.nextPending = some x.stage ∧ r.pipeline.status = .failed ∧ r.driven = false

namespace Continues

variable {r₀ r r' : PipelineRecord} {done : List StageResult} {last : Option StageResult}
  {x : StageResult} {now : Instant}

theorem refl (r : PipelineRecord) : r.Continues r [] none where
  config := rfl
  results := (List.append_nil _).symm
  completed := (List.append_nil _).symm
  missing := rfl
  artifacts := rfl
  succeeded := by simp
  exhausted := by simp

/-- A change that is not about results. One that has ended in a failure stays so. -/
theorem congr (h : r₀.Continues r done last) (hconfig : r'.config = r.config)
    (hresults : r'.pipeline.results = r.pipeline.results)
    (hcompleted : r'.pipeline.completed = r.pipeline.completed)
    (hartifacts : r'.pipeline.artifacts = r.pipeline.artifacts)
    (hended : r.pipeline.status = .failed → r.driven = false →
      r'.pipeline.status = .failed ∧ r'.driven = false) : r₀.Continues r' done last where
  config := hconfig.trans h.config
  results := hresults.trans h.results
  completed := hcompleted.trans h.completed
  missing := by rw [Pipeline.missing_congr hcompleted, h.missing]
  artifacts := hartifacts.trans h.artifacts
  succeeded := h.succeeded
  exhausted := by
    intro x hx
    obtain ⟨hexhausted, hnext, hfailed, hdriven⟩ := h.exhausted x hx
    exact ⟨hexhausted, (Pipeline.nextPending_congr hcompleted).trans hnext,
      hended hfailed hdriven⟩

/-- The driver is given up. -/
theorem undriven (h : r₀.Continues r done last) :
    r₀.Continues { r with driven := false } done last :=
  h.congr rfl rfl rfl rfl fun hfailed _ => ⟨hfailed, rfl⟩

/-- No result more is there as long as the pipeline has a driver. -/
theorem last_eq_none (h : r₀.Continues r done last) (hdriven : r.driven = true) : last = none := by
  cases last with
  | none => rfl
  | some x => simp [(h.exhausted x rfl).2.2.2] at hdriven

theorem addResult_of_success (h : r₀.Continues r done none)
    (hnext : r.pipeline.nextPending = some x.stage) (hx : x.Succeeded r₀.config.retryBudget) :
    r₀.Continues { r with pipeline := r.pipeline.addResult x now } (done ++ [x]) none := by
  have hopen := Pipeline.hasCompleted_eq_false_iff.mpr (Pipeline.nextPending_eq_some_iff.mp hnext).1
  have hcompleted := r.pipeline.completed_addResult_of_success x now hx.success hopen
  refine ⟨h.config, ?_, ?_, ?_, ?_, ?_, by simp⟩
  · simp [h.results]
  · simp [hcompleted, h.completed]
  · rw [List.map_append, List.append_assoc, ← h.missing,
      Pipeline.missing_eq_cons hnext hcompleted]
    rfl
  · rw [List.foldl_append, ← h.artifacts, List.foldl_cons, List.foldl_nil,
      ArtifactSet.takeOver_of_success _ hx.success]
    exact r.pipeline.artifacts_addResult_of_success x now hx.success hopen
  · intro y hy
    rcases List.mem_append.mp hy with hy | hy
    · exact h.succeeded y hy
    · exact List.mem_singleton.mp hy ▸ hx

theorem addResult_of_failure (h : r₀.Continues r done none)
    (hnext : r.pipeline.nextPending = some x.stage) (hx : x.Exhausted r₀.config.retryBudget) :
    r₀.Continues
      { r with
        pipeline := (r.pipeline.addResult x now).setStatus .failed now
        driven := false } done (some x) := by
  have hcompleted := r.pipeline.completed_addResult_of_failure x now hx.success
  have hartifacts := r.pipeline.artifacts_addResult_of_failure x now hx.success
  refine ⟨h.config, ?_, hcompleted.trans h.completed, ?_, hartifacts.trans h.artifacts,
    h.succeeded, ?_⟩
  · simp [Pipeline.setStatus, h.results]
  · exact (congrArg _ (Pipeline.missing_congr hcompleted)).trans h.missing
  · intro y hy
    obtain rfl := Option.some.inj hy
    exact ⟨hx, (Pipeline.nextPending_congr hcompleted).trans hnext, rfl, rfl⟩

end Continues

end PipelineRecord

/-! ### Where a driving call stands -/

/-- A trial that works on the next stage, with what the record holds. -/
structure Trial.Placed (r : PipelineRecord) (t : Trial) : Prop where
  next : r.pipeline.nextPending = some t.attempt.stage
  config : t.attempt.config = r.config
  artifacts : t.attempt.artifacts = r.pipeline.artifacts
  budget : t.WithinBudget

/-- A result of the next stage. -/
structure StageResult.Placed (r : PipelineRecord) (x : StageResult) : Prop where
  next : r.pipeline.nextPending = some x.stage
  kind : x.Succeeded r.config.retryBudget ∨ x.Exhausted r.config.retryBudget

/-- A driving call stands behind completed stages only, and works on the next one. -/
def Point.Placed (r : PipelineRecord) : Point → Prop
  | walking ahead => ∃ k, ahead = Stage.all.drop k ∧
      ∀ stage : Stage, stage.index < k → stage ∈ r.pipeline.completed
  | waiting trial _ => trial.Placed r
  | settling x => x.Placed r
  | _ => True

theorem StageResult.Placed.succeeded {r : PipelineRecord} {x : StageResult} (h : x.Placed r)
    (hsuccess : x.success = true) : x.Succeeded r.config.retryBudget := by
  refine h.kind.resolve_right ?_
  intro hexhausted
  simp [hexhausted.success] at hsuccess

theorem StageResult.Placed.exhausted {r : PipelineRecord} {x : StageResult} (h : x.Placed r)
    (hsuccess : x.success = false) : x.Exhausted r.config.retryBudget := by
  refine h.kind.resolve_left ?_
  intro hsucceeded
  simp [hsucceeded.success] at hsuccess

/-- A trial that has gone on, or its result. -/
theorem Trial.Placed.of_step {r : PipelineRecord} {settings : TrialSettings} {trial : Trial}
    {now : Duration} {signal : Signal} {progress : Trial.Progress} (h : trial.Placed r)
    (hstep : trial.Step settings now signal progress) : (Point.ofTrial progress).Placed r := by
  cases progress with
  | waiting trial' wait =>
    have heq := hstep.attempt_eq
    exact ⟨heq ▸ h.next, heq ▸ h.config, heq ▸ h.artifacts, h.budget.of_step hstep⟩
  | finished x =>
    exact ⟨hstep.stage_eq ▸ h.next, h.config ▸ h.budget.kind_of_step hstep⟩

namespace Point

variable {r r' : PipelineRecord} {p : Point}

/-- In front of all stages nothing is asked of the record. -/
theorem placed_walking_all (r : PipelineRecord) : (walking Stage.all).Placed r :=
  ⟨0, rfl, nofun⟩

/-- A call only knows what is completed, and what it is given for its stage. -/
theorem Placed.congr (h : p.Placed r) (hconfig : r'.config = r.config)
    (hcompleted : r'.pipeline.completed = r.pipeline.completed)
    (hartifacts : r'.pipeline.artifacts = r.pipeline.artifacts) : p.Placed r' := by
  cases p with
  | walking ahead =>
    obtain ⟨k, hahead, hbefore⟩ := h
    exact ⟨k, hahead, hcompleted ▸ hbefore⟩
  | waiting trial wait =>
    exact ⟨(Pipeline.nextPending_congr hcompleted).trans h.next, h.config.trans hconfig.symm,
      h.artifacts.trans hartifacts.symm, h.budget⟩
  | settling x =>
    exact ⟨(Pipeline.nextPending_congr hcompleted).trans h.next, hconfig ▸ h.kind⟩
  | returned result => trivial
  | dropped => trivial

/-- A call that passes over a completed stage. -/
theorem Placed.skip {stage : Stage} {ahead : List Stage} (h : (walking (stage :: ahead)).Placed r)
    (hdone : r.pipeline.hasCompleted stage = true) : (walking ahead).Placed r := by
  obtain ⟨k, hahead, hbefore⟩ := h
  obtain ⟨hstage, hafter⟩ := Stage.drop_eq_cons_iff.mp hahead.symm
  refine ⟨stage.index + 1, hafter, fun s hs => ?_⟩
  rcases Nat.lt_succ_iff_lt_or_eq.mp hs with hlt | heq
  · exact hbefore s (hstage ▸ hlt)
  · rw [Stage.index_injective heq]
    exact Pipeline.hasCompleted_iff.mp hdone

/-- A call comes to a stage that is not completed: it is the next one. -/
theorem Placed.nextPending {stage : Stage} {ahead : List Stage}
    (h : (walking (stage :: ahead)).Placed r) (hopen : r.pipeline.hasCompleted stage = false) :
    r.pipeline.nextPending = some stage := by
  obtain ⟨k, hahead, hbefore⟩ := h
  obtain ⟨hstage, -⟩ := Stage.drop_eq_cons_iff.mp hahead.symm
  exact Pipeline.nextPending_eq_some_iff.mpr
    ⟨Pipeline.hasCompleted_eq_false_iff.mp hopen, fun s hs => hbefore s (hstage ▸ hs)⟩

/-- Behind the last stage none is missing. -/
theorem Placed.missing_eq_nil (h : (walking []).Placed r) : r.pipeline.missing = [] := by
  obtain ⟨k, hahead, hbefore⟩ := h
  have hcount : Stage.count ≤ k := List.drop_eq_nil_iff.mp hahead.symm
  rw [List.eq_nil_iff_forall_not_mem]
  intro stage hstage
  exact Pipeline.mem_missing.mp hstage
    (hbefore stage (Nat.lt_of_lt_of_le stage.index_lt_count hcount))

/-- Behind a stage whose successful result was recorded. -/
theorem Placed.after {x : StageResult} {now : Instant} (h : (settling x).Placed r)
    (hsuccess : x.success = true) :
    (walking x.stage.after).Placed { r with pipeline := r.pipeline.addResult x now } := by
  obtain ⟨hopen, hbefore⟩ := Pipeline.nextPending_eq_some_iff.mp h.next
  refine ⟨x.stage.index + 1, rfl, fun s hs => ?_⟩
  rw [r.pipeline.completed_addResult_of_success x now hsuccess
    (Pipeline.hasCompleted_eq_false_iff.mpr hopen)]
  rcases Nat.lt_succ_iff_lt_or_eq.mp hs with hlt | heq
  · exact List.mem_append_left _ (hbefore s hlt)
  · exact List.mem_append_right _ (List.mem_singleton.mpr (Stage.index_injective heq))

end Point

/-! ### What a move adds -/

section Moves

variable {engine : EngineConfig} {id : PipelineId} {r₀ r r' : PipelineRecord} {p p' : Point}
  {move : Move} {done : List StageResult}

/-- A call that is placed goes on with the record, and is placed again. -/
theorem Moves.continues (hmoves : Moves engine id r p move r' p') (h : r₀.Continues r done none)
    (hp : p.Placed r) : (∃ done' last, r₀.Continues r' done' last) ∧ p'.Placed r' := by
  -- only a result that is handed in adds anything; all else keeps results, stages and artifacts
  cases hmoves with
  | halt hpaused => exact ⟨⟨_, _, h.undriven⟩, trivial⟩
  | stop hfailed => exact ⟨⟨_, _, h.undriven⟩, trivial⟩
  | skip hpaused hfailed hdone => exact ⟨⟨_, _, h⟩, hp.skip hdone⟩
  | begin now hpaused hfailed hopen =>
    exact ⟨⟨_, _, h.congr rfl rfl rfl rfl fun hfailed hdriven => ⟨hfailed, hdriven⟩⟩,
      hp.nextPending hopen, rfl, rfl, by simp, by simp⟩
  | complete now hfailed =>
    exact ⟨⟨_, _, h.congr rfl rfl rfl rfl fun hstatus => absurd hstatus hfailed⟩, trivial⟩
  | hear hresume => exact ⟨⟨_, _, h⟩, Trial.Placed.of_step hp (Trial.Step.of_resume hresume)⟩
  | discard hfailed => exact ⟨⟨_, _, h.undriven⟩, trivial⟩
  | record now hfailed hsuccess =>
    exact ⟨⟨_, _, h.addResult_of_success hp.next (h.config ▸ hp.succeeded hsuccess)⟩,
      hp.after hsuccess⟩
  | fail now hfailed hsuccess =>
    exact ⟨⟨_, _, h.addResult_of_failure hp.next (h.config ▸ hp.exhausted hsuccess)⟩, trivial⟩
  | drop now =>
    refine ⟨⟨done, none, ?_⟩, trivial⟩
    unfold PipelineRecord.release
    dsimp only
    split
    · rename_i hrunning
      exact h.congr rfl rfl rfl rfl fun hfailed => by simp [hrunning] at hfailed
    · exact h.undriven

end Moves

end StagedPipeline
