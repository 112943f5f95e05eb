import StagedPipeline.Proofs.Driving.Regularity
import StagedPipeline.Proofs.Driving.Requests

/-!
# What the executor is told

A request for a stage is made from the settings of the pipeline and from the artifacts that its
record holds when the stage is begun. In the meantime the record may change and the pipeline may be
cancelled, but a call that waits at a stage keeps what it was given
(`View.Informed.waiting`), and what it was given are the artifacts of the stages before, which the
record never changes any more (`PipelineRecord.Extends`). So all requests for a stage are the same,
and tell of the results in front of it (`Fleet.request_of_created`).
-/

namespace StagedPipeline

/-! ### The artifacts in front of a stage -/

namespace PipelineRecord

variable {r r' : PipelineRecord} {stage s : Stage} {artifacts : ArtifactSet} {a : Artifact}

/-- The artifacts are those of the stages before, all of which are completed. -/
structure Informs (r : PipelineRecord) (stage : Stage) (artifacts : ArtifactSet) : Prop where
  completed : stage.index ≤ r.pipeline.completed.length
  get? : ∀ s, artifacts.get? s =
    if s.index < stage.index then r.pipeline.artifacts.get? s else none

/-- A record has gone on from another one: what belongs to the completed stages is still there. -/
structure Extends (r r' : PipelineRecord) : Prop where
  config : r'.config = r.config
  completed : r.pipeline.completed.length ≤ r'.pipeline.completed.length
  artifacts : ∀ s : Stage, s.index < r.pipeline.completed.length →
    r'.pipeline.artifacts.get? s = r.pipeline.artifacts.get? s

/-- A change that is not about what is completed. -/
theorem Extends.of_eq (hconfig : r'.config = r.config)
    (hcompleted : r'.pipeline.completed = r.pipeline.completed)
    (hartifacts : r'.pipeline.artifacts = r.pipeline.artifacts) : r.Extends r' where
  config := hconfig
  completed := Nat.le_of_eq (by rw [hcompleted])
  artifacts _ _ := by rw [hartifacts]

theorem Informs.of_extends (h : r.Informs stage artifacts) (hr : r.Extends r') :
    r'.Informs stage artifacts where
  completed := Nat.le_trans h.completed hr.completed
  get? s := by
    rw [h.get? s]
    split
    · rename_i hs
      rw [hr.artifacts s (Nat.lt_of_lt_of_le hs h.completed)]
    · rfl

/-- Two sets of artifacts in front of a stage are the same. -/
theorem Informs.unique {artifacts' : ArtifactSet} (h : r.Informs stage artifacts)
    (h' : r.Informs stage artifacts') : artifacts = artifacts' :=
  ArtifactSet.ext_get? fun s => (h.get? s).trans (h'.get? s).symm

namespace Regular

/-- A successful result has the artifact that is read in its output. -/
theorem artifact_eq (h : r.Regular) {x : StageResult} (hx : x ∈ r.pipeline.results)
    (hsuccess : x.success = true) :
    x.stage ∈ r.pipeline.completed ∧ x.artifact = Artifact.decode? x.stage x.output := by
  obtain ⟨done, last, hresults, hdone, hsucceeded, hlast⟩ := h.results
  rw [hresults] at hx
  rcases List.mem_append.mp hx with hx | hx
  · refine ⟨?_, (hsucceeded x hx).artifact⟩
    rw [← hdone]
    exact List.mem_map_of_mem hx
  · have hexhausted := (hlast x (Option.mem_toList.mp hx)).1
    simp [hexhausted.success] at hsuccess

/-- Only completed stages have artifacts. -/
theorem index_lt_of_get? (h : r.Regular) (ha : r.pipeline.artifacts.get? s = some a) :
    s.index < r.pipeline.completed.length := by
  obtain ⟨x, hx, hsuccess, rfl, -⟩ := (h.artifacts s a).mp ha
  have hmem := (h.artifact_eq hx hsuccess).1
  rwa [h.completed, Stage.mem_take_iff] at hmem

/-- All artifacts of a record are those in front of the next stage. -/
theorem informs (h : r.Regular) (hstage : stage.index = r.pipeline.completed.length) :
    r.Informs stage r.pipeline.artifacts where
  completed := Nat.le_of_eq hstage
  get? s := by
    split
    · rfl
    · rename_i hs
      cases ha : r.pipeline.artifacts.get? s with
      | none => rfl
      | some a => exact absurd (hstage ▸ h.index_lt_of_get? ha) hs

/-- What the artifacts in front of a stage are, in terms of the results. -/
theorem get?_eq_some_iff (h : r.Regular) (hinforms : r.Informs stage artifacts) :
    artifacts.get? s = some a ↔
      s ∈ stage.before ∧ ∃ x ∈ r.pipeline.results, x.success = true ∧ x.stage = s ∧
        Artifact.decode? s x.output = some a := by
  rw [hinforms.get? s, Stage.before, Stage.mem_take_iff]
  split
  · rename_i hs
    rw [h.artifacts]
    constructor
    · rintro ⟨x, hx, hsuccess, rfl, hartifact⟩
      exact ⟨hs, x, hx, hsuccess, rfl, (h.artifact_eq hx hsuccess).2 ▸ hartifact⟩
    · rintro ⟨-, x, hx, hsuccess, rfl, hdecode⟩
      exact ⟨x, hx, hsuccess, rfl, (h.artifact_eq hx hsuccess).2.trans hdecode⟩
  · rename_i hs
    constructor
    · nofun
    · rintro ⟨hs', -⟩
      exact absurd hs' hs

end Regular

end PipelineRecord

/-! ### What a move sends -/

section Moves

variable {engine : EngineConfig} {id : PipelineId} {r r' : PipelineRecord} {p p' : Point}
  {move : Move} {n : Nat} {stage : Stage} {sent : CompletionRequest}

/-- What comes out in a move is the request of the attempt that the call waits at. -/
theorem Moves.exists_waiting (hmoves : Moves engine id r p move r' p')
    (h : (stage, sent) ∈ requestsFor id (p'.outputs n id)) :
    ∃ trial wait, p' = .waiting trial wait ∧ trial.attempt.stage = stage ∧
      sent = trial.attempt.request engine.completion := by
  cases hmoves with
  | begin now hpaused hfailed hopen =>
    simp only [Point.outputs, requestsFor, Output.requestFor?, List.filterMap_cons, if_true,
      List.filterMap_nil, List.mem_singleton, Prod.mk.injEq] at h
    obtain ⟨rfl, rfl⟩ := h
    exact ⟨_, _, rfl, rfl, rfl⟩
  | hear hresume =>
    cases Trial.Step.of_resume hresume with
    | again hresting =>
      simp only [Point.ofTrial, Point.outputs, requestsFor, Output.requestFor?,
        List.filterMap_cons, if_true, List.filterMap_nil, List.mem_singleton, Prod.mk.injEq] at h
      obtain ⟨rfl, rfl⟩ := h
      exact ⟨_, _, rfl, rfl, rfl⟩
    | _ => contradiction
  | _ => contradiction

/-- A call that waits at a stage keeps what it was given for it, also after a cancel. -/
theorem Moves.regular_trial (hmoves : Moves engine id r p move r' p') (hdriven : r.Driven p)
    (h : ∀ trial wait, p = .waiting trial wait → trial.Regular r) {trial : Trial} {wait : Wait}
    (hp' : p' = .waiting trial wait) : trial.Regular r' := by
  have hregular := (hmoves.regular hdriven).2
  cases hmoves with
  | begin now hpaused hfailed hopen =>
    have hpoint := hregular hfailed
    rw [hp'] at hpoint
    exact hpoint
  | hear hresume =>
    have hpoint := (h _ _ rfl).of_resume hresume
    rw [hp'] at hpoint
    exact hpoint
  | _ => contradiction

/-- A move keeps what belongs to the completed stages. -/
theorem Moves.extends (hmoves : Moves engine id r p move r' p') (hdriven : r.Driven p) :
    r.Extends r' := by
  cases hmoves with
  | record now hfailed hsuccess =>
    have hresult := hdriven.point hfailed
    refine ⟨rfl, ?_, ?_⟩
    · rw [Pipeline.completed_addResult_of_success _ _ _ hsuccess
        (hdriven.record.hasCompleted_eq_false hresult.stage), List.length_append]
      exact Nat.le_add_right _ _
    · intro s hs
      rw [hdriven.record.get?_artifacts_addResult now.instant hfailed hresult.stage
        (hresult.succeeded hsuccess), if_neg]
      rintro rfl
      exact Nat.lt_irrefl _ (hresult.stage ▸ hs)
  | fail now hfailed hsuccess =>
    exact .of_eq rfl (Pipeline.completed_addResult_of_failure _ _ now.instant hsuccess)
      (Pipeline.artifacts_addResult_of_failure _ _ now.instant hsuccess)
  | drop now =>
    unfold PipelineRecord.release
    dsimp only
    split <;> exact .of_eq rfl rfl rfl
  | _ => exact .of_eq rfl rfl rfl

end Moves

/-! ### The invariant -/

namespace View

variable {engine : EngineConfig} {id : PipelineId} {v v' : View} {act : Act} {outs : List Output}
  {log new : List (Stage × CompletionRequest)}

/-- Every request that has come out tells of the stages before its own, and a call that waits has
what its stage was given. -/
structure Informed (engine : EngineConfig) (v : View) (log : List (Stage × CompletionRequest)) :
    Prop where
  waiting : ∀ r n trial wait, v.record = some r → v.points n = some (.waiting trial wait) →
    trial.Regular r
  log : ∀ stage sent, (stage, sent) ∈ log → ∃ r artifacts, v.record = some r ∧
    sent = .ofStage stage r.config artifacts engine.completion ∧ r.Informs stage artifacts

theorem Informed.of_extends {r r' : PipelineRecord} {points points' : Nat → Option Point}
    (h : Informed engine ⟨some r, points⟩ log) (hr : r.Extends r')
    (hwaiting : ∀ n trial wait, points' n = some (.waiting trial wait) → trial.Regular r')
    (hnew : ∀ stage sent, (stage, sent) ∈ new → ∃ artifacts,
      sent = .ofStage stage r'.config artifacts engine.completion ∧ r'.Informs stage artifacts) :
    Informed engine ⟨some r', points'⟩ (log ++ new) where
  waiting := by
    intro r'' n trial wait heq hpoint
    obtain rfl := Option.some.inj heq
    exact hwaiting n trial wait hpoint
  log := by
    intro stage sent hsent
    rcases List.mem_append.mp hsent with hsent | hsent
    · obtain ⟨r₀, artifacts, heq, hsent, hinforms⟩ := h.log stage sent hsent
      obtain rfl := Option.some.inj heq
      exact ⟨r', artifacts, rfl, by rw [hsent, hr.config], hinforms.of_extends hr⟩
    · obtain ⟨artifacts, hsent, hinforms⟩ := hnew stage sent hsent
      exact ⟨r', artifacts, rfl, hsent, hinforms⟩

/-- A change of the status alone. -/
theorem Informed.setStatus {r : PipelineRecord} {points : Nat → Option Point} {status : Status}
    {driven : Bool} {now : Instant} (h : Informed engine ⟨some r, points⟩ log)
    (hnew : new = []) :
    Informed engine
      ⟨some { r with pipeline := r.pipeline.setStatus status now, driven }, points⟩
      (log ++ new) := by
  refine h.of_extends (.of_eq rfl rfl rfl) ?_ (by simp [hnew])
  intro n trial wait hpoint
  have hregular : (Point.waiting trial wait).Regular r := h.waiting r n trial wait rfl hpoint
  exact hregular.congr rfl rfl rfl rfl

theorem Informed.step (hstep : Step engine id v act outs v') (hv : v.Regular)
    (h : v.Informed engine log) (hrestore : ∀ p c, act = .restore p c → p.id ≠ id) :
    v'.Informed engine (log ++ requestsFor id outs) := by
  cases hstep with
  | create now haccepted =>
    refine ⟨fun r n trial wait _ hp => absurd hp (hv.sole.known.ne_some rfl), ?_⟩
    intro stage sent hsent
    rw [show requestsFor id _ = [] from rfl, List.append_nil] at hsent
    obtain ⟨r, artifacts, hr, -⟩ := h.log stage sent hsent
    contradiction
  | restore now hid => exact absurd hid (hrestore _ _ rfl)
  | claim now hentry hdriven hnew =>
    refine h.of_extends (.of_eq rfl rfl rfl) ?_ (by simp)
    intro m trial wait hp
    rcases update_eq_some_iff.mp hp with ⟨-, heq⟩ | ⟨-, hbefore⟩
    · contradiction
    · exact absurd ⟨_, hbefore, rfl⟩ (hv.sole.not_live rfl hdriven m)
  | rejoin now hentry hdriven => exact h.setStatus rfl
  | pause now hrunning => exact h.setStatus rfl
  | cancel now => exact h.setStatus rfl
  | move hpoint hmoves =>
    have hdriven := hv.driven hpoint hmoves.isLive
    have hregular := (hmoves.regular hdriven).1
    have htrial : ∀ {trial wait}, _ = Point.waiting trial wait → trial.Regular _ :=
      hmoves.regular_trial hdriven fun trial wait hp => h.waiting _ _ trial wait rfl (hp ▸ hpoint)
    refine h.of_extends (hmoves.extends hdriven) ?_ ?_
    · intro m trial wait hp
      rcases update_eq_some_iff.mp hp with ⟨-, heq⟩ | ⟨hm, hbefore⟩
      · exact htrial heq
      · exact absurd (hv.sole.unique m _ ⟨_, hbefore, rfl⟩ ⟨_, hpoint, hmoves.isLive⟩) hm
    · intro stage sent hsent
      obtain ⟨trial, wait, hp', rfl, rfl⟩ := hmoves.exists_waiting hsent
      have htrial' := htrial hp'
      refine ⟨trial.attempt.artifacts, ?_, ?_⟩
      · rw [Attempt.request, htrial'.config]
      · rw [htrial'.artifacts]
        exact hregular.informs htrial'.stage

/-- The pipeline is known, with some settings. -/
def Has (config : PipelineConfig) (v : View) : Prop :=
  ∃ r, v.record = some r ∧ r.config = config

theorem Has.known {config : PipelineConfig} (h : v.Has config) : v.Known := by
  obtain ⟨r, hr, -⟩ := h
  exact .of_record hr

/-- The settings of a pipeline stay what they are, unless it is restored. -/
theorem Has.step {config : PipelineConfig} (hstep : Step engine id v act outs v')
    (h : v.Has config) (hrestore : ∀ p c, act = .restore p c → p.id ≠ id) : v'.Has config := by
  obtain ⟨r, hr, hconfig⟩ := h
  cases hstep with
  | create now haccepted => contradiction
  | restore now hid => exact absurd hid (hrestore _ _ rfl)
  | move hpoint hmoves =>
    obtain rfl := Option.some.inj hr
    exact ⟨_, rfl, hmoves.config_eq.trans hconfig⟩
  | _ =>
    obtain rfl := Option.some.inj hr
    exact ⟨_, rfl, hconfig⟩

end View

namespace Fleet

variable {engine : EngineConfig} {s : Fleet} {e : Event} {es : List Event} {id : PipelineId}
  {config : PipelineConfig}

/-- What holds of a pipeline that is not restored, with what has come out so far. -/
def Instructed (engine : EngineConfig) (id : PipelineId) (s : Fleet) (outs : List Output) : Prop :=
  (s.view id).Regular ∧ (s.view id).Informed engine (requestsFor id outs)

theorem instructed_initial (engine : EngineConfig) (id : PipelineId) :
    initial.Instructed engine id [] :=
  ⟨regular_initial id, by simp [view, initial], by simp⟩

theorem instructed_next (he : s.Created id e) {outs : List Output}
    (h : s.Instructed engine id outs) :
    (s.next engine e).Instructed engine id (outs ++ (s.react engine e).2) := by
  obtain ⟨hregular, hinformed⟩ := h
  refine ⟨regular_next he hregular, ?_⟩
  rw [requestsFor_append]
  rcases accounted engine he.1 hregular.sole.known with ⟨hsame, hothers⟩ | hstep
  · rw [hsame, requestsFor_eq_nil hothers, List.append_nil]
    exact hinformed
  · exact hinformed.step hstep hregular he.ne_of_restore

theorem instructed_of_along (hes : initial.Along engine (Created id) es) :
    (initial.run engine es).Instructed engine id (initial.emitted engine es) :=
  hes.preserves_emitted (fun _ _ _ he h => instructed_next he h) (instructed_initial engine id)

/-- A pipeline keeps the settings that it was created with. -/
theorem has_of_created {now : Moment} (hes : initial.Along engine (Created id) es)
    (hcreate : ⟨.create id config, now⟩ ∈ es) (haccepted : config.refusal? = none) :
    ((initial.run engine es).view id).Has config := by
  obtain ⟨front, rest, rfl⟩ := List.append_of_mem hcreate
  obtain ⟨-, -, hrest⟩ := (along_append _ _ _).mp hes
  rw [run_append, run_cons]
  generalize initial.run engine front = s at hrest
  have hcreated : ((s.next engine ⟨.create id config, now⟩).view id).Has config := by
    refine ⟨.ofPipeline (.pending id now.instant) config, ?_, rfl⟩
    rw [next, react_create_of_accepted engine now haccepted]
    exact Store.get?_put_self s.store (.ofPipeline (.pending id now.instant) config)
  exact hrest.preserves_view (fun _ => View.Has.known) (fun _ _ _ _ => View.Has.step) hcreated

/-- **What the executor is sent** for a pipeline that was created, however it is interrupted or
cancelled. Every request for a stage has the prompts of the stage, for the settings of the pipeline
and for exactly the artifacts that are read in the recorded outputs of the stages before it, all of
which are completed; and two requests for one stage are the same. -/
theorem request_of_created {now : Moment} (hes : initial.Along engine (Created id) es)
    (hcreate : ⟨.create id config, now⟩ ∈ es) (haccepted : config.refusal? = none) :
    ∃ r, (initial.run engine es).store.get? id = some r ∧ r.config = config ∧
      (∀ stage sent, (stage, sent) ∈ requestsFor id (initial.emitted engine es) →
        sent.systemPrompt = Prompts.systemText stage ∧
        sent.maxTokens = engine.completion.maxTokens ∧
        sent.temperature = engine.completion.temperature ∧
        ∃ artifacts, sent.userPrompt = Prompts.userText stage config artifacts ∧
          (∀ s ∈ stage.before, s ∈ r.pipeline.completed) ∧
          ∀ s a, artifacts.get? s = some a ↔
            s ∈ stage.before ∧ ∃ x ∈ r.pipeline.results, x.success = true ∧ x.stage = s ∧
              Artifact.decode? s x.output = some a) ∧
      ∀ stage sent sent', (stage, sent) ∈ requestsFor id (initial.emitted engine es) →
        (stage, sent') ∈ requestsFor id (initial.emitted engine es) → sent = sent' := by
  obtain ⟨r, hget, hconfig⟩ := has_of_created hes hcreate haccepted
  obtain ⟨hregular, hinformed⟩ := instructed_of_along hes
  have hr := hregular.record r hget
  have hlog : ∀ stage sent, (stage, sent) ∈ requestsFor id (initial.emitted engine es) →
      ∃ artifacts, sent = .ofStage stage config artifacts engine.completion ∧
        r.Informs stage artifacts := by
    intro stage sent hsent
    obtain ⟨r', artifacts, hget', hsent, hinforms⟩ := hinformed.log stage sent hsent
    obtain rfl := Option.some.inj (hget.symm.trans hget')
    exact ⟨artifacts, hconfig ▸ hsent, hinforms⟩
  refine ⟨r, hget, hconfig, ?_, ?_⟩
  · intro stage sent hsent
    obtain ⟨artifacts, rfl, hinforms⟩ := hlog stage sent hsent
    refine ⟨rfl, rfl, rfl, artifacts, rfl, ?_, fun s a => hr.get?_eq_some_iff hinforms⟩
    intro s hs
    rw [Stage.before, Stage.mem_take_iff] at hs
    rw [hr.completed, Stage.mem_take_iff]
    exact Nat.lt_of_lt_of_le hs hinforms.completed
  · intro stage sent sent' hsent hsent'
    obtain ⟨artifacts, rfl, hinforms⟩ := hlog stage sent hsent
    obtain ⟨artifacts', rfl, hinforms'⟩ := hlog stage sent' hsent'
    rw [hinforms.unique hinforms']

/-- A driver is given up at the first stage, and another one begins it again and goes on to the
second one. -/
def replacedRun (id : PipelineId) (now : Moment) : List Event :=
  [.create id singleAttempt, .drive .execute id, .advance 0 .proceed, .advance 0 .drop,
    .drive .resume id, .advance 1 .proceed, .advance 1 (.hear (.answered (.ok ""))),
    .advance 1 .proceed, .advance 1 .proceed].map (⟨·, now⟩)

theorem along_replacedRun :
    initial.Along .initial (Created (.ofNat 1)) (replacedRun (.ofNat 1) ⟨.zero, ⟨0, 0⟩⟩) := by
  have hget : initial.store.get? (.ofNat 1) = none := rfl
  simp [replacedRun, Created, Event.Fresh, Event.Restores, hget]

/-- The first stage is asked for twice, with the same request, and the second one is not told of an
artifact of its own. -/
theorem requests_of_replacedRun :
    initial.Along .initial (Created (.ofNat 1)) (replacedRun (.ofNat 1) ⟨.zero, ⟨0, 0⟩⟩) ∧
      ⟨.create (.ofNat 1) singleAttempt, ⟨.zero, ⟨0, 0⟩⟩⟩ ∈
        replacedRun (.ofNat 1) ⟨.zero, ⟨0, 0⟩⟩ ∧
      singleAttempt.refusal? = none ∧
      ∃ first again second,
        requestsFor (.ofNat 1) (initial.emitted .initial
            (replacedRun (.ofNat 1) ⟨.zero, ⟨0, 0⟩⟩)) =
          [(.requirements, first), (.requirements, again), (.design, second)] ∧
        first = again ∧
        second.systemPrompt = Prompts.systemText .design ∧
        ∃ artifacts, second.userPrompt = Prompts.userText .design singleAttempt artifacts ∧
          artifacts.get? .design = none := by
  have hcreate : ⟨.create (.ofNat 1) singleAttempt, ⟨.zero, ⟨0, 0⟩⟩⟩ ∈
      replacedRun (.ofNat 1) ⟨.zero, ⟨0, 0⟩⟩ := by simp [replacedRun]
  refine ⟨along_replacedRun, hcreate, rfl, _, _, _, rfl, ?_⟩
  obtain ⟨r, -, -, hrequests, hsame⟩ := request_of_created along_replacedRun hcreate rfl
  refine ⟨hsame .requirements _ _ ?_ ?_, ?_⟩
  · exact .head _
  · exact .tail _ (.head _)
  · obtain ⟨hsystem, -, -, artifacts, huser, -, hartifacts⟩ :=
      hrequests .design _ (.tail _ (.tail _ (.head _)))
    refine ⟨hsystem, artifacts, huser, ?_⟩
    rw [Option.eq_none_iff_forall_ne_some]
    intro a ha
    exact absurd ((hartifacts _ a).mp ha).1 (by decide)

end Fleet

end StagedPipeline
