import StagedPipeline.Proofs.Driving.Continuation
import StagedPipeline.Proofs.Driving.Prompting
import StagedPipeline.Proofs.Driving.Reporting
import StagedPipeline.Proofs.Driving.Takeover
import StagedPipeline.Proofs.Pipeline.Reconciliation

/-!
# Artifacts from before a restore

A restore takes completed stages back and leaves the artifacts where they are. A stage that is run
again is completed with a new result, but the artifact of that result is taken over only if there is
none of the stage yet: the one from before the restore stays, and it is what the later stages are
told of. A report puts together the artifacts of all results, and in it the new one counts
(`Fleet.artifact_of_rerun`).
-/

namespace StagedPipeline

/-! ### Artifacts put together -/

namespace ArtifactSet

/-- Of several artifacts of a stage that are added, the first one counts, and none if there is one
already. -/
theorem get?_foldl_insert (as : List Artifact) (s : ArtifactSet) (stage : Stage) :
    (as.foldl (fun s a => (s.insert a).1) s).get? stage =
      (s.get? stage).or (as.find? (·.stage = stage)) := by
  induction as generalizing s with
  | nil => simp
  | cons a as ih =>
    rw [List.foldl_cons, ih]
    by_cases hstage : a.stage = stage
    · subst hstage
      rw [get?_insert_self, List.find?_cons_of_pos (by simp)]
      cases s.get? a.stage <;> rfl
    · rw [get?_insert_of_ne s (Ne.symm hstage), List.find?_cons_of_neg (by simp [hstage])]

/-- Successful results add what they have. -/
theorem foldl_takeOver_of_success {xs : List StageResult} (h : ∀ x ∈ xs, x.success = true)
    (s : ArtifactSet) : xs.foldl takeOver s =
      (xs.filterMap (·.artifact)).foldl (fun s a => (s.insert a).1) s := by
  induction xs generalizing s with
  | nil => rfl
  | cons x xs ih =>
    obtain ⟨hx, hxs⟩ := List.forall_mem_cons.mp h
    rw [List.foldl_cons, takeOver_of_success s hx, ih hxs]
    cases hartifact : x.artifact with
    | none => rw [List.filterMap_cons_none hartifact]
    | some a => rw [List.filterMap_cons_some hartifact, List.foldl_cons]

end ArtifactSet

namespace PipelineRecord

variable {r₀ r r' : PipelineRecord} {done : List StageResult} {last : Option StageResult}
  {x : StageResult} {stage : Stage} {artifacts : ArtifactSet}

namespace Continues

/-- No stage has been completed twice since then. -/
theorem nodup_stages (h : r₀.Continues r done last) : (done.map (·.stage)).Nodup :=
  (List.nodup_append.mp (h.missing ▸ r₀.pipeline.nodup_missing)).1

/-- The new results of a stage are those that have its artifacts. -/
theorem filter_artifacts (h : r₀.Continues r done last) (stage : Stage) :
    (done.filterMap (·.artifact)).filter (·.stage = stage) =
      (done.filter (·.stage = stage)).filterMap (·.artifact) := by
  rw [List.filter_filterMap, List.filterMap_filter]
  refine List.filterMap_congr fun x hx => ?_
  have hartifact := (h.succeeded x hx).artifact
  cases ha : x.artifact with
  | none => simp
  | some a =>
    have hstage := Artifact.stage_of_decode? (hartifact.symm.trans ha)
    simp [Option.filter, hstage]

theorem filter_stage_of_mem (h : r₀.Continues r done last) (hx : x ∈ done) :
    done.filter (·.stage = x.stage) = [x] := by
  have hnodup := h.nodup_stages
  obtain ⟨front, rest, rfl⟩ := List.append_of_mem hx
  rw [List.map_append, List.map_cons, List.nodup_middle, List.nodup_cons,
    ← List.map_append] at hnodup
  have hother : ∀ y ∈ front ++ rest, y.stage ≠ x.stage := by
    intro y hy heq
    exact hnodup.1 (heq ▸ List.mem_map_of_mem hy)
  have hfront : front.filter (·.stage = x.stage) = [] :=
    List.filter_eq_nil_iff.mpr fun y hy => by simpa using hother y (List.mem_append_left _ hy)
  have hrest : rest.filter (·.stage = x.stage) = [] :=
    List.filter_eq_nil_iff.mpr fun y hy => by simpa using hother y (List.mem_append_right _ hy)
  rw [List.filter_append, List.filter_cons_of_pos (by simp), hfront, hrest, List.nil_append]

/-- A stage that was completed before has no new result. -/
theorem filter_stage_of_completed (h : r₀.Continues r done last)
    (hstage : stage ∈ r₀.pipeline.completed) : done.filter (·.stage = stage) = [] := by
  rw [List.filter_eq_nil_iff]
  intro x hx
  rw [decide_eq_true_iff]
  rintro rfl
  have hmissing : x.stage ∈ r₀.pipeline.missing :=
    h.missing ▸ List.mem_append_left _ (List.mem_map_of_mem hx)
  exact Pipeline.mem_missing.mp hmissing hstage

/-- A stage that has been completed since then has a new result. -/
theorem exists_result (h : r₀.Continues r done last) (hopen : stage ∉ r₀.pipeline.completed)
    (hdone : stage ∈ r.pipeline.completed) : ∃ x ∈ done, x.stage = stage := by
  rw [h.completed, List.mem_append] at hdone
  exact List.mem_map.mp (hdone.resolve_left hopen)

/-- It is the only success of the stage among the new results. -/
theorem success_iff (h : r₀.Continues r done last) (hx : x ∈ done) {y : StageResult} :
    y ∈ done ++ last.toList ∧ y.success = true ∧ y.stage = x.stage ↔ y = x := by
  constructor
  · rintro ⟨hy, hsuccess, hstage⟩
    rcases List.mem_append.mp hy with hy | hy
    · exact List.inj_on_of_nodup_map h.nodup_stages hy hx hstage
    · have hfailure := (h.exhausted y (Option.mem_toList.mp hy)).1.success
      simp [hsuccess] at hfailure
  · rintro rfl
    exact ⟨List.mem_append_left _ hx, (h.succeeded y hx).success, rfl⟩

/-- What the record has of a stage: what it had, and else what the new result has. -/
theorem get?_artifacts (h : r₀.Continues r done last) (stage : Stage) :
    r.pipeline.artifacts.get? stage = (r₀.pipeline.artifacts.get? stage).or
      ((done.filter (·.stage = stage)).filterMap (·.artifact)).head? := by
  have hsuccess : ∀ x ∈ done, x.success = true := fun x hx => (h.succeeded x hx).success
  rw [h.artifacts, ArtifactSet.foldl_takeOver_of_success hsuccess, ArtifactSet.get?_foldl_insert,
    ← List.head?_filter, h.filter_artifacts]

/-- What a report has of a stage: what the new result has, and else what it had before. -/
theorem get?_report (h : r₀.Continues r done last) (stage : Stage) :
    (Report.ofPipeline r.pipeline).artifacts.get? stage =
      ((done.filter (·.stage = stage)).filterMap (·.artifact)).getLast?.or
        ((Report.ofPipeline r₀.pipeline).artifacts.get? stage) := by
  have hlast : last.toList.filterMap (·.artifact) = [] := by
    rw [List.filterMap_eq_nil_iff]
    intro x hx
    exact (h.exhausted x (Option.mem_toList.mp hx)).1.artifact
  rw [Report.artifacts_ofPipeline, Report.artifacts_ofPipeline, ArtifactSet.get?_ofList,
    ArtifactSet.get?_ofList, h.results, List.filterMap_append, List.filterMap_append, hlast,
    List.append_nil, List.filter_append, List.getLast?_append, h.filter_artifacts]

end Continues

/-- What belongs to the completed stages is still there. -/
def Keeps (r r' : PipelineRecord) : Prop :=
  ∀ stage ∈ r.pipeline.completed, stage ∈ r'.pipeline.completed ∧
    r'.pipeline.artifacts.get? stage = r.pipeline.artifacts.get? stage

theorem Continues.keeps (h : r₀.Continues r done last) : r₀.Keeps r := by
  intro stage hstage
  refine ⟨?_, ?_⟩
  · rw [h.completed]
    exact List.mem_append_left _ hstage
  · rw [h.get?_artifacts, h.filter_stage_of_completed hstage]
    exact Option.or_none

/-- The stages before are completed, and their artifacts are told. -/
def Tells (r : PipelineRecord) (stage : Stage) (artifacts : ArtifactSet) : Prop :=
  ∀ s : Stage, s.index < stage.index → s ∈ r.pipeline.completed ∧
    artifacts.get? s = r.pipeline.artifacts.get? s

theorem Tells.of_keeps (h : r.Tells stage artifacts) (hr : r.Keeps r') :
    r'.Tells stage artifacts := by
  intro s hs
  obtain ⟨hcompleted, hget⟩ := h s hs
  exact ⟨(hr s hcompleted).1, hget.trans (hr s hcompleted).2.symm⟩

end PipelineRecord

/-! ### Steps -/

theorem Point.placed_of_not_live {p : Point} (h : p.isLive = false) (r : PipelineRecord) :
    p.Placed r := by
  cases p with
  | returned result => trivial
  | dropped => trivial
  | _ => contradiction

namespace View

variable {engine : EngineConfig} {id : PipelineId} {v v' : View} {act : Act} {outs : List Output}
  {r₀ : PipelineRecord} {stage : Stage} {sent : CompletionRequest}

/-- The record has gone on from another one, and whoever drives it is placed. -/
structure Continues (r₀ : PipelineRecord) (v : View) : Prop where
  sole : v.Sole
  record : ∃ r done last, v.record = some r ∧ r₀.Continues r done last
  placed : ∀ r n p, v.record = some r → v.points n = some p → p.Placed r

/-- A change of the record that is not about results, and keeps a failure. -/
theorem Continues.of_record {r r' : PipelineRecord} {points : Nat → Option Point}
    (h : Continues r₀ ⟨some r, points⟩) (hsole : Sole ⟨some r', points⟩)
    (hconfig : r'.config = r.config)
    (hresults : r'.pipeline.results = r.pipeline.results)
    (hcompleted : r'.pipeline.completed = r.pipeline.completed)
    (hartifacts : r'.pipeline.artifacts = r.pipeline.artifacts)
    (hended : r.pipeline.status = .failed → r.driven = false →
      r'.pipeline.status = .failed ∧ r'.driven = false) : Continues r₀ ⟨some r', points⟩ where
  sole := hsole
  record := by
    obtain ⟨r, done, last, hr, hcontinues⟩ := h.record
    obtain rfl := Option.some.inj hr
    exact ⟨r', done, last, rfl,
      hcontinues.congr hconfig hresults hcompleted hartifacts hended⟩
  placed := by
    intro r'' n p heq hpoint
    obtain rfl := Option.some.inj heq
    exact (h.placed r n p rfl hpoint).congr hconfig hcompleted hartifacts

/-- A move of the call that drives the pipeline. -/
theorem Continues.of_move {r r' : PipelineRecord} {points : Nat → Option Point} {n : Nat}
    {p p' : Point} {move : Move} (h : Continues r₀ ⟨some r, points⟩)
    (hsole : Sole ⟨some r', Function.update points n (some p')⟩) (hpoint : points n = some p)
    (hmoves : Moves engine id r p move r' p') :
    Continues r₀ ⟨some r', Function.update points n (some p')⟩ := by
  obtain ⟨r, done, last, hr, hcontinues⟩ := h.record
  obtain rfl := Option.some.inj hr
  have hlive : Live ⟨some r, points⟩ n := ⟨p, hpoint, hmoves.isLive⟩
  obtain rfl := hcontinues.last_eq_none ((h.sole.driven r rfl).mp ⟨n, hlive⟩)
  obtain ⟨⟨done', last', hcontinues'⟩, hplaced⟩ :=
    hmoves.continues hcontinues (h.placed r n p rfl hpoint)
  refine ⟨hsole, ⟨r', done', last', rfl, hcontinues'⟩, fun r'' m q heq hq => ?_⟩
  obtain rfl := Option.some.inj heq
  -- the others do not drive the pipeline, and stand nowhere
  rcases update_eq_some_iff.mp hq with ⟨-, rfl⟩ | ⟨hm, hq⟩
  · exact hplaced
  · have hnot : ¬ q.isLive = true := fun hq' => hm (h.sole.unique m n ⟨q, hq, hq'⟩ hlive)
    exact Point.placed_of_not_live (Bool.eq_false_iff.mpr hnot) _

theorem Continues.step (hstep : Step engine id v act outs v') (h : v.Continues r₀)
    (hrestore : ∀ p c, act = .restore p c → p.id ≠ id) : v'.Continues r₀ := by
  have hsole := h.sole.step hstep fun p c hact hid => absurd hid (hrestore p c hact)
  cases hstep with
  | create now haccepted =>
    obtain ⟨r, done, last, hr, -⟩ := h.record
    contradiction
  | restore now hid => exact absurd hid (hrestore _ _ rfl)
  | claim now hentry hdriven hnew =>
    obtain ⟨r, done, last, hr, hcontinues⟩ := h.record
    obtain rfl := Option.some.inj hr
    have hfailed := ne_failed_of_entry hentry
    refine ⟨hsole, ⟨_, done, last, rfl, ?_⟩, ?_⟩
    · exact hcontinues.congr rfl rfl rfl rfl fun hstatus => absurd hstatus hfailed
    · intro r' m p heq hp
      obtain rfl := Option.some.inj heq
      rcases update_eq_some_iff.mp hp with ⟨-, rfl⟩ | ⟨-, hp⟩
      · exact Point.placed_walking_all _
      · exact (h.placed _ m p rfl hp).congr rfl rfl rfl
  | rejoin now hentry hdriven =>
    refine h.of_record hsole rfl rfl rfl rfl fun _ hundriven => ?_
    rw [hdriven] at hundriven
    contradiction
  | pause now hrunning =>
    refine h.of_record hsole rfl rfl rfl rfl fun hfailed _ => ?_
    rw [hrunning] at hfailed
    contradiction
  | cancel now =>
    exact h.of_record hsole rfl rfl rfl rfl fun _ hundriven => ⟨rfl, hundriven⟩
  | move hpoint hmoves => exact h.of_move hsole hpoint hmoves

/-- The record as it is, once it has gone on from another one. -/
theorem Continues.self {r : PipelineRecord} (h : v.Continues r₀) (hr : v.record = some r) :
    v.Continues r :=
  ⟨h.sole, ⟨r, [], none, hr, .refl r⟩, h.placed⟩

/-- What belongs to the completed stages is there after each step. -/
theorem Continues.keeps {r : PipelineRecord} (hstep : Step engine id v act outs v')
    (h : v.Continues r₀) (hrestore : ∀ p c, act = .restore p c → p.id ≠ id)
    (hr : v.record = some r) : ∃ r', v'.record = some r' ∧ r.Keeps r' := by
  obtain ⟨r', done, last, hr', hcontinues⟩ := ((h.self hr).step hstep hrestore).record
  exact ⟨r', hr', hcontinues.keeps⟩

/-- A request is for the next stage, and tells of the artifacts that the record holds. -/
theorem Continues.sent_of_step (hstep : Step engine id v act outs v') (h : v'.Continues r₀)
    (hsent : (stage, sent) ∈ requestsFor id outs) :
    ∃ r, v'.record = some r ∧ r.pipeline.nextPending = some stage ∧
      sent = .ofStage stage r₀.config r.pipeline.artifacts engine.completion := by
  cases hstep with
  | move hpoint hmoves =>
    obtain ⟨trial, wait, rfl, rfl, rfl⟩ := hmoves.exists_waiting hsent
    obtain ⟨r, done, last, hr, hcontinues⟩ := h.record
    have hplaced : trial.Placed r := h.placed r _ _ hr (Function.update_self ..)
    refine ⟨r, hr, hplaced.next, ?_⟩
    rw [Attempt.request, hplaced.config, hplaced.artifacts, hcontinues.config]
  | _ => simp [requestsFor, Output.requestFor?] at hsent

/-- The record has gone on from another one, and every request that has come out tells of the stages
before its own. -/
structure Told (engine : EngineConfig) (r₀ : PipelineRecord) (v : View)
    (log : List (Stage × CompletionRequest)) : Prop where
  continues : v.Continues r₀
  log : ∀ stage sent, (stage, sent) ∈ log → ∃ r artifacts, v.record = some r ∧
    sent = .ofStage stage r₀.config artifacts engine.completion ∧ r.Tells stage artifacts

theorem Told.step {log : List (Stage × CompletionRequest)}
    (hstep : Step engine id v act outs v') (h : v.Told engine r₀ log)
    (hrestore : ∀ p c, act = .restore p c → p.id ≠ id) :
    v'.Told engine r₀ (log ++ requestsFor id outs) := by
  have hcontinues := h.continues.step hstep hrestore
  refine ⟨hcontinues, fun stage sent hsent => ?_⟩
  -- what an earlier request tells of belongs to completed stages, and is kept
  rcases List.mem_append.mp hsent with hold | hnew
  · obtain ⟨r, artifacts, hr, hsent, htells⟩ := h.log stage sent hold
    obtain ⟨r', hr', hkeeps⟩ := h.continues.keeps hstep hrestore hr
    exact ⟨r', artifacts, hr', hsent, htells.of_keeps hkeeps⟩
  · obtain ⟨r', hr', hnext, hsent⟩ := Continues.sent_of_step hstep hcontinues hnew
    refine ⟨r', _, hr', hsent, fun s hs => ⟨?_, rfl⟩⟩
    exact (Pipeline.nextPending_eq_some_iff.mp hnext).2 s hs

end View

/-! ### Runs -/

namespace Fleet

variable {engine : EngineConfig} {s : Fleet} {e : Event} {es : List Event} {id : PipelineId}
  {r₀ r : PipelineRecord} {p : Pipeline} {config : PipelineConfig} {now : Moment} {stage : Stage}

/-- What holds of a pipeline that has gone on from a record, with what has come out since. -/
def Told (engine : EngineConfig) (r₀ : PipelineRecord) (id : PipelineId) (s : Fleet)
    (outs : List Output) : Prop :=
  (s.view id).Told engine r₀ (requestsFor id outs)

theorem told_next (he : s.Created id e) {outs : List Output} (h : s.Told engine r₀ id outs) :
    (s.next engine e).Told engine r₀ id (outs ++ (s.react engine e).2) := by
  rw [Told, requestsFor_append]
  rcases accounted engine he.1 h.continues.sole.known with ⟨hsame, hothers⟩ | hstep
  · rw [hsame, requestsFor_eq_nil hothers, List.append_nil]
    exact h
  · exact h.step hstep he.ne_of_restore

theorem told_of_along (hes : s.Along engine (Created id) es) (h : s.Told engine r₀ id []) :
    (s.run engine es).Told engine r₀ id (s.emitted engine es) :=
  hes.preserves_emitted (fun _ _ _ he h => told_next he h) h

/-- A pipeline that nobody drives when it is restored. -/
theorem told_restored (engine : EngineConfig) (config : PipelineConfig) (now : Moment)
    (hfree : ∀ n, ¬ s.Drives p.id n) :
    (s.restored engine p config now).Told engine (.adopt p config now.instant) p.id [] := by
  have hpoints : ∀ n q, (s.view p.id).points n = some q → q.isLive = false := by
    intro n q hq
    exact Bool.eq_false_iff.mpr fun hlive => hfree n (drives_iff.mpr ⟨q, hq, hlive⟩)
  rw [Told, view_restored engine s config now rfl]
  refine ⟨⟨.of_undriven ?_ rfl ?_, ⟨_, [], none, rfl, .refl _⟩, ?_⟩, by simp⟩
  · rintro n ⟨q, hq, hlive⟩
    simp [hpoints n q hq] at hlive
  · exact .of_undriven rfl (PipelineRecord.status_adopt_ne_running p config now.instant)
  · exact fun r n q _ hq => Point.placed_of_not_live (hpoints n q hq) r

/-- **What a stage has that is run again.** A pipeline that nobody drives is restored. A stage that
is not completed then and is completed later has exactly one successful result since the restore.
The artifact that the pipeline holds of the stage is the one from before the restore, if there was
one, and only otherwise that of the new result; the requests for all later stages tell of the same.
In a report it is the other way round: the new one counts, if there is one. -/
theorem artifact_of_rerun (hfree : ∀ n, ¬ s.Drives p.id n)
    (hes : (s.restored engine p config now).Along engine (Created p.id) es)
    (hget : ((s.restored engine p config now).run engine es).store.get? p.id = some r)
    (hopen : stage ∉ (Engine.restore p config now s.store).value.completed)
    (hdone : stage ∈ r.pipeline.completed) :
    ∃ new x, r.pipeline.results = p.results ++ new ∧
      (∀ y, y ∈ new ∧ y.success = true ∧ y.stage = stage ↔ y = x) ∧
      r.pipeline.artifacts.get? stage =
        (p.artifacts.get? stage).or (Artifact.decode? stage x.output) ∧
      (∀ later sent, (later, sent) ∈ requestsFor p.id
          ((s.restored engine p config now).emitted engine es) → stage.index < later.index →
        ∃ artifacts, sent = .ofStage later config artifacts engine.completion ∧
          artifacts.get? stage = r.pipeline.artifacts.get? stage) ∧
      (Report.ofPipeline r.pipeline).artifacts.get? stage =
        (Artifact.decode? stage x.output).or ((Report.ofPipeline p).artifacts.get? stage) := by
  have htold := told_of_along hes (told_restored engine config now hfree)
  obtain ⟨r', done, last, hr', hcontinues⟩ := htold.continues.record
  obtain rfl := Option.some.inj (hget.symm.trans hr')
  have hresults := PipelineRecord.results_adopt p config now.instant
  have hartifacts := PipelineRecord.artifacts_adopt p config now.instant
  obtain ⟨x, hx, rfl⟩ := hcontinues.exists_result hopen hdone
  have hkind := hcontinues.succeeded x hx
  -- the stage has one new artifact at most, so that the first and the last one are the same
  have hnew : ((done.filter (·.stage = x.stage)).filterMap (·.artifact)) =
      (Artifact.decode? x.stage x.output).toList := by
    rw [hcontinues.filter_stage_of_mem hx, ← hkind.artifact]
    rfl
  refine ⟨done ++ last.toList, x, ?_, fun y => ?_, ?_, fun later sent hsent hlater => ?_, ?_⟩
  · rw [← hresults]
    exact hcontinues.results
  · exact hcontinues.success_iff hx
  · rw [← hartifacts, hcontinues.get?_artifacts, hnew, Option.head?_toList]
  · obtain ⟨r', artifacts, hget', hsent, htells⟩ := htold.log later sent hsent
    obtain rfl := Option.some.inj (hget.symm.trans hget')
    exact ⟨artifacts, hsent, (htells x.stage hlater).2⟩
  · rw [hcontinues.get?_report, hnew, Report.artifacts_ofPipeline, Report.artifacts_ofPipeline,
      hresults]
    cases Artifact.decode? x.stage x.output with
    | none => rfl
    | some a => rfl

/-- A paused pipeline that names its first stage without a result, and has an artifact of it. -/
def outdated : Pipeline :=
  { Pipeline.pending (.ofNat 1) ⟨0, 0⟩ with
    status := .paused
    completed := [.requirements]
    artifacts := .ofList [.requirements ⟨["old"], [], []⟩] }

/-- The stage is run again, with another artifact, and the next one is begun. -/
def outdatedRun (now : Moment) : List Event :=
  [.drive .execute (.ofNat 1), .advance 0 .proceed,
    .advance 0 (.hear (.answered (.ok "\x7b\x7d"))), .advance 0 .proceed,
    .advance 0 .proceed].map (⟨·, now⟩)

/-- The pipeline keeps the artifact it had, and the next stage is told of that one. -/
theorem artifact_of_outdatedRun :
    (∀ n, ¬ initial.Drives (.ofNat 1) n) ∧
      (initial.restored .initial outdated singleAttempt ⟨.zero, ⟨0, 0⟩⟩).Along .initial
        (Created (.ofNat 1)) (outdatedRun ⟨.zero, ⟨0, 0⟩⟩) ∧
      .requirements ∉
        (Engine.restore outdated singleAttempt ⟨.zero, ⟨0, 0⟩⟩ .empty).value.completed ∧
      ∃ r, ((initial.restored .initial outdated singleAttempt ⟨.zero, ⟨0, 0⟩⟩).run .initial
          (outdatedRun ⟨.zero, ⟨0, 0⟩⟩)).store.get? (.ofNat 1) = some r ∧
        .requirements ∈ r.pipeline.completed ∧
        r.pipeline.artifacts.get? .requirements = some (.requirements ⟨["old"], [], []⟩) ∧
        ∃ sent artifacts, (.design, sent) ∈ requestsFor (.ofNat 1)
            ((initial.restored .initial outdated singleAttempt ⟨.zero, ⟨0, 0⟩⟩).emitted .initial
              (outdatedRun ⟨.zero, ⟨0, 0⟩⟩)) ∧
          sent = .ofStage .design singleAttempt artifacts EngineConfig.initial.completion ∧
          artifacts.get? .requirements = some (.requirements ⟨["old"], [], []⟩) := by
  have hfree : ∀ n, ¬ initial.Drives (.ofNat 1) n := by simp [Drives, initial]
  have hes : (initial.restored .initial outdated singleAttempt ⟨.zero, ⟨0, 0⟩⟩).Along .initial
      (Created (.ofNat 1)) (outdatedRun ⟨.zero, ⟨0, 0⟩⟩) := by
    simp [outdatedRun, Created, Event.Fresh, Event.Restores]
  have hopen : .requirements ∉
      (Engine.restore outdated singleAttempt ⟨.zero, ⟨0, 0⟩⟩ .empty).value.completed := by decide
  obtain ⟨r, hget, hdone⟩ : ∃ r,
      ((initial.restored .initial outdated singleAttempt ⟨.zero, ⟨0, 0⟩⟩).run .initial
        (outdatedRun ⟨.zero, ⟨0, 0⟩⟩)).store.get? (.ofNat 1) = some r ∧
      .requirements ∈ r.pipeline.completed := ⟨_, rfl, by decide⟩
  obtain ⟨sent, hmem⟩ : ∃ sent, (.design, sent) ∈ requestsFor (.ofNat 1)
      ((initial.restored .initial outdated singleAttempt ⟨.zero, ⟨0, 0⟩⟩).emitted .initial
        (outdatedRun ⟨.zero, ⟨0, 0⟩⟩)) := ⟨_, .tail _ (.head _)⟩
  obtain ⟨new, x, -, -, hartifact, hrequests, -⟩ :=
    artifact_of_rerun (p := outdated) hfree hes hget hopen hdone
  have hold : outdated.artifacts.get? .requirements = some (.requirements ⟨["old"], [], []⟩) := rfl
  rw [hold, Option.some_or] at hartifact
  obtain ⟨artifacts, hsent, htold⟩ := hrequests .design sent hmem (by decide)
  exact ⟨hfree, hes, hopen, r, hget, hdone, hartifact, sent, artifacts, hmem, hsent,
    htold.trans hartifact⟩

/-- What is decoded from the new result is another artifact, which only the report shows. -/
theorem outdated_artifact_kept :
    ∃ r x, ((initial.restored .initial outdated singleAttempt ⟨.zero, ⟨0, 0⟩⟩).run .initial
        (outdatedRun ⟨.zero, ⟨0, 0⟩⟩)).store.get? (.ofNat 1) = some r ∧
      r.pipeline.results = [x] ∧ x.success = true ∧ x.stage = .requirements ∧
      Artifact.decode? .requirements x.output = some (.requirements ⟨[], [], []⟩) ∧
      r.pipeline.artifacts.get? .requirements = some (.requirements ⟨["old"], [], []⟩) ∧
      (Report.ofPipeline r.pipeline).artifacts.get? .requirements =
        some (.requirements ⟨[], [], []⟩) :=
  ⟨_, _, rfl, rfl, rfl, rfl, rfl, rfl, rfl⟩

end Fleet

end StagedPipeline
