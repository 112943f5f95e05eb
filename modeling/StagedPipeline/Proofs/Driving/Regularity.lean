import StagedPipeline.Proofs.Driving.RegularRecord
import StagedPipeline.Proofs.Driving.SingleDriver

/-!
# What a run makes of a record

The record of a pipeline that was created, and not restored, is regular wherever a run leads. For
the next move of a driving call to keep it that way, the call has to stand where it belongs:
`Point.Regular` says what it knows about the record. After a cancel it knows nothing any more, but
then it cannot change the record either.
-/

namespace StagedPipeline

/-! ### What a driving call knows -/

/-- A trial that works on the stage behind the completed ones, with what the record holds. -/
structure Trial.Regular (r : PipelineRecord) (t : Trial) : Prop where
  stage : t.attempt.stage.index = r.pipeline.completed.length
  current : r.pipeline.current = some t.attempt.stage
  config : t.attempt.config = r.config
  artifacts : t.attempt.artifacts = r.pipeline.artifacts
  budget : t.WithinBudget

/-- A result of the stage behind the completed ones. -/
structure StageResult.Regular (r : PipelineRecord) (result : StageResult) : Prop where
  stage : result.stage.index = r.pipeline.completed.length
  current : r.pipeline.current = some result.stage
  kind : result.Succeeded r.config.retryBudget ∨ result.Exhausted r.config.retryBudget

/-- Where a driving call stands with respect to the record, as long as the pipeline has not
failed. -/
def Point.Regular (r : PipelineRecord) : Point → Prop
  | walking ahead => ∃ k, k ≤ r.pipeline.completed.length ∧ ahead = Stage.all.drop k
  | waiting trial _ => trial.Regular r
  | settling result => result.Regular r
  | _ => True

/-- A record and the place of a call in front of its next move. -/
structure PipelineRecord.Driven (r : PipelineRecord) (p : Point) : Prop where
  record : r.Regular
  point : r.pipeline.status ≠ .failed → p.Regular r
  /-- A pipeline that has a driver has been started and is not completed. -/
  started : r.pipeline.status ≠ .pending ∧ r.pipeline.status ≠ .completed

section Moves

variable {engine : EngineConfig} {id : PipelineId} {r r' : PipelineRecord} {p p' : Point}
  {move : Move}

theorem StageResult.Regular.succeeded {result : StageResult} (h : result.Regular r)
    (hsuccess : result.success = true) : result.Succeeded r.config.retryBudget := by
  refine h.kind.resolve_right ?_
  intro hexhausted
  simp [hexhausted.success] at hsuccess

theorem StageResult.Regular.exhausted {result : StageResult} (h : result.Regular r)
    (hsuccess : result.success = false) : result.Exhausted r.config.retryBudget := by
  refine h.kind.resolve_left ?_
  intro hsucceeded
  simp [hsucceeded.success] at hsuccess

/-- A trial that has gone on, or its result. -/
theorem Trial.Regular.of_resume {trial : Trial} {signal : Signal} {now : Duration}
    {progress : Trial.Progress} {notices : List Notice} (h : trial.Regular r)
    (hresume : trial.resume (.ofEngine engine) signal now = some (progress, notices)) :
    (Point.ofTrial progress).Regular r := by
  have hstep := Trial.Step.of_resume hresume
  cases progress with
  | waiting trial' wait =>
    have heq := hstep.attempt_eq
    exact ⟨heq ▸ h.stage, heq ▸ h.current, heq ▸ h.config, heq ▸ h.artifacts,
      h.budget.of_step hstep⟩
  | finished result =>
    have heq := hstep.stage_eq
    exact ⟨heq ▸ h.stage, heq ▸ h.current, h.config ▸ h.budget.kind_of_step hstep⟩

theorem PipelineRecord.Driven.running_or_paused (h : r.Driven p)
    (hfailed : r.pipeline.status ≠ .failed) :
    r.pipeline.status = .running ∨ r.pipeline.status = .paused := by
  cases hstatus : r.pipeline.status with
  | pending => exact absurd hstatus h.started.1
  | running => exact .inl rfl
  | paused => exact .inr rfl
  | completed => exact absurd hstatus h.started.2
  | failed => exact absurd hstatus hfailed

/-- A move keeps the record regular, and the call where it belongs. -/
theorem Moves.regular (hmoves : Moves engine id r p move r' p') (h : r.Driven p) :
    r'.Regular ∧ (r'.pipeline.status ≠ .failed → p'.Regular r') := by
  have hworked := h.running_or_paused
  obtain ⟨hrecord, hpoint, -⟩ := h
  cases hmoves with
  | halt hpaused => exact ⟨hrecord.undriven, fun _ => trivial⟩
  | stop hfailed => exact ⟨hrecord.undriven, fun _ => trivial⟩
  | discard hfailed => exact ⟨hrecord.undriven, fun _ => trivial⟩
  | drop now => exact ⟨hrecord.release now.instant, fun _ => trivial⟩
  | skip hpaused hfailed hdone =>
    obtain ⟨k, hk, hahead⟩ := hpoint hfailed
    obtain ⟨hstage, hafter⟩ := Stage.drop_eq_cons_iff.mp hahead.symm
    refine ⟨hrecord, fun _ => ⟨k + 1, ?_, ?_⟩⟩
    · rw [hrecord.hasCompleted_iff, hstage] at hdone
      exact hdone
    · rw [hafter, ← hstage]
      rfl
  | begin now hpaused hfailed hopen =>
    obtain ⟨k, hk, hahead⟩ := hpoint hfailed
    obtain ⟨hstage, -⟩ := Stage.drop_eq_cons_iff.mp hahead.symm
    rename_i stage ahead
    have hindex : stage.index = r.pipeline.completed.length := by
      have hlt := mt (hrecord.hasCompleted_iff stage).mpr (by simp [hopen])
      omega
    exact ⟨hrecord.begin now.instant ((hworked hfailed).resolve_right hpaused) hindex,
      fun _ => ⟨hindex, rfl, rfl, rfl, ⟨by simp, by simp⟩⟩⟩
  | complete now hfailed =>
    obtain ⟨k, hk, hahead⟩ := hpoint hfailed
    have hlen : Stage.count ≤ k := List.drop_eq_nil_iff.mp hahead.symm
    exact ⟨hrecord.complete now.instant hfailed (Nat.le_trans hlen hk), fun _ => trivial⟩
  | hear hresume => exact ⟨hrecord, fun hfailed => (hpoint hfailed).of_resume hresume⟩
  | record now hfailed hsuccess =>
    have hresult := hpoint hfailed
    refine ⟨hrecord.addResult_of_success now.instant (hworked hfailed) hresult.stage
      hresult.current (hresult.succeeded hsuccess), fun _ => ⟨_, ?_, rfl⟩⟩
    rw [Pipeline.completed_addResult_of_success _ _ _ hsuccess
      (hrecord.hasCompleted_eq_false hresult.stage), List.length_append, hresult.stage]
    exact Nat.le_refl _
  | fail now hfailed hsuccess =>
    have hresult := hpoint hfailed
    exact ⟨hrecord.addResult_of_failure now.instant hfailed hresult.stage hresult.current
      (hresult.exhausted hsuccess), fun _ => trivial⟩

end Moves

/-! ### The invariant of a run -/

section Points

variable {r r' : PipelineRecord} {p : Point}

/-- Nothing is asked of a call that has ended. -/
theorem Point.regular_of_not_live (h : p.isLive = false) : p.Regular r := by
  cases p with
  | returned result => trivial
  | dropped => trivial
  | _ => contradiction

/-- A call only knows what is completed, what is worked on, and what it is given for that. -/
theorem Point.Regular.congr (h : p.Regular r)
    (hcompleted : r'.pipeline.completed = r.pipeline.completed)
    (hcurrent : r'.pipeline.current = r.pipeline.current)
    (hartifacts : r'.pipeline.artifacts = r.pipeline.artifacts) (hconfig : r'.config = r.config) :
    p.Regular r' := by
  cases p with
  | walking ahead =>
    obtain ⟨k, hk, hahead⟩ := h
    exact ⟨k, hcompleted ▸ hk, hahead⟩
  | waiting trial wait =>
    exact ⟨hcompleted ▸ h.stage, hcurrent ▸ h.current, hconfig ▸ h.config, hartifacts ▸ h.artifacts,
      h.budget⟩
  | settling result => exact ⟨hcompleted ▸ h.stage, hcurrent ▸ h.current, hconfig ▸ h.kind⟩
  | returned result => trivial
  | dropped => trivial

end Points

namespace View

variable {engine : EngineConfig} {id : PipelineId} {v v' : View} {act : Act} {outs : List Output}

/-- The record is regular, and every call that drives the pipeline is where it belongs. -/
structure Regular (v : View) : Prop where
  sole : v.Sole
  record : ∀ r, v.record = some r → r.Regular
  points : ∀ r, v.record = some r → r.pipeline.status ≠ .failed →
    ∀ n p, v.points n = some p → p.Regular r

theorem Regular.driven {r : PipelineRecord} {points : Nat → Option Point} {n : Nat} {p : Point}
    (h : Regular ⟨some r, points⟩) (hpoint : points n = some p) (hlive : p.isLive = true) :
    r.Driven p where
  record := h.record r rfl
  point hfailed := h.points r rfl hfailed n p hpoint
  started := by
    have hdriven : r.driven = true := (h.sole.driven r rfl).mp ⟨n, p, hpoint, hlive⟩
    have hidle := mt (h.sole.consistent r rfl).2 (by simp [hdriven])
    exact not_or.mp hidle

/-- Another record, for which the calls stand where they stood. -/
theorem Regular.of_record {r r' : PipelineRecord} {points : Nat → Option Point}
    (h : Regular ⟨some r, points⟩) (hsole : Sole ⟨some r', points⟩) (hr : r'.Regular)
    (hpoints : r'.pipeline.status ≠ .failed →
      r.pipeline.status ≠ .failed ∧ ∀ p : Point, p.Regular r → p.Regular r') :
    Regular ⟨some r', points⟩ where
  sole := hsole
  record := by
    intro r'' heq
    obtain rfl := Option.some.inj heq
    exact hr
  points := by
    intro r'' heq hfailed n p hp
    obtain rfl := Option.some.inj heq
    obtain ⟨hbefore, hkeeps⟩ := hpoints hfailed
    exact hkeeps p (h.points r rfl hbefore n p hp)

/-- Another record and a new place for the one call that may drive the pipeline. -/
theorem Regular.of_update {r : PipelineRecord} {points : Nat → Option Point} {n : Nat}
    {p : Point} (hsole : Sole ⟨some r, Function.update points n (some p)⟩)
    (hothers : ∀ m, m ≠ n → ¬ Live ⟨some r, points⟩ m) (hr : r.Regular)
    (hp : r.pipeline.status ≠ .failed → p.Regular r) :
    Regular ⟨some r, Function.update points n (some p)⟩ where
  sole := hsole
  record := by
    intro r' heq
    obtain rfl := Option.some.inj heq
    exact hr
  points := by
    intro r' heq hfailed m q hq
    obtain rfl := Option.some.inj heq
    rcases update_eq_some_iff.mp hq with ⟨-, rfl⟩ | ⟨hm, hbefore⟩
    · exact hp hfailed
    · refine Point.regular_of_not_live (Bool.eq_false_iff.mpr ?_)
      exact fun hlive => hothers m hm ⟨q, hbefore, hlive⟩

theorem ne_failed_of_entry {entry : PipelineRecord.Entry} {status : Status}
    (h : PipelineRecord.entryError? entry id status = none) : status ≠ .failed := by
  rcases PipelineRecord.pending_or_paused h with h | h <;> simp [h]

theorem not_isTerminal_of_entry {entry : PipelineRecord.Entry} {status : Status}
    (h : PipelineRecord.entryError? entry id status = none) : status.isTerminal = false := by
  rcases PipelineRecord.pending_or_paused h with rfl | rfl <;> rfl

theorem Regular.step (hstep : Step engine id v act outs v') (h : v.Regular)
    (hrestore : ∀ p config, act = .restore p config → p.id ≠ id) : v'.Regular := by
  have hsole := h.sole.step hstep fun p config hact hid => absurd hid (hrestore p config hact)
  cases hstep with
  | create now haccepted =>
    refine ⟨hsole, ?_, ?_⟩
    · intro r heq
      obtain rfl := Option.some.inj heq
      exact PipelineRecord.regular_pending id _ now.instant
    · exact fun _ _ _ n p hp => absurd hp (h.sole.known.ne_some rfl)
  | restore now hid => exact absurd hid (hrestore _ _ rfl)
  | claim now hentry hdriven hnew =>
    have hfailed := ne_failed_of_entry hentry
    refine .of_update hsole ?_ ((h.record _ rfl).setStatus _ (by decide) (by decide) ?_) ?_
    · exact fun m hm => h.sole.not_live rfl hdriven m
    · exact fun hstatus => absurd hstatus hfailed
    · exact fun _ => ⟨0, Nat.zero_le _, rfl⟩
  | rejoin now hentry hdriven =>
    have hfailed := ne_failed_of_entry hentry
    refine h.of_record hsole ((h.record _ rfl).setStatus _ (by decide) (by decide) ?_) ?_
    · exact fun hstatus => absurd hstatus hfailed
    · exact fun _ => ⟨hfailed, fun p hp => hp.congr rfl rfl rfl rfl⟩
  | pause now hrunning =>
    have hfailed := hrunning.trans_ne (by decide : Status.running ≠ .failed)
    refine h.of_record hsole ((h.record _ rfl).setStatus _ (by decide) (by decide) ?_) ?_
    · exact fun hstatus => absurd hstatus hfailed
    · exact fun _ => ⟨hfailed, fun p hp => hp.congr rfl rfl rfl rfl⟩
  | cancel now =>
    refine h.of_record hsole ((h.record _ rfl).setStatus _ (by decide) (by decide) ?_) ?_
    · exact fun _ => ⟨rfl, fun hdriven => hdriven⟩
    · exact fun hstatus => absurd rfl hstatus
  | move hpoint hmoves =>
    obtain ⟨hr, hp⟩ := hmoves.regular (h.driven hpoint hmoves.isLive)
    refine .of_update hsole ?_ hr hp
    intro m hm hlive
    exact hm (h.sole.unique m _ hlive ⟨_, hpoint, hmoves.isLive⟩)

end View

namespace Fleet

variable {engine : EngineConfig} {s : Fleet} {e : Event} {id : PipelineId}

/-- Identifiers are new when they are generated, and the pipeline is not restored. -/
def Created (id : PipelineId) (s : Fleet) (e : Event) : Prop :=
  e.Fresh s ∧ ¬ e.Restores id

theorem Created.ne_of_restore (he : s.Created id e) (p : Pipeline) (config : PipelineConfig)
    (hact : e.act = .restore p config) : p.id ≠ id :=
  fun hid => he.2 ⟨p, config, hact, hid⟩

/-- What every step keeps that does not restore the pipeline, a run keeps that does not. -/
theorem Along.preserves_view {holds : View → Prop} (hknown : ∀ v, holds v → v.Known)
    (hstep : ∀ v v' act outs, View.Step engine id v act outs v' → holds v →
      (∀ p c, act = .restore p c → p.id ≠ id) → holds v') {es : List Event}
    (hes : s.Along engine (Created id) es) (h : holds (s.view id)) :
    holds ((s.run engine es).view id) := by
  have hnext : ∀ (s : Fleet) e, s.Created id e → holds (s.view id) →
      holds ((s.next engine e).view id) := by
    intro s e he hs
    exact holds_next he.1 (hknown _ hs) hs fun v hv => hstep _ v _ _ hv hs he.ne_of_restore
  exact hes.preserves hnext h

theorem regular_initial (id : PipelineId) : (initial.view id).Regular where
  sole := sole_initial id
  record := by simp [view, initial]
  points := by simp [view, initial]

theorem regular_next (hadmits : s.Created id e) (h : (s.view id).Regular) :
    ((s.next engine e).view id).Regular := by
  refine holds_next hadmits.1 h.sole.known h fun v hstep => ?_
  exact h.step hstep hadmits.ne_of_restore

theorem regular_of_reached (h : s.Reached engine (Created id)) : (s.view id).Regular :=
  h.induction (regular_initial id) fun _ _ => regular_next

/-- The record of a pipeline that was created: the completed stages are the first `k`, each with its
successful result and its artifact; at most one result more is there, of the next stage, whose
attempts have all failed and which has ended the pipeline. -/
theorem record_of_created (h : s.Reached engine (Created id)) {r : PipelineRecord}
    (hget : s.store.get? id = some r) :
    ∃ k ≤ Stage.count,
      r.pipeline.completed = Stage.all.take k ∧
      r.pipeline.progress = 20 * k ∧
      (∃ (done : List StageResult) (last : Option StageResult),
        r.pipeline.results = done ++ last.toList ∧
        done.map (·.stage) = Stage.all.take k ∧
        (∀ x ∈ done, x.success = true ∧ x.error = none ∧
          x.retryCount ≤ r.config.retryBudget ∧
          x.artifact = Artifact.decode? x.stage x.output) ∧
        ∀ x ∈ last, Stage.all[k]? = some x.stage ∧ x.success = false ∧ x.output = "" ∧
          x.artifact = none ∧ x.error.isSome = true ∧ x.retryCount = r.config.retryBudget ∧
          r.pipeline.status = .failed ∧ r.driven = false) ∧
      (∀ stage a, r.pipeline.artifacts.get? stage = some a ↔
        ∃ x ∈ r.pipeline.results, x.success = true ∧ x.stage = stage ∧ x.artifact = some a) ∧
      (r.pipeline.status = .pending →
        k = 0 ∧ r.pipeline.results = [] ∧ r.pipeline.current = none) ∧
      (r.pipeline.status = .completed →
        k = Stage.count ∧ r.pipeline.current = none ∧ r.driven = false) := by
  have hregular := regular_of_reached h
  have hr : r.Regular := hregular.record r hget
  have hlen := hr.length_completed_le
  refine ⟨r.pipeline.completed.length, hlen, hr.completed, ?_, ?_, hr.artifacts, ?_, ?_⟩
  · exact Pipeline.progress_eq hlen
  · obtain ⟨done, last, hresults, hdone, hsucceeded, hlast⟩ := hr.results
    refine ⟨done, last, hresults, hdone.trans hr.completed, ?_, ?_⟩
    · intro x hx
      obtain ⟨hsuccess, herror, hcount, hartifact⟩ := hsucceeded x hx
      exact ⟨hsuccess, herror, hcount, hartifact⟩
    · intro x hx
      obtain ⟨⟨hsuccess, houtput, hartifact, herror, hcount⟩, hindex, -, hstatus, hdriven⟩ :=
        hlast x hx
      exact ⟨Stage.getElem?_all_eq_some_iff.mpr hindex, hsuccess, houtput, hartifact, herror,
        hcount, hstatus, hdriven⟩
  · intro hstatus
    obtain ⟨hcompleted, hresults, hcurrent⟩ := hr.pending hstatus
    exact ⟨by rw [hcompleted, List.length_nil], hresults, hcurrent⟩
  · intro hstatus
    obtain ⟨hcompleted, hcurrent⟩ := hr.finished hstatus
    exact ⟨by rw [hcompleted, Stage.count], hcurrent,
      (hregular.sole.consistent r hget).2 (.inr hstatus)⟩

/-- Settings of a pipeline whose stages have a single attempt. -/
def singleAttempt : PipelineConfig :=
  { PipelineConfig.ofTask "t" with autoRetry := false }

/-- The first stage succeeds without an artifact, and the second one gets no answer. -/
def failedRun (id : PipelineId) (now : Moment) : List Event :=
  [.create id singleAttempt, .drive .execute id, .advance 0 .proceed,
    .advance 0 (.hear (.answered (.ok ""))), .advance 0 .proceed, .advance 0 .proceed,
    .advance 0 (.hear .timedOut), .advance 0 .proceed].map (⟨·, now⟩)

theorem along_failedRun :
    initial.Along .initial (Created (.ofNat 1)) (failedRun (.ofNat 1) ⟨.zero, ⟨0, 0⟩⟩) := by
  have hget : initial.store.get? (.ofNat 1) = none := rfl
  simp [failedRun, Created, Event.Fresh, Event.Restores, hget]

/-- One stage is completed, and the result behind its own is that of the stage that failed. -/
theorem record_of_failedRun :
    (initial.run .initial (failedRun (.ofNat 1) ⟨.zero, ⟨0, 0⟩⟩)).Reached .initial
        (Created (.ofNat 1)) ∧
      ∃ r, (initial.run .initial (failedRun (.ofNat 1) ⟨.zero, ⟨0, 0⟩⟩)).store.get? (.ofNat 1) =
          some r ∧
        r.pipeline.status = .failed ∧ r.pipeline.completed = [.requirements] ∧
        r.pipeline.progress = 20 ∧
        ∃ (done : List StageResult) (last : Option StageResult),
          r.pipeline.results = done ++ last.toList ∧
          done.map (·.stage) = [.requirements] ∧
          ∀ x ∈ last, x.stage = .design ∧ x.success = false ∧ x.retryCount = 0 := by
  have hreached : (initial.run .initial (failedRun (.ofNat 1) ⟨.zero, ⟨0, 0⟩⟩)).Reached .initial
      (Created (.ofNat 1)) := ⟨_, along_failedRun, rfl⟩
  refine ⟨hreached, _, rfl, rfl, rfl, ?_⟩
  obtain ⟨k, hk, hcompleted, hprogress, ⟨done, last, hresults, hdone, -, hlast⟩, -⟩ :=
    record_of_created hreached rfl
  obtain rfl : k = 1 := by
    have hlen : 1 = (Stage.all.take k).length := congrArg List.length hcompleted
    rw [List.length_take_of_le hk] at hlen
    exact hlen.symm
  refine ⟨hprogress, done, last, hresults, hdone, ?_⟩
  intro x hx
  obtain ⟨hstage, hsuccess, -, -, -, hcount, -⟩ := hlast x hx
  exact ⟨(Option.some.inj hstage).symm, hsuccess, hcount⟩

end Fleet

end StagedPipeline
