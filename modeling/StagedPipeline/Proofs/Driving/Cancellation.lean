import StagedPipeline.Proofs.Driving.Pursuit
import StagedPipeline.Proofs.Driving.Regularity

/-!
# A cancel is final

After a cancel, and until it is restored, a pipeline stays failed and nothing of it changes any
more but the time of its last change. A call that drives it is not stopped at once: it goes on with
the attempts of its stage, but whatever comes of them is thrown away, and the call returns that the
pipeline was cancelled (`Point.Since`). No call begins another stage, and no new one becomes a
driver.
-/

namespace StagedPipeline

/-- What can have become of a call since its pipeline was cancelled. -/
inductive Point.Since (id : PipelineId) : Point → Point → Prop
  | same {p : Point} : Since id p p
  /-- It goes on with the attempts of its stage. -/
  | trial {t t' : Trial} {w w' : Wait} (hattempt : t'.attempt = t.attempt) :
      Since id (.waiting t w) (.waiting t' w')
  | result {t : Trial} {w : Wait} {x : StageResult} : Since id (.waiting t w) (.settling x)
  | returned {p : Point} (hlive : p.isLive = true) :
      Since id p (.returned (.error (.cancelled id)))
  | dropped {p : Point} (hlive : p.isLive = true) : Since id p .dropped

namespace Point.Since

variable {id : PipelineId} {p₀ p : Point}

/-- A call that had ended stays where it was. -/
theorem isLive (h : Since id p₀ p) (hlive : p.isLive = true) : p₀.isLive = true := by
  cases h with
  | same => exact hlive
  | trial hattempt => rfl
  | result => rfl
  | returned hlive₀ => exact hlive₀
  | dropped hlive₀ => exact hlive₀

/-- A call that waits at a stage now waited at it before. -/
theorem exists_waiting {t : Trial} {w : Wait} (h : Since id p₀ (.waiting t w)) :
    ∃ t₀ w₀, p₀ = .waiting t₀ w₀ ∧ t.attempt = t₀.attempt := by
  cases h with
  | same => exact ⟨t, w, rfl, rfl⟩
  | trial hattempt => exact ⟨_, _, rfl, hattempt⟩

/-- A call that drove the pipeline still does, or has been given up, or has returned that the
pipeline was cancelled. -/
theorem live_or_ended (h : Since id p₀ p) (hlive : p₀.isLive = true) :
    p.isLive = true ∨ p = .dropped ∨ p = .returned (.error (.cancelled id)) := by
  cases h with
  | same => exact .inl hlive
  | trial hattempt => exact .inl rfl
  | result => exact .inl rfl
  | returned _ => exact .inr (.inr rfl)
  | dropped _ => exact .inr (.inl rfl)

end Point.Since

section Moves

variable {engine : EngineConfig} {id : PipelineId} {r r' : PipelineRecord} {p₀ p p' : Point}
  {move : Move}

/-- No call changes a pipeline that has failed. -/
theorem Moves.pipeline_eq (hmoves : Moves engine id r p move r' p')
    (hfailed : r.pipeline.status = .failed) : r'.pipeline = r.pipeline := by
  cases hmoves with
  | halt hpaused => rfl
  | stop hstatus => rfl
  | skip hpaused hstatus hdone => rfl
  | hear hresume => rfl
  | discard hstatus => rfl
  | drop now => simp [PipelineRecord.release, hfailed]
  | _ => contradiction

/-- Where a call comes to after its pipeline has failed. -/
theorem Moves.since (hmoves : Moves engine id r p move r' p')
    (hfailed : r.pipeline.status = .failed) (h : p₀.Since id p) : p₀.Since id p' := by
  have hlive := h.isLive hmoves.isLive
  cases hmoves with
  | halt hpaused => simp [hfailed] at hpaused
  | stop hstatus => exact .returned hlive
  | hear hresume =>
    have hstep := Trial.Step.of_resume hresume
    obtain ⟨t₀, w₀, rfl, hattempt⟩ := h.exists_waiting
    rename_i progress notices
    cases progress with
    | waiting t' w' => exact .trial (hstep.attempt_eq.trans hattempt)
    | finished x => exact .result
  | discard hstatus => exact .returned hlive
  | drop now => exact .dropped hlive
  | _ => contradiction

end Moves

namespace View

variable {engine : EngineConfig} {id : PipelineId} {r₀ : PipelineRecord}
  {points₀ : Nat → Option Point} {v v' : View} {act : Act} {outs : List Output}

/-- What is left of a pipeline that was cancelled: its record but for the time of the last change,
and the calls that had claimed it. -/
structure Frozen (id : PipelineId) (r₀ : PipelineRecord) (points₀ : Nat → Option Point)
    (v : View) : Prop where
  record : ∃ r t, v.record = some r ∧ r.pipeline = r₀.pipeline.setStatus .failed t ∧
    r.config = r₀.config
  points : ∀ n, Option.Rel (Point.Since id) (points₀ n) (v.points n)
  /-- A driver that has ended has given the pipeline free. -/
  driven : ∀ r, v.record = some r → ∀ n p₀ p, points₀ n = some p₀ → p₀.isLive = true →
    v.points n = some p → p.isLive = false → r.driven = false

theorem Frozen.status {r : PipelineRecord} (h : v.Frozen id r₀ points₀)
    (hrecord : v.record = some r) : r.pipeline.status = .failed := by
  obtain ⟨r', t, hr', hpipeline, -⟩ := h.record
  obtain rfl := Option.some.inj (hrecord.symm.trans hr')
  rw [hpipeline]
  rfl

theorem Frozen.exists_since {n : Nat} {p : Point} (h : v.Frozen id r₀ points₀)
    (hp : v.points n = some p) : ∃ p₀, points₀ n = some p₀ ∧ p₀.Since id p := by
  have hrel := h.points n
  rw [hp] at hrel
  cases hp₀ : points₀ n with
  | none =>
    rw [hp₀] at hrel
    cases hrel
  | some p₀ =>
    rw [hp₀] at hrel
    cases hrel with
    | some hsince => exact ⟨p₀, rfl, hsince⟩

theorem Frozen.exists_point {n : Nat} {p₀ : Point} (h : v.Frozen id r₀ points₀)
    (hp₀ : points₀ n = some p₀) : ∃ p, v.points n = some p ∧ p₀.Since id p := by
  have hrel := h.points n
  rw [hp₀] at hrel
  cases hp : v.points n with
  | none =>
    rw [hp] at hrel
    cases hrel
  | some p =>
    rw [hp] at hrel
    cases hrel with
    | some hsince => exact ⟨p, rfl, hsince⟩

theorem Frozen.step (hstep : Step engine id v act outs v') (h : v.Frozen id r₀ points₀)
    (hrestore : ∀ p c, act = .restore p c → p.id ≠ id) : v'.Frozen id r₀ points₀ := by
  obtain ⟨r, t, hr, hpipeline, hconfig⟩ := h.record
  cases hstep with
  | create now haccepted => contradiction
  | restore now hid => exact absurd hid (hrestore _ _ rfl)
  | claim now hentry hdriven hnew => exact absurd (h.status rfl) (ne_failed_of_entry hentry)
  | rejoin now hentry hdriven => exact absurd (h.status rfl) (ne_failed_of_entry hentry)
  | pause now hrunning => simp [h.status rfl] at hrunning
  | cancel now =>
    obtain rfl := Option.some.inj hr
    refine ⟨⟨_, now.instant, rfl, ?_, hconfig⟩, h.points, ?_⟩
    · rw [hpipeline]
      rfl
    · intro r' heq n p₀ p hp₀ hlive hp hended
      obtain rfl := Option.some.inj heq
      have hdriven := h.driven _ rfl n p₀ p hp₀ hlive hp hended
      exact hdriven
  | move hpoint hmoves =>
    obtain rfl := Option.some.inj hr
    have hfailed := h.status rfl
    refine ⟨⟨_, t, rfl, (hmoves.pipeline_eq hfailed).trans hpipeline,
      hmoves.config_eq.trans hconfig⟩, ?_, ?_⟩
    · intro m
      dsimp only
      rw [Function.update_apply]
      split
      · rename_i hm
        obtain ⟨p₀, hp₀, hsince⟩ := h.exists_since hpoint
        rw [hm, hp₀]
        exact .some (hmoves.since hfailed hsince)
      · exact h.points m
    · intro r' heq m p₀ q hp₀ hlive hq hended
      obtain rfl := Option.some.inj heq
      rw [hmoves.driven_eq]
      rcases update_eq_some_iff.mp hq with ⟨-, rfl⟩ | ⟨-, hbefore⟩
      · rw [hended, Bool.and_false]
      · rw [h.driven _ rfl m p₀ q hp₀ hlive hbefore hended, Bool.false_and]

theorem Frozen.known (h : v.Frozen id r₀ points₀) : v.Known := by
  obtain ⟨r, t, hr, -⟩ := h.record
  exact .of_record hr

end View

namespace Engine

variable {id : PipelineId} {store : Store} {r : PipelineRecord}

/-- The value of a call that asks to drive a pipeline and is refused. -/
theorem start_of_error {engine : EngineConfig} {entry : PipelineRecord.Entry} {e : PipelineError}
    (now : Moment) (hget : store.get? id = some r)
    (h : PipelineRecord.entryError? entry id r.pipeline.status = some e) :
    (start engine entry id now store).value = .returned (.error e) := by
  unfold start claim
  rw [Store.update_of_get?_eq_some _ hget, PipelineRecord.start_of_error _ h]

theorem pause_of_ne_running (now : Moment) (hget : store.get? id = some r)
    (h : r.pipeline.status ≠ .running) :
    (pause id now store).value = .error (.notRunning id) := by
  unfold pause
  rw [Store.update_of_get?_eq_some _ hget, PipelineRecord.pause_of_ne_running _ h]

end Engine

namespace Fleet

variable {engine : EngineConfig} {s : Fleet} {e : Event} {es : List Event} {id : PipelineId}
  {n : Nat} {r : PipelineRecord} {points₀ : Nat → Option Point}

/-- The engine after a cancel. -/
def cancelled (engine : EngineConfig) (s : Fleet) (id : PipelineId) (now : Moment) : Fleet :=
  s.next engine ⟨.cancel id, now⟩

theorem view_cancelled (engine : EngineConfig) (now : Moment) (hget : s.store.get? id = some r) :
    (s.cancelled engine id now).view id =
      ⟨some (r.cancel now.instant).1, (s.view id).points⟩ := by
  have hset := Store.get?_update_self (·.cancel now.instant) hget
  rw [← Engine.store_cancel] at hset
  exact view_with_store hset

theorem frozen_cancelled (engine : EngineConfig) (now : Moment)
    (hget : s.store.get? id = some r) :
    ((s.cancelled engine id now).view id).Frozen id r (s.view id).points := by
  rw [view_cancelled engine now hget]
  refine ⟨⟨_, now.instant, rfl, rfl, rfl⟩, ?_, ?_⟩
  · intro n
    dsimp only
    cases (s.view id).points n with
    | none => exact .none
    | some p => exact .some .same
  · intro r' _ n p₀ p hp₀ hlive hp hended
    obtain rfl := Option.some.inj (hp₀.symm.trans hp)
    simp [hlive] at hended

theorem frozen_next (engine : EngineConfig) (he : s.Created id e)
    (h : (s.view id).Frozen id r points₀) :
    ((s.next engine e).view id).Frozen id r points₀ := by
  refine holds_next he.1 h.known h fun v hstep => ?_
  exact h.step hstep he.ne_of_restore

theorem frozen_of_along (hes : s.Along engine (Created id) es)
    (h : (s.view id).Frozen id r points₀) : ((s.run engine es).view id).Frozen id r points₀ :=
  hes.preserves (fun _ _ he => frozen_next engine he) h

/-- A request that still comes out is one of a stage that was worked on before. -/
theorem exists_waiting_of_request (hes : s.Along engine (Created id) es)
    (h : (s.view id).Frozen id r points₀) {stage : Stage} {sent : CompletionRequest}
    (hsent : .request n id stage sent ∈ s.emitted engine es) :
    ∃ trial wait, points₀ n = some (.waiting trial wait) ∧ trial.attempt.stage = stage := by
  induction es generalizing s with
  | nil => contradiction
  | cons e es ih =>
    have hnext := frozen_next engine hes.1 h
    rcases List.mem_append.mp hsent with hsent | hsent
    · rcases accounted engine hes.1.1 h.known with ⟨-, hothers⟩ | hstep
      · exact absurd rfl (hothers _ hsent)
      · obtain ⟨trial, wait, hpoint, hstage⟩ := hstep.exists_waiting hsent
        obtain ⟨p₀, hp₀, hsince⟩ := hnext.exists_since hpoint
        obtain ⟨t₀, w₀, rfl, hattempt⟩ := hsince.exists_waiting
        exact ⟨t₀, w₀, hp₀, by rw [← hattempt, hstage]⟩
    · exact ih hes.2 hnext hsent

theorem not_dropped_of_along (hes : s.Along engine (fun s e => e.Fresh s) es)
    (hsound : (s.view id).Sound) (hdrop : ∀ e ∈ es, e.act ≠ .advance n .drop)
    (h : (s.view id).points n ≠ some .dropped) :
    ((s.run engine es).view id).points n ≠ some .dropped := by
  induction es generalizing s with
  | nil => exact h
  | cons e es ih =>
    refine ih hes.2 (sound_next hes.1 hsound)
      (fun e he => hdrop e (List.mem_cons_of_mem _ he)) ?_
    intro hdropped
    rcases accounted engine hes.1 hsound.known with ⟨hsame, -⟩ | hstep
    · exact h (hsame ▸ hdropped)
    · rcases hstep.dropped hdropped with hbefore | hact
      · exact h hbefore
      · exact hdrop e List.mem_cons_self hact

/-- A call that had driven the pipeline and has returned tells that it was cancelled, and has given
the pipeline free. -/
theorem cancelled_of_returned (h : (s.view id).Frozen id r points₀) {p₀ : Point}
    (hp₀ : points₀ n = some p₀) (hlive : p₀.isLive = true) {result : DriveResult}
    (hcall : s.calls[n]? = some ⟨id, .returned result⟩) :
    s.calls[n]? = some ⟨id, .returned (.error (.cancelled id))⟩ ∧
      ∃ r', s.store.get? id = some r' ∧ r'.driven = false := by
  have hpoint : (s.view id).points n = some (.returned result) := points_view_eq_some_iff.mpr hcall
  obtain ⟨p, hp, hsince⟩ := h.exists_point hp₀
  obtain rfl := Option.some.inj (hp.symm.trans hpoint)
  obtain ⟨r', t, hget, -⟩ := h.record
  refine ⟨?_, r', hget, h.driven r' hget n p₀ _ hp₀ hlive hpoint rfl⟩
  rcases hsince.live_or_ended hlive with hlive' | hdropped | hreturned
  · contradiction
  · contradiction
  · rw [hcall, hreturned]

/-- A call that had driven the pipeline, and is left to itself, returns that it was cancelled. -/
theorem cancelled_of_pursuit (engine : EngineConfig) (b : Behaviour)
    (h : (s.view id).Frozen id r points₀) (hsound : (s.view id).Sound) {p₀ p : Point}
    (hp₀ : points₀ n = some p₀) (hlive₀ : p₀.isLive = true)
    (hcall : s.calls[n]? = some ⟨id, p⟩) (hlive : p.isLive = true) {nows : List Moment}
    (hlong : p.rank ≤ nows.length) :
    (s.run engine (s.pursuit engine b n nows)).calls[n]? =
        some ⟨id, .returned (.error (.cancelled id))⟩ ∧
      ∃ r', (s.run engine (s.pursuit engine b n nows)).store.get? id = some r' ∧
        r'.driven = false := by
  obtain ⟨result, hreturned⟩ := returns_of_pursuit engine b hcall hlive hsound hlong
  have hown : s.Along engine (Created id) (s.pursuit engine b n nows) := by
    refine along_pursuit nows fun s' call move now _ _ => ⟨?_, ?_⟩
    · simp [Event.Fresh]
    · simp [Event.Restores]
  exact cancelled_of_returned (frozen_of_along hown h) hp₀ hlive₀ hreturned

/-- A cancel is final. Until it is restored the pipeline stays failed, and nothing of it changes any
more but the time of its last change. What is still sent to the executor is for the stage that a
call was waiting at. A call that drove the pipeline and is not given up returns, whatever the
executor answers, that it was cancelled, and leaves the pipeline without a driver; and the pipeline
cannot be run, paused or resumed. -/
theorem cancel_is_final (hs : s.Reached engine fun s e => e.Fresh s)
    (hget : s.store.get? id = some r) (now : Moment)
    (hes : (s.cancelled engine id now).Along engine (Created id) es) :
    (s.react engine ⟨.cancel id, now⟩).2 = [.acknowledged id (.ok ())] ∧
    ∃ r' t, ((s.cancelled engine id now).run engine es).store.get? id = some r' ∧
      r'.pipeline = { r.pipeline with status := .failed, updatedAt := t } ∧
      r'.config = r.config ∧
      (∀ n stage sent, .request n id stage sent ∈ (s.cancelled engine id now).emitted engine es →
        ∃ trial wait, s.calls[n]? = some ⟨id, .waiting trial wait⟩ ∧
          trial.attempt.stage = stage) ∧
      (∀ n, s.Drives id n → (∀ e ∈ es, e.act ≠ .advance n .drop) →
        (((s.cancelled engine id now).run engine es).calls[n]? =
            some ⟨id, .returned (.error (.cancelled id))⟩ ∧ r'.driven = false) ∨
          (((s.cancelled engine id now).run engine es).Drives id n ∧
            ∃ k, ∀ (b : Behaviour) (nows : List Moment), k ≤ nows.length →
              ∃ r'', (((s.cancelled engine id now).run engine es).run engine
                  (((s.cancelled engine id now).run engine es).pursuit engine b n nows)).calls[n]? =
                    some ⟨id, .returned (.error (.cancelled id))⟩ ∧
                (((s.cancelled engine id now).run engine es).run engine
                  (((s.cancelled engine id now).run engine es).pursuit engine b n
                    nows)).store.get? id = some r'' ∧ r''.driven = false)) ∧
      ∀ later,
        (Engine.execute engine id later ((s.cancelled engine id now).run engine es).store).value =
            .returned (.error (.terminal id .failed)) ∧
          (Engine.pause id later ((s.cancelled engine id now).run engine es).store).value =
            .error (.notRunning id) ∧
          (Engine.resume engine id later ((s.cancelled engine id now).run engine es).store).value =
            .returned (.error (.notPaused id)) := by
  have hcancelled := frozen_cancelled engine now hget
  have hfrozen := frozen_of_along hes hcancelled
  have hfresh := hes.imp fun _ _ he => he.1
  have hsound : ((s.cancelled engine id now).view id).Sound :=
    sound_next (by simp [Event.Fresh])
      (hs.induction (sound_initial id) fun _ _ he => sound_next he)
  have hsound' : (((s.cancelled engine id now).run engine es).view id).Sound :=
    hfresh.preserves (fun _ _ he => sound_next he) hsound
  obtain ⟨r', t, hget', hpipeline, hconfig⟩ := hfrozen.record
  have hstatus := hfrozen.status hget'
  refine ⟨congrArg Prod.snd (react_cancel_of_known engine now hget), r', t, hget', hpipeline,
    hconfig, ?_, ?_, ?_⟩
  · intro n stage sent hsent
    obtain ⟨trial, wait, hpoint, hstage⟩ := exists_waiting_of_request hes hcancelled hsent
    exact ⟨trial, wait, points_view_eq_some_iff.mp hpoint, hstage⟩
  · intro n hn hdrop
    obtain ⟨p₀, hp₀, hlive₀⟩ := drives_iff.mp hn
    obtain ⟨p, hp, hsince⟩ := hfrozen.exists_point hp₀
    have hcall := points_view_eq_some_iff.mp hp
    rcases hsince.live_or_ended hlive₀ with hlive | rfl | rfl
    · refine .inr ⟨⟨p, hcall, hlive⟩, p.rank, ?_⟩
      intro b nows hlong
      obtain ⟨hreturned, r'', hget'', hdriven⟩ :=
        cancelled_of_pursuit engine b hfrozen hsound' hp₀ hlive₀ hcall hlive hlong
      exact ⟨r'', hreturned, hget'', hdriven⟩
    · refine absurd hp (not_dropped_of_along hfresh hsound hdrop ?_)
      rw [view_cancelled engine now hget, hp₀]
      intro hdropped
      rw [Option.some.inj hdropped] at hlive₀
      contradiction
    · exact .inl ⟨hcall, hfrozen.driven r' hget' n p₀ _ hp₀ hlive₀ hp rfl⟩
  · intro later
    refine ⟨?_, ?_, ?_⟩
    · exact Engine.start_of_error later hget' (by rw [hstatus]; rfl)
    · exact Engine.pause_of_ne_running later hget' (by simp [hstatus])
    · exact Engine.start_of_error later hget' (by rw [hstatus]; rfl)

/-- A pipeline whose first stage is worked on. -/
def startedRun (id : PipelineId) (now : Moment) : List Event :=
  [.create id (.ofTask "t"), .drive .execute id, .advance 0 .proceed].map (⟨·, now⟩)

/-- The first attempt gets no answer, and the second one an answer that comes too late. -/
def lateRun (now : Moment) : List Event :=
  [.advance 0 (.hear .timedOut), .advance 0 (.hear .rested),
    .advance 0 (.hear (.answered (.ok ""))), .advance 0 .proceed].map (⟨·, now⟩)

theorem reached_startedRun :
    (initial.run .initial (startedRun (.ofNat 1) ⟨.zero, ⟨0, 0⟩⟩)).Reached .initial
      fun s e => e.Fresh s := by
  refine ⟨_, ?_, rfl⟩
  simp [startedRun, Event.Fresh, initial]

theorem along_lateRun :
    ((initial.run .initial (startedRun (.ofNat 1) ⟨.zero, ⟨0, 0⟩⟩)).cancelled .initial (.ofNat 1)
      ⟨.zero, ⟨0, 0⟩⟩).Along .initial (Created (.ofNat 1)) (lateRun ⟨.zero, ⟨0, 0⟩⟩) := by
  simp [lateRun, Created, Event.Fresh, Event.Restores]

/-- The late answer is thrown away, and the call returns that the pipeline was cancelled. -/
theorem cancelled_of_lateRun :
    ∃ r, (((initial.run .initial (startedRun (.ofNat 1) ⟨.zero, ⟨0, 0⟩⟩)).cancelled .initial
        (.ofNat 1) ⟨.zero, ⟨0, 0⟩⟩).run .initial (lateRun ⟨.zero, ⟨0, 0⟩⟩)).store.get? (.ofNat 1) =
          some r ∧
      r.pipeline.status = .failed ∧ r.pipeline.results = [] ∧
      r.pipeline.current = some .requirements ∧ r.driven = false ∧
      (((initial.run .initial (startedRun (.ofNat 1) ⟨.zero, ⟨0, 0⟩⟩)).cancelled .initial
        (.ofNat 1) ⟨.zero, ⟨0, 0⟩⟩).run .initial (lateRun ⟨.zero, ⟨0, 0⟩⟩)).calls[0]? =
          some ⟨.ofNat 1, .returned (.error (.cancelled (.ofNat 1)))⟩ := by
  obtain ⟨-, r, t, hget, hpipeline, -, -, hcalls, -⟩ :=
    cancel_is_final reached_startedRun rfl ⟨.zero, ⟨0, 0⟩⟩ along_lateRun
  rcases hcalls 0 ⟨_, rfl, rfl⟩ (by simp [lateRun]) with ⟨hcall, hdriven⟩ | ⟨⟨p, hp, hlive⟩, -⟩
  · exact ⟨r, hget, by rw [hpipeline], by rw [hpipeline]; rfl, by rw [hpipeline]; rfl, hdriven,
      hcall⟩
  · cases hp
    contradiction

end Fleet

end StagedPipeline
