import StagedPipeline.Proofs.Driving.Requests

/-!
# Runs that do not disturb a pipeline

A run does not disturb a pipeline if it is neither cancelled nor restored and the executor's answers
depend only on the stage and on the number of the attempt; it may be paused and resumed, and its
drivers may be given up. What such a run preserves is that every result is the one that the executor
makes of its stage (`View.Faithful`), and that the requests that have come out are those behind the
results and those of the stage that is being worked on (`View.Logged`). Only a driver that is given
up leaves requests without a result. So what the pipeline comes to does not depend on the run
(`Fleet.outcome_of_undisturbed`).
-/

namespace StagedPipeline

/-! ### Results -/

namespace PipelineRecord.Faithful

variable {b : Behaviour} {r r' : PipelineRecord} {x : StageResult}

/-- A change that is not about results. -/
theorem congr (h : r.Faithful b) (hconfig : r'.config = r.config)
    (hresults : r'.pipeline.results = r.pipeline.results)
    (hartifacts : r'.pipeline.artifacts = r.pipeline.artifacts)
    (hfailed : r'.pipeline.status = .failed → r.pipeline.status = .failed) : r'.Faithful b where
  results := by
    rw [hresults, hconfig]
    exact h.results
  failed hstatus := by
    rw [hresults]
    exact h.failed (hfailed hstatus)
  artifacts := by rw [hartifacts, hresults, h.artifacts]

theorem results_append (h : r.Faithful b) (hx : x.timeless = b.result r.config x.stage) :
    ∀ y ∈ r.pipeline.results ++ [x], y.timeless = b.result r.config y.stage := by
  intro y hy
  rcases List.mem_append.mp hy with hy | hy
  · exact h.results y hy
  · exact List.mem_singleton.mp hy ▸ hx

theorem addResult_of_success (hr : r.Regular) (h : r.Faithful b) (now : Instant)
    (hfailed : r.pipeline.status ≠ .failed)
    (hstage : x.stage.index = r.pipeline.completed.length) (hsuccess : x.success = true)
    (hx : x.timeless = b.result r.config x.stage) :
    Faithful b { r with pipeline := r.pipeline.addResult x now } where
  results := h.results_append hx
  failed hstatus := by
    rw [Pipeline.status_addResult] at hstatus
    contradiction
  artifacts := by
    rw [Pipeline.results_addResult, ArtifactSet.gather_append_singleton, ← h.artifacts,
      ArtifactSet.takeOver_of_success _ hsuccess]
    exact Pipeline.artifacts_addResult_of_success _ _ _ hsuccess (hr.hasCompleted_eq_false hstage)

theorem addResult_of_failure (h : r.Faithful b) (now : Instant) (hsuccess : x.success = false)
    (hx : x.timeless = b.result r.config x.stage) :
    Faithful b { r with
      pipeline := (r.pipeline.addResult x now).setStatus .failed now
      driven := false } where
  results := h.results_append hx
  failed _ := ⟨x, List.mem_append_right _ (List.mem_singleton_self x), hsuccess⟩
  artifacts := by
    simp only [Pipeline.setStatus, Pipeline.results_addResult]
    rw [ArtifactSet.gather_append_singleton, ← h.artifacts,
      ArtifactSet.takeOver_of_failure _ hsuccess]
    exact Pipeline.artifacts_addResult_of_failure _ _ _ hsuccess

end PipelineRecord.Faithful

/-- What a driving call has in prospect is what the executor makes of its stage. -/
def Point.Faithful (b : Behaviour) (config : PipelineConfig) : Point → Prop
  | waiting trial _ =>
    trial.attempt.config = config ∧ trial.prospect b = b.result config trial.attempt.stage
  | settling x => x.timeless = b.result config x.stage
  | _ => True

section Moves

variable {engine : EngineConfig} {b : Behaviour} {id : PipelineId} {r r' : PipelineRecord}
  {p p' : Point} {move : Move}

/-- What a call hears is what the executor answers. -/
def Move.Answers (b : Behaviour) (p : Point) (move : Move) : Prop :=
  ∀ trial wait signal, p = .waiting trial wait → move = .hear signal →
    signal.isRested = false → trial.resting = false →
    signal = (b trial.attempt.stage trial.count.toNat).signal

theorem Trial.Step.eq_due {settings : TrialSettings} {trial : Trial} {now : Duration}
    {signal : Signal} {progress : Trial.Progress} (h : trial.Step settings now signal progress)
    (hanswers : signal.isRested = false → trial.resting = false →
      signal = (b trial.attempt.stage trial.count.toNat).signal) : signal = trial.due b := by
  have hrested := h.isRested_eq
  unfold due
  cases hresting : trial.resting with
  | true =>
    rw [hresting] at hrested
    cases signal with
    | rested => rfl
    | answered answer => contradiction
    | timedOut => contradiction
  | false => exact hanswers (hrested.trans hresting) hresting

/-- A trial that goes on keeps what it has in prospect, and its result is just that. -/
theorem Trial.Step.faithful {settings : TrialSettings} {trial : Trial} {wait : Wait}
    {now : Duration} {progress : Trial.Progress} {config : PipelineConfig}
    (hstep : trial.Step settings now (trial.due b) progress) (ht : trial.WithinBudget)
    (h : (Point.waiting trial wait).Faithful b config) :
    (Point.ofTrial progress).Faithful b config := by
  obtain ⟨hconfig, hprospect⟩ := h
  cases progress with
  | waiting trial' wait' =>
    have heq := hstep.attempt_eq
    exact ⟨by rw [heq, hconfig], by rw [hstep.prospect_eq ht, hprospect, heq]⟩
  | finished x =>
    change x.timeless = _
    rw [hstep.timeless_eq ht, hprospect, hstep.stage_eq]

/-- A call that is not given up leaves a pipeline that is under way under way. -/
theorem Moves.started (hmoves : Moves engine id r p move r' p') (hmove : move ≠ .drop)
    (hpending : r.pipeline.status ≠ .pending) (hpaused : r.pipeline.status ≠ .paused) :
    r'.pipeline.status ≠ .pending ∧ r'.pipeline.status ≠ .paused := by
  cases hmoves with
  | drop now => contradiction
  | record now hfailed hsuccess =>
    rw [Pipeline.status_addResult]
    exact ⟨hpending, hpaused⟩
  | complete now hfailed => exact ⟨nofun, nofun⟩
  | fail now hfailed hsuccess => exact ⟨nofun, nofun⟩
  | _ => exact ⟨hpending, hpaused⟩

/-- A move keeps every result what the executor makes of its stage. -/
theorem Moves.faithful (hmoves : Moves engine id r p move r' p') (hdriven : r.Driven p)
    (hfailed : r.pipeline.status ≠ .failed) (hr : r.Faithful b) (hp : p.Faithful b r.config)
    (hanswers : move.Answers b p) : r'.Faithful b ∧ p'.Faithful b r.config := by
  have hpoint := hdriven.point hfailed
  cases hmoves with
  | halt hpaused => exact ⟨hr.congr rfl rfl rfl fun hstatus => hstatus, trivial⟩
  | stop hstatus => contradiction
  | skip hpaused hstatus hdone => exact ⟨hr, trivial⟩
  | begin now hpaused hstatus hopen =>
    exact ⟨hr.congr rfl rfl rfl fun hstatus => hstatus, rfl, rfl⟩
  | complete now hstatus => exact ⟨hr.congr rfl rfl rfl nofun, trivial⟩
  | hear hresume =>
    have hstep := Trial.Step.of_resume hresume
    have hdue := hstep.eq_due (hanswers _ _ _ rfl rfl)
    rw [hdue] at hstep
    exact ⟨hr, hstep.faithful hpoint.budget hp⟩
  | discard hstatus => contradiction
  | record now hstatus hsuccess =>
    exact ⟨hr.addResult_of_success hdriven.record now.instant hfailed hpoint.stage hsuccess hp,
      trivial⟩
  | fail now hstatus hsuccess => exact ⟨hr.addResult_of_failure now.instant hsuccess hp, trivial⟩
  | drop now =>
    refine ⟨?_, trivial⟩
    unfold PipelineRecord.release
    dsimp only
    split
    · exact hr.congr rfl rfl rfl nofun
    · exact hr.congr rfl rfl rfl fun hstatus => hstatus

end Moves

namespace View

variable {engine : EngineConfig} {b : Behaviour} {config : PipelineConfig} {id : PipelineId}
  {v v' : View} {act : Act} {outs : List Output}

/-- The record and the calls that drive the pipeline are what the executor has made of it so far. -/
structure Faithful (b : Behaviour) (config : PipelineConfig) (v : View) : Prop where
  regular : v.Regular
  record : ∀ r, v.record = some r → r.config = config ∧ config.refusal? = none ∧ r.Faithful b
  points : ∀ n p, v.points n = some p → p.Faithful b config

/-- A pipeline that has a driver has not failed, since it is not cancelled. -/
theorem Faithful.ne_failed {r : PipelineRecord} {points : Nat → Option Point} {n : Nat}
    (h : Faithful b config ⟨some r, points⟩) (hn : Live ⟨some r, points⟩ n) :
    r.pipeline.status ≠ .failed := by
  intro hstatus
  have hdriven : r.driven = true := (h.regular.sole.driven r rfl).mp ⟨n, hn⟩
  obtain ⟨done, x, -, -, -, -, -, -, hnot⟩ :=
    (h.record r rfl).2.2.exists_last (h.regular.record r rfl) hstatus
  simp [hdriven] at hnot

theorem Faithful.of_record {r r' : PipelineRecord} {points points' : Nat → Option Point}
    (h : Faithful b config ⟨some r, points⟩) (hregular : Regular ⟨some r', points'⟩)
    (hr : r'.config = r.config ∧ r'.Faithful b)
    (hpoints : ∀ n p, points' n = some p → points n = some p ∨ p.Faithful b config) :
    Faithful b config ⟨some r', points'⟩ where
  regular := hregular
  record := by
    intro r'' heq
    obtain rfl := Option.some.inj heq
    obtain ⟨hconfig, haccepted, -⟩ := h.record r rfl
    exact ⟨hr.1.trans hconfig, haccepted, hr.2⟩
  points := by
    intro n p hp
    rcases hpoints n p hp with hp | hp
    · exact h.points n p hp
    · exact hp

theorem Faithful.of_update {r r' : PipelineRecord} {points : Nat → Option Point} {n : Nat}
    {p : Point} (h : Faithful b config ⟨some r, points⟩)
    (hregular : Regular ⟨some r', Function.update points n (some p)⟩)
    (hr : r'.config = r.config ∧ r'.Faithful b) (hp : p.Faithful b config) :
    Faithful b config ⟨some r', Function.update points n (some p)⟩ := by
  refine h.of_record hregular hr ?_
  intro m q hq
  rcases update_eq_some_iff.mp hq with ⟨-, rfl⟩ | ⟨-, hbefore⟩
  · exact .inr hp
  · exact .inl hbefore

theorem Faithful.step (hstep : Step engine id v act outs v') (h : v.Faithful b config)
    (hcreate : ∀ c, act = .create id c → c = config)
    (hrestore : ∀ p c, act = .restore p c → p.id ≠ id) (hcancel : act ≠ .cancel id)
    (hanswers : ∀ n move p, act = .advance n move → v.points n = some p → move.Answers b p) :
    v'.Faithful b config := by
  have hregular := h.regular.step hstep hrestore
  cases hstep with
  | create now haccepted =>
    obtain rfl := hcreate _ rfl
    refine ⟨hregular, ?_, h.points⟩
    intro r heq
    obtain rfl := Option.some.inj heq
    exact ⟨rfl, haccepted, ⟨nofun, nofun, rfl⟩⟩
  | restore now hid => exact absurd hid (hrestore _ _ rfl)
  | claim now hentry hdriven hnew =>
    obtain ⟨-, -, hr⟩ := h.record _ rfl
    exact h.of_update hregular ⟨rfl, hr.congr rfl rfl rfl nofun⟩ trivial
  | rejoin now hentry hdriven =>
    obtain ⟨-, -, hr⟩ := h.record _ rfl
    exact h.of_record hregular ⟨rfl, hr.congr rfl rfl rfl nofun⟩ fun _ _ => .inl
  | pause now hrunning =>
    obtain ⟨-, -, hr⟩ := h.record _ rfl
    exact h.of_record hregular ⟨rfl, hr.congr rfl rfl rfl nofun⟩ fun _ _ => .inl
  | cancel now => exact absurd rfl hcancel
  | move hpoint hmoves =>
    obtain ⟨hconfig, -, hr⟩ := h.record _ rfl
    obtain ⟨hr', hp'⟩ := hmoves.faithful (h.regular.driven hpoint hmoves.isLive)
      (h.ne_failed ⟨_, hpoint, hmoves.isLive⟩) hr (hconfig ▸ h.points _ _ hpoint)
      (hanswers _ _ _ rfl hpoint)
    exact h.of_update hregular ⟨hmoves.config_eq, hr'⟩ (hconfig ▸ hp')

/-! ### Requests -/

/-- The requests that have come out are those behind the results, and those of the stage that a
driving call is working on, unless a call was given up. -/
def Logged (engine : EngineConfig) (v : View) (log : List (Stage × CompletionRequest)) : Prop :=
  (v.record = none → log = []) ∧
  ∀ r, v.record = some r → (∀ n, v.points n ≠ some .dropped) →
    ((∀ n, ¬ v.Live n) → log = r.sent engine) ∧
    ∀ n p, v.points n = some p → p.isLive = true → log = r.sent engine ++ p.sent engine r

/-- A change that is not about results, and of no call. -/
theorem Logged.of_record {r r' : PipelineRecord} {points : Nat → Option Point}
    {log : List (Stage × CompletionRequest)} (h : Logged engine ⟨some r, points⟩ log)
    (hsent : r'.sent engine = r.sent engine)
    (hrequest : ∀ stage, r'.request engine stage = r.request engine stage) :
    Logged engine ⟨some r', points⟩ log := by
  refine ⟨nofun, ?_⟩
  intro r'' heq hkept
  obtain rfl := Option.some.inj heq
  obtain ⟨hidle, hlive⟩ := h.2 r rfl hkept
  refine ⟨fun hnone => (hidle hnone).trans hsent.symm, ?_⟩
  intro n p hp hpoint
  rw [hlive n p hp hpoint, hsent]
  cases p with
  | waiting trial wait => simp only [Point.sent, hrequest]
  | settling x => simp only [Point.sent, hrequest]
  | _ => rfl

/-- After a move the log is that of the call that has moved, since no other one drives the
pipeline. -/
theorem Logged.of_update {r : PipelineRecord} {points : Nat → Option Point} {n : Nat} {p : Point}
    {log : List (Stage × CompletionRequest)}
    (hothers : ∀ m, m ≠ n → ¬ Live ⟨some r, points⟩ m) (hbefore : points n ≠ some .dropped)
    (hlog : p ≠ .dropped → (∀ m, points m ≠ some .dropped) →
      log = r.sent engine ++ p.sent engine r) :
    Logged engine ⟨some r, Function.update points n (some p)⟩ log := by
  refine ⟨nofun, ?_⟩
  intro r' heq hkept
  obtain rfl := Option.some.inj heq
  have hp : p ≠ .dropped := fun hdropped =>
    hkept n (update_eq_some_iff.mpr (.inl ⟨rfl, hdropped⟩))
  have hothers' : ∀ m, points m ≠ some .dropped := by
    intro m hm
    by_cases hmn : m = n
    · exact hbefore (hmn ▸ hm)
    · exact hkept m (update_eq_some_iff.mpr (.inr ⟨hmn, hm⟩))
  have hlog' := hlog hp hothers'
  refine ⟨?_, ?_⟩
  · intro hnone
    have hended : p.isLive = false := by
      rw [Bool.eq_false_iff]
      intro hlive
      exact hnone n (live_update_iff.mpr (.inl ⟨rfl, hlive⟩))
    rw [hlog']
    cases p with
    | returned result => exact List.append_nil _
    | dropped => exact List.append_nil _
    | _ => contradiction
  · intro m q hq hlive
    rcases update_eq_some_iff.mp hq with ⟨-, rfl⟩ | ⟨hm, hbefore'⟩
    · exact hlog'
    · exact absurd ⟨q, hbefore', hlive⟩ (hothers m hm)

theorem Logged.step (hstep : Step engine id v act outs v') (hv : v.Faithful b config)
    {log : List (Stage × CompletionRequest)} (h : v.Logged engine log)
    (hrestore : ∀ p c, act = .restore p c → p.id ≠ id) (hcancel : act ≠ .cancel id) :
    v'.Logged engine (log ++ requestsFor id outs) := by
  have hsole := hv.regular.sole
  cases hstep with
  | create now haccepted =>
    rw [h.1 rfl]
    refine ⟨nofun, ?_⟩
    intro r heq hkept
    obtain rfl := Option.some.inj heq
    exact ⟨fun _ => rfl, fun n p hp => absurd hp (hsole.known.ne_some rfl)⟩
  | restore now hid => exact absurd hid (hrestore _ _ rfl)
  | claim now hentry hdriven hnew =>
    have hlive := hsole.not_live rfl hdriven
    refine .of_update (fun m _ => hlive m) (by simp [hnew]) ?_
    intro _ hkept
    rw [requestsFor_nil, List.append_nil, (h.2 _ rfl hkept).1 hlive]
    exact (List.append_nil _).symm
  | rejoin now hentry hdriven =>
    rw [show requestsFor id _ = [] from rfl, List.append_nil]
    exact h.of_record rfl fun _ => rfl
  | pause now hrunning =>
    rw [show requestsFor id _ = [] from rfl, List.append_nil]
    exact h.of_record rfl fun _ => rfl
  | cancel now => exact absurd rfl hcancel
  | move hpoint hmoves =>
    have hn := hmoves.isLive
    refine .of_update ?_ ?_ ?_
    · intro m hm hlive
      exact hm (hsole.unique m _ hlive ⟨_, hpoint, hn⟩)
    · intro hdropped
      rw [hpoint] at hdropped
      rw [Option.some.inj hdropped] at hn
      contradiction
    · intro hp hkept
      rw [(h.2 _ rfl hkept).2 _ _ hpoint hn]
      exact hmoves.sent_eq (hv.regular.driven hpoint hn) (hv.ne_failed ⟨_, hpoint, hn⟩)
        (hv.record _ rfl).2.2.artifacts hp

end View

/-! ### Runs -/

/-- The requests behind what an executor makes of a pipeline. -/
def Behaviour.requests (engine : EngineConfig) (b : Behaviour) (config : PipelineConfig) :
    List (Stage × CompletionRequest) :=
  sentFor engine config .empty (b.results config Stage.all)

namespace Fleet

variable {engine : EngineConfig} {b : Behaviour} {config : PipelineConfig} {id : PipelineId}
  {s : Fleet} {e : Event} {es : List Event} {n : Nat}

/-- The pipeline is created with some settings, and neither cancelled nor restored, and what its
driving calls hear is what the executor answers. -/
structure Undisturbed (b : Behaviour) (id : PipelineId) (config : PipelineConfig) (s : Fleet)
    (e : Event) : Prop where
  fresh : e.Fresh s
  created : ∀ c, e.act = .create id c → c = config
  unrestored : ¬ e.Restores id
  uncancelled : ¬ e.Cancels id
  answered : ∀ n move p, e.act = .advance n move → s.calls[n]? = some ⟨id, p⟩ → move.Answers b p

/-- What holds after a run that the pipeline was not disturbed in, with what has come out of it. -/
def Traced (engine : EngineConfig) (b : Behaviour) (id : PipelineId) (config : PipelineConfig)
    (s : Fleet) (outs : List Output) : Prop :=
  (s.view id).Faithful b config ∧ (s.view id).Logged engine (requestsFor id outs)

theorem traced_initial (engine : EngineConfig) (b : Behaviour) (id : PipelineId)
    (config : PipelineConfig) : initial.Traced engine b id config [] := by
  refine ⟨⟨regular_initial id, ?_, ?_⟩, fun _ => rfl, ?_⟩ <;> simp [view, initial]

/-- What such an event restores is another pipeline. -/
theorem Undisturbed.ne_of_restore (he : Undisturbed b id config s e) {p : Pipeline}
    {c : PipelineConfig} (hact : e.act = .restore p c) : p.id ≠ id :=
  fun hid => he.unrestored ⟨p, c, hact, hid⟩

/-- What an event makes of the view of a pipeline that it does not disturb. -/
theorem faithful_next (he : Undisturbed b id config s e) (h : (s.view id).Faithful b config) :
    ((s.next engine e).view id).Faithful b config := by
  refine holds_next he.fresh h.regular.sole.known h fun v hstep =>
    h.step hstep he.created (fun _ _ => he.ne_of_restore) he.uncancelled ?_
  intro n move p hact hp
  exact he.answered n move p hact (points_view_eq_some_iff.mp hp)

/-- What it makes of what has been sent for the pipeline. -/
theorem logged_next (he : Undisturbed b id config s e) (hfaithful : (s.view id).Faithful b config)
    {log : List (Stage × CompletionRequest)} (h : (s.view id).Logged engine log) :
    ((s.next engine e).view id).Logged engine (log ++ requestsFor id (s.react engine e).2) := by
  rcases accounted engine he.fresh hfaithful.regular.sole.known with ⟨hsame, hothers⟩ | hstep
  · rw [hsame, requestsFor_eq_nil hothers, List.append_nil]
    exact h
  · exact h.step hstep hfaithful (fun _ _ => he.ne_of_restore) he.uncancelled

/-- What a run preserves that the pipeline is not disturbed in. -/
theorem logged_of_along (hes : s.Along engine (Undisturbed b id config) es)
    (hfaithful : (s.view id).Faithful b config) {log : List (Stage × CompletionRequest)}
    (hlogged : (s.view id).Logged engine log) :
    ((s.run engine es).view id).Faithful b config ∧
      ((s.run engine es).view id).Logged engine (log ++ requestsFor id (s.emitted engine es)) := by
  induction es generalizing s log with
  | nil =>
    rw [emitted_nil, requestsFor_nil, List.append_nil]
    exact ⟨hfaithful, hlogged⟩
  | cons e es ih =>
    have hend := ih hes.2 (faithful_next hes.1 hfaithful) (logged_next hes.1 hfaithful hlogged)
    rw [emitted_cons, requestsFor_append, ← List.append_assoc]
    exact hend

theorem traced_of_along (hes : initial.Along engine (Undisturbed b id config) es) :
    (initial.run engine es).Traced engine b id config (initial.emitted engine es) := by
  obtain ⟨hfaithful, hlogged⟩ := traced_initial engine b id config
  exact logged_of_along hes hfaithful hlogged

/-- The moves of a call that hears what the executor answers do not disturb a pipeline. -/
theorem undisturbed_pursuit (engine : EngineConfig) (b : Behaviour) (id : PipelineId)
    (config : PipelineConfig) (s : Fleet) (n : Nat) (nows : List Moment) :
    s.Along engine (Undisturbed b id config) (s.pursuit engine b n nows) := by
  refine along_pursuit nows ?_
  intro s call move now hcall hdue
  refine ⟨by simp [Event.Fresh], by simp, by simp [Event.Restores], by simp [Event.Cancels], ?_⟩
  rintro m move' p hact hp trial wait signal rfl rfl - hresting
  obtain ⟨rfl, rfl⟩ := Act.advance.inj hact
  obtain rfl := Option.some.inj (hcall.symm.trans hp)
  have hsignal := Move.hear.inj (Option.some.inj hdue)
  rw [← hsignal, Trial.due, if_neg (by simp [hresting])]

/-- What a pipeline has come to at its end is what the executor makes of it, and what has been sent
is what stands behind its results. -/
theorem outcome_of_faithful (hfaithful : (s.view id).Faithful b config)
    {log : List (Stage × CompletionRequest)} (hlogged : (s.view id).Logged engine log)
    {r : PipelineRecord} (hget : s.store.get? id = some r)
    (hterminal : r.pipeline.status.isTerminal = true) :
    r.pipeline.outcome = b.outcome config ∧
      ((∀ n : Nat, s.calls[n]? ≠ some ⟨id, .dropped⟩) → log = b.requests engine config) := by
  obtain ⟨hconfig, -, hr⟩ := hfaithful.record r hget
  have hregular := hfaithful.regular.record r hget
  have houtcome := hr.outcome_eq hregular hterminal
  rw [hconfig] at houtcome
  refine ⟨houtcome, ?_⟩
  intro hkept
  have hdriven := hr.not_driven hregular (hfaithful.regular.sole.consistent r hget) hterminal
  have hidle := hfaithful.regular.sole.not_live hget hdriven
  have hlog := (hlogged.2 r hget fun n hn => hkept n (points_view_eq_some_iff.mp hn)).1 hidle
  rw [hlog, PipelineRecord.sent, hconfig, ← sentFor_map_timeless, Behaviour.requests]
  exact congrArg (sentFor engine config .empty) (congrArg Outcome.results houtcome)

/-- What a pipeline has come to at its end is what the executor makes of it, and the requests that
have come out are those behind it. -/
theorem outcome_of_undisturbed (hes : initial.Along engine (Undisturbed b id config) es)
    {r : PipelineRecord} (hget : (initial.run engine es).store.get? id = some r)
    (hterminal : r.pipeline.status.isTerminal = true) :
    r.pipeline.outcome = b.outcome config ∧
      ((∀ n : Nat, (initial.run engine es).calls[n]? ≠ some ⟨id, .dropped⟩) →
        requestsFor id (initial.emitted engine es) = b.requests engine config) := by
  obtain ⟨hfaithful, hlogged⟩ := traced_of_along hes
  exact outcome_of_faithful hfaithful hlogged hget hterminal

end Fleet

end StagedPipeline
