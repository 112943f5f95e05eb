import StagedPipeline.Proofs.Driving.Interruption

/-!
# What a call returns that is left to itself

A driving call that nothing disturbs brings its pipeline to the end and returns
(`Fleet.exists_end_of_pursuit`). What it returns agrees with the record: the pipeline as it is
there, or the failure that the last result tells of (`PipelineRecord.Confirms`). A single call that
has just begun leaves what the executor makes of the pipeline, and with what has been sent before it
sends what stands behind that (`Fleet.Begun.exists_end`).
-/

namespace StagedPipeline

/-- What a call returns agrees with the record that it leaves behind. -/
def PipelineRecord.Confirms (r : PipelineRecord) : DriveResult → Prop
  | .ok p => p = r.pipeline ∧ p.status ≠ .failed
  | .error e => ∃ done x, r.pipeline.results = done ++ [x] ∧ x.success = false ∧
      e = .stageFailed x.stage x.retryCount (x.error.getD "")

section Moves

variable {engine : EngineConfig} {id : PipelineId} {r r' : PipelineRecord} {p p' : Point}
  {move : Move} {result : DriveResult}

/-- A call whose pipeline was not cancelled returns what the record says. -/
theorem Moves.confirms (h : Moves engine id r p move r' p') (hfailed : r.pipeline.status ≠ .failed)
    (hreturned : p' = .returned result) : r'.Confirms result := by
  cases h with
  | halt hpaused =>
    obtain rfl := Point.returned.inj hreturned
    exact ⟨rfl, hfailed⟩
  | complete now hstatus =>
    obtain rfl := Point.returned.inj hreturned
    exact ⟨rfl, nofun⟩
  | fail now hstatus hsuccess =>
    obtain rfl := Point.returned.inj hreturned
    exact ⟨r.pipeline.results, _, rfl, hsuccess, rfl⟩
  | stop hstatus => exact absurd hstatus hfailed
  | discard hstatus => exact absurd hstatus hfailed
  | hear hresume => exact absurd hreturned (Point.ofTrial_ne rfl _)
  | _ => contradiction

end Moves

/-- A pipeline that was completed is what the call returns. -/
theorem PipelineRecord.Confirms.eq_ok {r : PipelineRecord} {result : DriveResult}
    (h : r.Confirms result) (hr : r.Regular) (hstatus : r.pipeline.status = .completed) :
    result = .ok r.pipeline := by
  cases result with
  | ok p => rw [h.1]
  | error e =>
    obtain ⟨done, x, hresults, hsuccess, -⟩ := h
    have hsucceeded := (hr.results_of_ne_failed (by simp [hstatus])).2 x (by simp [hresults])
    simp [hsucceeded.success] at hsuccess

/-- If the pipeline has failed, the call returns the failure of its last result. -/
theorem PipelineRecord.Confirms.eq_error {r : PipelineRecord} {result : DriveResult}
    (h : r.Confirms result) (hstatus : r.pipeline.status = .failed) {done : List StageResult}
    {x : StageResult} (hresults : r.pipeline.results = done ++ [x]) :
    result = .error (.stageFailed x.stage x.retryCount (x.error.getD "")) := by
  cases result with
  | ok p =>
    obtain ⟨rfl, hne⟩ := h
    contradiction
  | error e =>
    obtain ⟨done', y, hresults', -, rfl⟩ := h
    obtain ⟨-, hlast⟩ := List.append_inj' (hresults'.symm.trans hresults) rfl
    obtain rfl := List.singleton_inj.mp hlast
    rfl

namespace View

variable {engine : EngineConfig} {b : Behaviour} {config : PipelineConfig} {id : PipelineId}
  {v v' : View} {n : Nat} {move : Move} {outs : List Output}

/-- A pipeline is under way, and nothing but one call drives it. -/
structure Pursued (n : Nat) (v : View) : Prop where
  call : ∃ p r, v.points n = some p ∧ v.record = some r ∧ r.pipeline.status ≠ .pending ∧
    r.pipeline.status ≠ .paused ∧ ∀ result, p = .returned result → r.Confirms result
  others : ∀ m, v.Live m → m = n

/-- The call goes on, and the pipeline is still under way. -/
theorem Pursued.step (hstep : Step engine id v (.advance n move) outs v') (hmove : move ≠ .drop)
    (hv : v.Faithful b config) (h : v.Pursued n) : v'.Pursued n := by
  obtain ⟨p, r, hp, hr, hpending, hpaused, -⟩ := h.call
  cases hstep with
  | move hpoint hmoves =>
    obtain rfl := Option.some.inj hr
    have hfailed := hv.ne_failed ⟨_, hpoint, hmoves.isLive⟩
    obtain ⟨hpending', hpaused'⟩ := hmoves.started hmove hpending hpaused
    refine ⟨⟨_, _, Function.update_self .., rfl, hpending', hpaused', ?_⟩, ?_⟩
    · intro result hreturned
      exact hmoves.confirms hfailed hreturned
    · intro m hm
      rcases live_update_iff.mp hm with ⟨hmn, -⟩ | ⟨-, hm⟩
      · exact hmn
      · exact h.others m hm

end View

namespace Fleet

variable {engine : EngineConfig} {b : Behaviour} {config : PipelineConfig} {id : PipelineId}
  {s : Fleet} {n : Nat} {p : Point}

/-- What the moves of the call preserve. -/
theorem pursued_next {move : Move} {now : Moment} (hmove : move ≠ .drop)
    (hfaithful : (s.view id).Faithful b config) (h : (s.view id).Pursued n) :
    ((s.next engine ⟨.advance n move, now⟩).view id).Pursued n :=
  holds_next (by simp [Event.Fresh]) hfaithful.regular.sole.known h
    fun _ hstep => h.step hstep hmove hfaithful

/-- What a run in which the call makes its moves preserves. -/
theorem pursued_pursuit (nows : List Moment) (hfaithful : (s.view id).Faithful b config)
    (h : (s.view id).Pursued n) :
    ((s.run engine (s.pursuit engine b n nows)).view id).Faithful b config ∧
      ((s.run engine (s.pursuit engine b n nows)).view id).Pursued n := by
  have hundisturbed := undisturbed_pursuit engine b id config s n nows
  have hmoves : s.Along engine (fun _ e => ∃ move, e.act = .advance n move ∧ move ≠ .drop)
      (s.pursuit engine b n nows) :=
    along_pursuit nows fun _ _ move _ _ hdue => ⟨move, rfl, Point.ne_drop_of_due hdue⟩
  generalize s.pursuit engine b n nows = es at hundisturbed hmoves
  induction es generalizing s with
  | nil => exact ⟨hfaithful, h⟩
  | cons e es ih =>
    obtain ⟨he, hundisturbed⟩ := hundisturbed
    obtain ⟨⟨move, hact, hmove⟩, hmoves⟩ := hmoves
    have hnext : ((s.next engine e).view id).Faithful b config := faithful_next he hfaithful
    obtain ⟨act, now⟩ := e
    obtain rfl : act = .advance n move := hact
    exact ih hnext (pursued_next hmove hfaithful h) hundisturbed hmoves

/-- A call that is left to itself for long enough brings its pipeline to the end, and returns what
the record says. -/
theorem exists_end_of_pursuit (hfaithful : (s.view id).Faithful b config)
    (hsound : (s.view id).Sound) (h : (s.view id).Pursued n)
    (hcall : s.calls[n]? = some ⟨id, p⟩) (hlive : p.isLive = true) {nows : List Moment}
    (hlong : p.rank ≤ nows.length) :
    ∃ r result, (s.run engine (s.pursuit engine b n nows)).store.get? id = some r ∧
      (s.run engine (s.pursuit engine b n nows)).calls[n]? = some ⟨id, .returned result⟩ ∧
      r.pipeline.status.isTerminal = true ∧ r.Confirms result := by
  obtain ⟨result, hreturned⟩ := returns_of_pursuit engine b hcall hlive hsound hlong
  obtain ⟨hfaithful', hpursued⟩ := pursued_pursuit nows hfaithful h
  obtain ⟨p', r, hp', hget, hpending, hpaused, hconfirms⟩ := hpursued.call
  have hpoint := points_view_eq_some_iff.mpr hreturned
  obtain rfl : p' = .returned result := Option.some.inj (hp'.symm.trans hpoint)
  have hsole := hfaithful'.regular.sole
  have hidle : r.driven = false := by
    refine hsole.driven_eq_false hget ?_
    intro m hm
    obtain rfl := hpursued.others m hm
    obtain ⟨q, hq, hq'⟩ := hm
    obtain rfl := Option.some.inj (hq.symm.trans hpoint)
    contradiction
  exact ⟨r, result, hget, hreturned, (hsole.consistent r hget).isTerminal hidle hpending hpaused,
    hconfirms result rfl⟩

/-! ### From the beginning -/

/-- A single call has come to run the pipeline. -/
structure Begun (s : Fleet) (id : PipelineId) (r : PipelineRecord) : Prop where
  calls : s.calls = [⟨id, .walking Stage.all⟩]
  record : s.store.get? id = some r
  running : r.pipeline.status = .running

/-- The single call has returned, and the pipeline is what the executor makes of it. -/
structure Concluded (b : Behaviour) (id : PipelineId) (config : PipelineConfig)
    (r : PipelineRecord) (result : DriveResult) (s : Fleet) : Prop where
  calls : s.calls = [⟨id, .returned result⟩]
  record : s.store.get? id = some r
  terminal : r.pipeline.status.isTerminal = true
  regular : r.Regular
  confirms : r.Confirms result
  outcome : r.pipeline.outcome = b.outcome config

theorem length_calls_pursuit (engine : EngineConfig) (b : Behaviour) (s : Fleet) (n : Nat)
    (nows : List Moment) :
    (s.run engine (s.pursuit engine b n nows)).calls.length = s.calls.length := by
  have hmoves : s.Along engine (fun _ e => e.IsMove) (s.pursuit engine b n nows) :=
    along_pursuit_isMove nows
  refine @Along.preserves _ _ (fun s' => s'.calls.length = s.calls.length) ?_ _ _ hmoves rfl
  rintro s' ⟨act, now⟩ ⟨m, move, hact, -⟩ hlength
  obtain rfl : act = .advance m move := hact
  exact length_calls_next.trans hlength

namespace Begun

variable {r : PipelineRecord}

theorem point_eq_some_iff (h : s.Begun id r) {q : Point} :
    (s.view id).points n = some q ↔ n = 0 ∧ q = .walking Stage.all := by
  rw [points_view_eq_some_iff, h.calls]
  cases n with
  | zero => simp [eq_comm]
  | succ n => simp

theorem live_iff (h : s.Begun id r) : (s.view id).Live n ↔ n = 0 := by
  simp only [View.Live, h.point_eq_some_iff]
  constructor
  · rintro ⟨q, ⟨hn, -⟩, -⟩
    exact hn
  · intro hn
    exact ⟨.walking Stage.all, ⟨hn, rfl⟩, rfl⟩

theorem sound (h : s.Begun id r) : (s.view id).Sound where
  known := by
    rw [view_of_get? h.record]
    exact nofun
  points := by
    intro n q hq
    obtain ⟨-, rfl⟩ := h.point_eq_some_iff.mp hq
    exact ⟨0, rfl⟩

theorem pursued (h : s.Begun id r) : (s.view id).Pursued 0 where
  call := ⟨.walking Stage.all, r, h.point_eq_some_iff.mpr ⟨rfl, rfl⟩, h.record,
    by simp [h.running], by simp [h.running], by simp⟩
  others _ hm := h.live_iff.mp hm

/-- The call comes to the end of the pipeline, and what it sends completes what was sent before. -/
theorem exists_end (h : s.Begun id r) (hfaithful : (s.view id).Faithful b config)
    {log : List (Stage × CompletionRequest)} (hlogged : (s.view id).Logged engine log)
    {nows : List Moment} (hlong : (Point.walking Stage.all).rank ≤ nows.length) :
    ∃ r' result, (s.run engine (s.pursuit engine b 0 nows)).Concluded b id config r' result ∧
      log ++ requestsFor id (s.emitted engine (s.pursuit engine b 0 nows)) =
        b.requests engine config := by
  have hcall : s.calls[0]? = some ⟨id, .walking Stage.all⟩ := by rw [h.calls]; rfl
  obtain ⟨r', result, hget, hreturned, hterminal, hconfirms⟩ :=
    exists_end_of_pursuit hfaithful h.sound h.pursued hcall rfl hlong
  have hlength := length_calls_pursuit engine b s 0 nows
  obtain ⟨hfaithful', hlogged'⟩ :=
    logged_of_along (undisturbed_pursuit engine b id config s 0 nows) hfaithful hlogged
  generalize s.run engine (s.pursuit engine b 0 nows) = s' at *
  obtain ⟨houtcome, hrequests⟩ := outcome_of_faithful hfaithful' hlogged' hget hterminal
  have hcalls : s'.calls = [⟨id, .returned result⟩] := by
    rw [h.calls] at hlength
    obtain ⟨call, hsingle⟩ := List.length_eq_one_iff.mp hlength
    rw [hsingle] at hreturned ⊢
    rw [Option.some.inj hreturned]
  refine ⟨r', result, ⟨hcalls, hget, hterminal, hfaithful'.regular.record r' hget, hconfirms,
    houtcome⟩, hrequests ?_⟩
  intro n
  rw [hcalls]
  cases n <;> simp

end Begun

theorem exists_begun_opening (engine : EngineConfig) (id : PipelineId) (now : Moment)
    (haccepted : config.refusal? = none) :
    ∃ r, (initial.run engine (opening id config now)).Begun id r := by
  obtain ⟨hcalls, r, hget, hrunning⟩ := run_opening engine id now haccepted
  exact ⟨r, hcalls, hget, hrunning⟩

/-- What an executor makes of a pipeline in a run without interruptions, and what is sent. -/
theorem exists_end_of_uninterrupted (engine : EngineConfig) (b : Behaviour) (id : PipelineId)
    (now : Moment) (haccepted : config.refusal? = none) :
    ∃ k, ∀ nows : List Moment, k ≤ nows.length →
      ∃ r result,
        (initial.run engine (uninterrupted engine b id config now nows)).Concluded b id config r
          result ∧
        requestsFor id (initial.emitted engine (uninterrupted engine b id config now nows)) =
          b.requests engine config := by
  obtain ⟨r, hbegun⟩ := exists_begun_opening engine id now haccepted
  refine ⟨(Point.walking Stage.all).rank, fun nows hlong => ?_⟩
  have hopening := (along_append _ _ _).mp (along_uninterrupted engine b id config now nows)
  obtain ⟨hfaithful, hlogged⟩ := traced_of_along hopening.1
  rw [uninterrupted, run_append, emitted_append, requestsFor_append]
  exact hbegun.exists_end hfaithful hlogged hlong

end Fleet

end StagedPipeline
