import StagedPipeline.Proofs.Driving.Restoration

/-!
# Recovery from a snapshot

An engine is lost, but a snapshot of one of its pipelines was written down. It is read back,
restored into a new engine and run to its end (`Fleet.recovery`). Nothing of what was completed is
done again, and the pipeline comes to what it would have come to in one go
(`Fleet.recovery_does_not_show`): the requests of the new engine are those of a run without
interruptions, less the ones for the stages that the snapshot has completed.
-/

namespace StagedPipeline

/-! ### The identifier of a record -/

theorem Moves.id_eq {engine : EngineConfig} {id : PipelineId} {r r' : PipelineRecord}
    {p p' : Point} {move : Move} (h : Moves engine id r p move r' p') :
    r'.pipeline.id = r.pipeline.id := by
  cases h with
  | record now hfailed hsuccess => exact r.pipeline.id_addResult _ now.instant
  | fail now hfailed hsuccess => exact r.pipeline.id_addResult _ now.instant
  | drop now =>
    unfold PipelineRecord.release
    dsimp only
    split <;> rfl
  | _ => rfl

namespace View

variable {engine : EngineConfig} {id : PipelineId} {v v' : View} {act : Act} {outs : List Output}

/-- The record of a pipeline is that of its identifier. -/
structure Named (id : PipelineId) (v : View) : Prop where
  known : v.Known
  record : ∀ r, v.record = some r → r.pipeline.id = id

theorem Named.of_record {r : PipelineRecord} {points : Nat → Option Point}
    (h : r.pipeline.id = id) : Named id ⟨some r, points⟩ where
  known := by simp [Known]
  record := by
    intro r' heq
    obtain rfl := Option.some.inj heq
    exact h

theorem Named.step (hstep : Step engine id v act outs v') (h : v.Named id) : v'.Named id := by
  cases hstep with
  | create now haccepted => exact .of_record rfl
  | restore now hid => exact .of_record ((PipelineRecord.id_adopt _ _ _).trans hid)
  | move hpoint hmoves => exact .of_record (hmoves.id_eq.trans (h.record _ rfl))
  | _ =>
    have hid := h.record _ rfl
    exact .of_record hid

theorem Step.closed_of_cancel (hstep : Step engine id v act outs v') (hact : act = .cancel id) :
    v'.Closed (fun _ => True) := by
  cases hstep with
  | cancel now => exact ⟨⟨_, rfl, rfl⟩, fun _ _ => trivial⟩
  | _ => contradiction

end View

/-! ### What is sent for the stages that are left -/

theorem mem_sentFor {engine : EngineConfig} {config : PipelineConfig} {artifacts : ArtifactSet}
    {xs : List StageResult} {q : Stage × CompletionRequest}
    (h : q ∈ sentFor engine config artifacts xs) : q.1 ∈ xs.map (·.stage) := by
  have hstage : q.1 ∈ (sentFor engine config artifacts xs).map Prod.fst := List.mem_map_of_mem h
  rw [map_fst_sentFor] at hstage
  obtain ⟨x, hx, hq⟩ := List.mem_flatMap.mp hstage
  exact List.mem_map.mpr ⟨x, hx, (List.eq_of_mem_replicate hq).symm⟩

namespace Behaviour

variable {b : Behaviour} {config : PipelineConfig}

theorem stage_resultFrom (stage : Stage) (left n : Nat) :
    (b.resultFrom config stage left n).stage = stage := by
  induction left generalizing n with
  | zero =>
    rw [resultFrom]
    split <;> rfl
  | succ left ih =>
    rw [resultFrom]
    split
    · rfl
    · exact ih (n + 1)

theorem stage_result (stage : Stage) : (b.result config stage).stage = stage :=
  stage_resultFrom stage _ _

theorem map_stage_results_subset (stages : List Stage) :
    (b.results config stages).map (·.stage) ⊆ stages := by
  induction stages with
  | nil => exact List.Subset.refl _
  | cons stage stages ih =>
    rw [results]
    split
    · rw [List.map_cons, stage_result]
      exact List.cons_subset_cons _ ih
    · rw [List.map_singleton, stage_result]
      exact List.cons_subset_cons _ (List.nil_subset _)

/-- What is sent once the first stages are completed are the requests for the others. -/
theorem eq_filter_requests (engine : EngineConfig) {k : Nat}
    (hsuccess : ∀ stage ∈ Stage.all.take k, (b.result config stage).success = true)
    {rest : List (Stage × CompletionRequest)}
    (h : sentFor engine config .empty ((Stage.all.take k).map (b.result config)) ++ rest =
      b.requests engine config) :
    rest = (b.requests engine config).filter fun q => !(Stage.all.take k).contains q.1 := by
  have hresults := b.results_append (Stage.all.drop k) hsuccess
  rw [List.take_append_drop] at hresults
  have hrest := h
  rw [requests, hresults, sentFor_append] at hrest
  have hlater : ∀ q ∈ rest, q.1 ∉ Stage.all.take k := by
    intro q hq hdone
    rw [List.append_cancel_left hrest] at hq
    have hdrop : q.1 ∈ Stage.all.drop k := map_stage_results_subset _ (mem_sentFor hq)
    exact List.disjoint_take_drop (by decide : Stage.all.Nodup) (Nat.le_refl k) hdone hdrop
  have hearlier : ∀ q ∈ sentFor engine config .empty ((Stage.all.take k).map (b.result config)),
      q.1 ∈ Stage.all.take k := by
    intro q hq
    obtain ⟨x, hx, hstage⟩ := List.mem_map.mp (mem_sentFor hq)
    obtain ⟨stage, hmem, rfl⟩ := List.mem_map.mp hx
    rw [← hstage, stage_result]
    exact hmem
  rw [← h, List.filter_append, List.filter_eq_nil_iff.mpr, List.filter_eq_self.mpr, List.nil_append]
  · intro q hq
    simpa using hlater q hq
  · intro q hq
    simpa using hearlier q hq

end Behaviour

namespace Fleet

variable {engine : EngineConfig} {b : Behaviour} {config : PipelineConfig} {id : PipelineId}
  {s : Fleet} {e : Event} {es : List Event} {r : PipelineRecord} {p : Pipeline}

/-! ### The lost engine -/

/-- The pipeline is created with some settings and not restored, and what its driving calls hear is
what the executor answers. -/
structure Served (b : Behaviour) (id : PipelineId) (config : PipelineConfig) (s : Fleet)
    (e : Event) : Prop where
  fresh : e.Fresh s
  created : ∀ c, e.act = .create id c → c = config
  unrestored : ¬ e.Restores id
  answered : ∀ n move p, e.act = .advance n move → s.calls[n]? = some ⟨id, p⟩ → move.Answers b p

/-- A pipeline that is cancelled has come to its end. -/
theorem faithful_or_closed_next (he : Served b id config s e)
    (h : (s.view id).Faithful b config ∨ (s.view id).Closed (fun _ => True)) :
    ((s.next engine e).view id).Faithful b config ∨
      ((s.next engine e).view id).Closed (fun _ => True) := by
  rcases h with h | h
  · by_cases hcancel : e.Cancels id
    · rcases accounted engine he.fresh h.regular.sole.known with ⟨hsame, -⟩ | hstep
      · exact .inl (hsame ▸ h)
      · exact .inr (hstep.closed_of_cancel hcancel)
    · exact .inl (faithful_next ⟨he.fresh, he.created, he.unrestored, hcancel, he.answered⟩ h)
  · exact .inr (closed_next ⟨he.fresh, he.unrestored⟩ h)

/-- A pipeline that has not come to its end is what the executor has made of it so far. -/
theorem faithful_of_served (hes : initial.Along engine (Served b id config) es)
    (hget : (initial.run engine es).store.get? id = some r)
    (hopen : r.pipeline.status.isTerminal = false) :
    ((initial.run engine es).view id).Faithful b config := by
  have hinitial : (initial.view id).Faithful b config := (traced_initial engine b id config).1
  have hend := hes.preserves (fun _ _ he => faithful_or_closed_next he) (.inl hinitial)
  refine hend.resolve_right ?_
  rintro ⟨⟨r', hr', hterminal⟩, -⟩
  obtain rfl := Option.some.inj (hget.symm.trans hr')
  simp [hopen] at hterminal

theorem named_next (hfresh : e.Fresh s) (h : (s.view id).Named id) :
    ((s.next engine e).view id).Named id :=
  holds_next hfresh h.known h fun _ hstep => h.step hstep

theorem id_of_served (hes : initial.Along engine (Served b id config) es)
    (hget : (initial.run engine es).store.get? id = some r) : r.pipeline.id = id := by
  have hinitial : (initial.view id).Named id := ⟨(sole_initial id).known, by simp [view, initial]⟩
  have hend := hes.preserves (fun _ _ he => named_next he.fresh) hinitial
  exact hend.record r hget

theorem exists_record_of_snapshot (h : s.store.snapshot id = .ok p) :
    ∃ r, s.store.get? id = some r ∧ r.pipeline = p := by
  unfold Store.snapshot Store.pipeline? at h
  cases hget : s.store.get? id with
  | none => simp [hget] at h
  | some r =>
    simp only [hget, Option.map_some] at h
    exact ⟨r, rfl, Except.ok.inj h⟩

/-! ### The new engine -/

/-- A pipeline is restored and run. -/
def reopening (p : Pipeline) (config : PipelineConfig) (now later : Moment) : List Event :=
  [⟨.restore p config, now⟩, ⟨.drive .execute p.id, later⟩]

/-- A pipeline is restored into a new engine and run, and its driver is left to itself. -/
def recovery (engine : EngineConfig) (b : Behaviour) (p : Pipeline) (config : PipelineConfig)
    (now later : Moment) (nows : List Moment) : List Event :=
  reopening p config now later ++
    (initial.run engine (reopening p config now later)).pursuit engine b 0 nows

theorem requestsFor_reopening (engine : EngineConfig) (p : Pipeline) (config : PipelineConfig)
    (now later : Moment) (id : PipelineId) :
    requestsFor id (initial.emitted engine (reopening p config now later)) = [] := by
  simp only [reopening, emitted_cons, emitted_nil, requestsFor_append, List.append_nil]
  simp only [react]
  split <;> rfl

theorem begun_reopening (engine : EngineConfig) (config : PipelineConfig) (now later : Moment)
    (h : p.Backed) (hopen : p.status.isTerminal = false) :
    (initial.run engine (reopening p config now later)).Begun p.id
      (.revived p config later.instant) := by
  have hget := get?_restored engine initial config now (rfl : p.id = p.id)
  have hentry := PipelineRecord.entryError?_adopt p.id p config now.instant hopen
  have hstart : (PipelineRecord.adopt p config now.instant).start .execute p.id later.instant =
      (.revived p config later.instant, .ok true) := PipelineRecord.start_adopt h hopen
  have hcalls := calls_drive engine later hget hentry rfl
  have hset := Store.get?_update_self (·.start .execute p.id later.instant) hget
  rw [← Engine.store_claim, hstart] at hset
  refine ⟨hcalls, ?_, rfl⟩
  change ((initial.restored engine p config now).next engine
    ⟨.drive .execute p.id, later⟩).store.get? p.id = _
  simp only [next, react]
  split <;> exact hset

namespace Begun

theorem faithful (h : s.Begun id r) (hdriven : r.driven = true) (hregular : r.Regular)
    (hr : r.Faithful b) (haccepted : r.config.refusal? = none) :
    (s.view id).Faithful b r.config := by
  have hview : s.view id = ⟨some r, (s.view id).points⟩ := view_of_get? h.record
  have hsole : (s.view id).Sole := by
    have hlive : ∀ n, View.Live ⟨some r, (s.view id).points⟩ n ↔ n = 0 ∧ r.driven = true := by
      intro n
      rw [← hview, h.live_iff, hdriven]
      simp
    rw [hview]
    exact .of_live_iff hlive (by simp [PipelineRecord.Consistent, h.running, hdriven])
  have hrecord : ∀ r', (s.view id).record = some r' → r' = r :=
    fun r' hr' => Option.some.inj (hr'.symm.trans h.record)
  refine ⟨⟨hsole, ?_, ?_⟩, ?_, ?_⟩
  · intro r' hr'
    rw [hrecord r' hr']
    exact hregular
  · intro r' hr' _ n q hq
    obtain ⟨-, rfl⟩ := h.point_eq_some_iff.mp hq
    exact ⟨0, Nat.zero_le _, rfl⟩
  · intro r' hr'
    rw [hrecord r' hr']
    exact ⟨rfl, haccepted, hr⟩
  · intro n q hq
    obtain ⟨-, rfl⟩ := h.point_eq_some_iff.mp hq
    trivial

theorem logged (h : s.Begun id r) (engine : EngineConfig) :
    (s.view id).Logged engine (r.sent engine) := by
  rw [view_of_get? h.record]
  refine ⟨nofun, ?_⟩
  intro r' hr' _
  obtain rfl := Option.some.inj hr'
  refine ⟨fun _ => rfl, ?_⟩
  intro n q hq _
  obtain ⟨-, rfl⟩ := h.point_eq_some_iff.mp hq
  exact (List.append_nil _).symm

end Begun

/-- A pipeline that is run again comes to what the executor makes of it, and what is sent completes
what has been sent before. -/
theorem exists_end_of_recovery (engine : EngineConfig) (now later : Moment)
    (haccepted : config.refusal? = none) (hbacked : p.Backed)
    (hopen : p.status.isTerminal = false)
    (hregular : (PipelineRecord.revived p config later.instant).Regular)
    (hfaithful : (PipelineRecord.revived p config later.instant).Faithful b) :
    ∃ k, ∀ nows : List Moment, k ≤ nows.length →
      ∃ r result,
        (initial.run engine (recovery engine b p config now later nows)).Concluded b p.id config r
          result ∧
        (PipelineRecord.revived p config later.instant).sent engine ++
          requestsFor p.id (initial.emitted engine (recovery engine b p config now later nows)) =
            b.requests engine config := by
  have hbegun := begun_reopening engine config now later hbacked hopen
  refine ⟨(Point.walking Stage.all).rank, fun nows hlong => ?_⟩
  have hview := hbegun.faithful rfl hregular hfaithful haccepted
  rw [recovery, run_append, emitted_append, requestsFor_append, requestsFor_reopening,
    List.nil_append]
  exact hbegun.exists_end hview (hbegun.logged engine) hlong

/-- **Recovery.** A snapshot of a pipeline that has not come to its end is written down, read back
and restored into a new engine, which may have other settings. No completed stage is lost. The
pipeline is run to its end and comes to what a run without interruptions comes to, but for times;
and the new engine sends the requests that such a run sends, in their order, without those for the
stages that the snapshot has completed. -/
theorem recovery_does_not_show (hes : initial.Along engine (Served b id config) es)
    (hsnapshot : (initial.run engine es).store.snapshot id = .ok p)
    (hopen : p.status.isTerminal = false) (hlegible : p.Legible) (fresh : EngineConfig)
    (start now later : Moment) :
    ∃ p', Pipeline.record.codec.read (Pipeline.record.codec.write p) = .ok p' ∧
      (Engine.restore p' config now .empty).value.completed = p.completed ∧
      ∃ k, ∀ nows nows' : List Moment, k ≤ nows.length → k ≤ nows'.length →
        ∃ r r' result,
          (initial.run fresh (recovery fresh b p' config now later nows)).store.get? id = some r ∧
          (initial.run fresh (recovery fresh b p' config now later nows)).calls =
            [⟨id, .returned result⟩] ∧
          (initial.run engine (uninterrupted engine b id config start nows')).store.get? id =
            some r' ∧
          r.pipeline.status.isTerminal = true ∧ r'.pipeline.status.isTerminal = true ∧
          r.pipeline.outcome = r'.pipeline.outcome ∧
          requestsFor id (initial.emitted fresh (recovery fresh b p' config now later nows)) =
            (requestsFor id (initial.emitted fresh
              (uninterrupted fresh b id config start nows'))).filter
                fun q => !p.hasCompleted q.1 := by
  obtain ⟨r₀, hget₀, rfl⟩ := exists_record_of_snapshot hsnapshot
  obtain rfl := id_of_served hes hget₀
  have hview := faithful_of_served hes hget₀ hopen
  have hregular := hview.regular.record r₀ hget₀
  obtain ⟨rfl, haccepted, hfaithful⟩ := hview.record r₀ hget₀
  have hfailed : r₀.pipeline.status ≠ .failed := by
    intro hstatus
    simp [hstatus, Status.isTerminal] at hopen
  have hbacked := (hregular.backed hfailed).rounded
  refine ⟨r₀.pipeline.rounded, Pipeline.read_write hlegible,
    PipelineRecord.completed_adopt_of_backed hbacked r₀.config now.instant, ?_⟩
  have hregular' : (PipelineRecord.revived r₀.pipeline.rounded r₀.config later.instant).Regular :=
    hregular.revived hfailed
  have hfaithful' :
      (PipelineRecord.revived r₀.pipeline.rounded r₀.config later.instant).Faithful b :=
    hfaithful.revived
  obtain ⟨k₁, hrecovery⟩ :=
    exists_end_of_recovery fresh now later haccepted hbacked hopen hregular' hfaithful'
  obtain ⟨k₂, horiginal⟩ := exists_end_of_uninterrupted engine b r₀.pipeline.id start haccepted
  obtain ⟨k₃, hfresh⟩ := exists_end_of_uninterrupted fresh b r₀.pipeline.id start haccepted
  refine ⟨max k₁ (max k₂ k₃), fun nows nows' hnows hnows' => ?_⟩
  obtain ⟨r, result, hend, hsent⟩ := hrecovery nows (by omega)
  obtain ⟨r', result', hend', -⟩ := horiginal nows' (by omega)
  obtain ⟨-, -, -, hrequests⟩ := hfresh nows' (by omega)
  refine ⟨r, r', result, hend.record, hend.calls, hend'.record, hend.terminal, hend'.terminal,
    hend.outcome.trans hend'.outcome.symm, ?_⟩
  obtain ⟨hstages, hsucceeded⟩ := hregular.results_of_ne_failed hfailed
  have hsuccess : ∀ stage ∈ r₀.pipeline.completed, (b.result r₀.config stage).success = true := by
    rw [← hstages]
    exact hfaithful.success_result (fun _ hx => hx) fun x hx => (hsucceeded x hx).success
  have hfailed' : (PipelineRecord.revived r₀.pipeline.rounded r₀.config
      later.instant).pipeline.status ≠ .failed := Status.noConfusion
  rw [hfaithful'.sent_eq hregular' hfailed'] at hsent
  change sentFor fresh r₀.config .empty (r₀.pipeline.completed.map (b.result r₀.config)) ++ _ = _
    at hsent
  rw [hrequests]
  unfold Pipeline.hasCompleted
  rw [hregular.completed] at hsuccess hsent ⊢
  exact Behaviour.eq_filter_requests fresh hsuccess hsent

/-- An executor that has an empty record for every stage. -/
def emptyRecords : Behaviour := fun _ _ => .text "\x7b\x7d"

/-- An engine is lost while the second stage of a pipeline is worked on. -/
def lostRun (id : PipelineId) (now : Moment) : List Event :=
  [.create id singleAttempt, .drive .execute id, .advance 0 .proceed,
    .advance 0 (.hear (.answered (.ok "\x7b\x7d"))), .advance 0 .proceed,
    .advance 0 .proceed].map (⟨·, now⟩)

theorem along_lostRun :
    initial.Along .initial (Served emptyRecords (.ofNat 1) singleAttempt)
      (lostRun (.ofNat 1) ⟨.zero, ⟨0, 0⟩⟩) := by
  simp only [lostRun, List.map_cons, List.map_nil, along_cons, along_nil, and_true]
  refine ⟨?_, ?_, ?_, ?_, ?_, ?_⟩ <;>
    refine ⟨by simp [Event.Fresh, initial], by simp, by simp [Event.Restores], ?_⟩
  all_goals
    rintro n move p hact hp trial wait signal rfl rfl - -
    cases hact
  -- the one answer that is heard
  cases hp
  rfl

theorem exists_snapshot_lostRun :
    ∃ p, (initial.run .initial (lostRun (.ofNat 1) ⟨.zero, ⟨0, 0⟩⟩)).store.snapshot (.ofNat 1) =
        .ok p ∧
      p.status = .running ∧ p.current = some .design ∧ p.completed = [.requirements] ∧
      p.Legible := by
  refine ⟨_, rfl, rfl, rfl, rfl, ?_, ?_, rfl, rfl⟩
  · intro r hr a ha
    obtain rfl := List.mem_singleton.mp hr
    obtain rfl : .requirements ⟨[], [], []⟩ = a := Option.some.inj ha
    trivial
  · intro stage a ha
    cases stage with
    | requirements =>
      obtain rfl : .requirements ⟨[], [], []⟩ = a := Option.some.inj ha
      trivial
    | _ => cases ha

/-- The second stage is begun anew, and the pipeline is completed without a further request for the
first one. -/
theorem recovery_of_lostRun :
    ∃ p, (initial.run .initial (lostRun (.ofNat 1) ⟨.zero, ⟨0, 0⟩⟩)).store.snapshot (.ofNat 1) =
        .ok p ∧
      p.status.isTerminal = false ∧ p.Legible ∧
      ∃ p', Pipeline.record.codec.read (Pipeline.record.codec.write p) = .ok p' ∧
        ∃ k, ∀ nows : List Moment, k ≤ nows.length →
          ∃ r, (initial.run .initial (recovery .initial emptyRecords p' singleAttempt
              ⟨.zero, ⟨0, 0⟩⟩ ⟨.zero, ⟨0, 0⟩⟩ nows)).store.get? (.ofNat 1) = some r ∧
            r.pipeline.status = .completed ∧
            (requestsFor (.ofNat 1) (initial.emitted .initial (recovery .initial emptyRecords p'
              singleAttempt ⟨.zero, ⟨0, 0⟩⟩ ⟨.zero, ⟨0, 0⟩⟩ nows))).map Prod.fst =
                [.design, .coding, .testing, .deployment] := by
  obtain ⟨p, hsnapshot, hstatus, -, hcompleted, hlegible⟩ := exists_snapshot_lostRun
  have hopen : p.status.isTerminal = false := by rw [hstatus]; rfl
  obtain ⟨p', hread, -, k, hrecovery⟩ := recovery_does_not_show along_lostRun hsnapshot hopen
    hlegible .initial ⟨.zero, ⟨0, 0⟩⟩ ⟨.zero, ⟨0, 0⟩⟩ ⟨.zero, ⟨0, 0⟩⟩
  obtain ⟨k', hend⟩ := exists_end_of_uninterrupted .initial emptyRecords (.ofNat 1)
    ⟨.zero, ⟨0, 0⟩⟩ (rfl : singleAttempt.refusal? = none)
  refine ⟨p, hsnapshot, hopen, hlegible, p', hread, k, fun nows hnows => ?_⟩
  obtain ⟨r, r', result, hget, -, hget', -, -, houtcome, hrequests⟩ := hrecovery nows
    (List.replicate (max k k') ⟨.zero, ⟨0, 0⟩⟩) hnows (by simp)
  obtain ⟨r'', result'', hend'', hrequests''⟩ :=
    hend (List.replicate (max k k') ⟨.zero, ⟨0, 0⟩⟩) (by simp)
  obtain rfl := Option.some.inj (hget'.symm.trans hend''.record)
  refine ⟨r, hget, ?_, ?_⟩
  · have hstatus' : r.pipeline.status = (emptyRecords.outcome singleAttempt).status :=
      congrArg Outcome.status (houtcome.trans hend''.outcome)
    rw [hstatus']
    rfl
  · rw [hrequests, hrequests'']
    unfold Pipeline.hasCompleted
    rw [hcompleted]
    rfl

end Fleet

end StagedPipeline
