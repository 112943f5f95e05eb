import StagedPipeline.Proofs.Driving.Cancellation

/-!
# Restoring a pipeline under its driver

A pipeline that is restored gets a record without a driver, also if a call is driving it. That call
knows its pipeline by the identifier alone: it goes on with the new record as if it were the old
one. Whether that does any harm is decided by the status of the pipeline that is restored
(`Fleet.restore_under_driver`). A failed one keeps every call out. A completed one can no longer be
driven by another call, but takes the result of the old one; any other one takes it as well, and
can be driven by two calls at once (`Fleet.completed_of_takenOverRun`).
-/

namespace StagedPipeline

theorem PipelineRecord.status_adopt (pipeline : Pipeline) (config : PipelineConfig)
    (now : Instant) : (adopt pipeline config now).pipeline.status =
      if pipeline.status = .running then .paused else pipeline.status := by
  unfold adopt ofPipeline
  dsimp only
  rw [show (pipeline.reconcile now).status = pipeline.status from rfl]
  split <;> rfl

/-- A restored pipeline can be run, unless it has come to its end. -/
theorem PipelineRecord.entryError?_adopt (id : PipelineId) (pipeline : Pipeline)
    (config : PipelineConfig) (now : Instant) (h : pipeline.status.isTerminal = false) :
    entryError? .execute id (adopt pipeline config now).pipeline.status = none := by
  rw [status_adopt]
  cases hstatus : pipeline.status with
  | completed => simp [hstatus, Status.isTerminal] at h
  | failed => simp [hstatus, Status.isTerminal] at h
  | _ => rfl

theorem PipelineRecord.isTerminal_adopt (pipeline : Pipeline) (config : PipelineConfig)
    (now : Instant) (h : pipeline.status.isTerminal = true) :
    (adopt pipeline config now).pipeline.status.isTerminal = true := by
  rw [status_adopt, if_neg]
  · exact h
  · intro hrunning
    simp [hrunning, Status.isTerminal] at h

/-! ### A pipeline that has come to its end -/

section Moves

variable {engine : EngineConfig} {id : PipelineId} {r r' : PipelineRecord} {p p' : Point}
  {move : Move}

/-- A result that is handed in is recorded, unless the pipeline has failed. -/
theorem Moves.results_of_settling {x : StageResult}
    (hmoves : Moves engine id r (.settling x) move r' p') (hfailed : r.pipeline.status ≠ .failed) :
    r'.pipeline.results = r.pipeline.results ++ [x] := by
  cases hmoves with
  | discard hstatus => contradiction
  | record now hstatus hsuccess => rfl
  | fail now hstatus hsuccess => rfl

end Moves

namespace View

variable {engine : EngineConfig} {id : PipelineId} {v v' : View} {act : Act} {outs : List Output}
  {live : Nat → Prop}

/-- The pipeline has come to its end, and only some calls drive it. -/
structure Closed (live : Nat → Prop) (v : View) : Prop where
  record : ∃ r, v.record = some r ∧ r.pipeline.status.isTerminal = true
  live : ∀ n, v.Live n → live n

theorem Closed.known (h : v.Closed live) : v.Known := by
  obtain ⟨r, hr, -⟩ := h.record
  exact .of_record hr

theorem Closed.step (hstep : Step engine id v act outs v') (h : v.Closed live)
    (hrestore : ∀ p c, act = .restore p c → p.id ≠ id) : v'.Closed live := by
  obtain ⟨⟨r, hr, hterminal⟩, hlive⟩ := h
  cases hstep with
  | create now haccepted => contradiction
  | restore now hid => exact absurd hid (hrestore _ _ rfl)
  | claim now hentry hdriven hnew =>
    obtain rfl := Option.some.inj hr
    simp [not_isTerminal_of_entry hentry] at hterminal
  | rejoin now hentry hdriven =>
    obtain rfl := Option.some.inj hr
    simp [not_isTerminal_of_entry hentry] at hterminal
  | pause now hrunning =>
    obtain rfl := Option.some.inj hr
    simp [hrunning, Status.isTerminal] at hterminal
  | cancel now => exact ⟨⟨_, rfl, rfl⟩, hlive⟩
  | move hpoint hmoves =>
    obtain rfl := Option.some.inj hr
    refine ⟨⟨_, rfl, hmoves.isTerminal hterminal⟩, ?_⟩
    intro m hm
    rcases live_update_iff.mp hm with ⟨rfl, -⟩ | ⟨-, hm⟩
    · exact hlive m ⟨_, hpoint, hmoves.isLive⟩
    · exact hlive m hm

end View

namespace Fleet

variable {engine : EngineConfig} {s : Fleet} {e : Event} {es : List Event} {id : PipelineId}
  {n : Nat} {r : PipelineRecord} {pipeline : Pipeline} {config : PipelineConfig} {now : Moment}

theorem closed_next {live : Nat → Prop} (he : s.Created id e) (h : (s.view id).Closed live) :
    ((s.next engine e).view id).Closed live :=
  holds_next he.1 h.known h fun _ hstep => h.step hstep he.ne_of_restore

theorem closed_of_along {live : Nat → Prop} (hes : s.Along engine (Created id) es)
    (h : (s.view id).Closed live) : ((s.run engine es).view id).Closed live :=
  hes.preserves (fun _ _ he => closed_next he) h

/-! ### The engine after a restore -/

/-- The engine after a pipeline was restored. -/
def restored (engine : EngineConfig) (s : Fleet) (pipeline : Pipeline) (config : PipelineConfig)
    (now : Moment) : Fleet :=
  s.next engine ⟨.restore pipeline config, now⟩

theorem calls_restored : (s.restored engine pipeline config now).calls = s.calls := rfl

theorem get?_restored (engine : EngineConfig) (s : Fleet) (config : PipelineConfig) (now : Moment)
    (hid : pipeline.id = id) : (s.restored engine pipeline config now).store.get? id =
      some (.adopt pipeline config now.instant) := by
  have hget := Store.get?_put_self s.store (.adopt pipeline config now.instant)
  rwa [PipelineRecord.id_adopt, hid] at hget

theorem view_restored (engine : EngineConfig) (s : Fleet) (config : PipelineConfig) (now : Moment)
    (hid : pipeline.id = id) : (s.restored engine pipeline config now).view id =
      ⟨some (.adopt pipeline config now.instant), (s.view id).points⟩ :=
  view_with_store (get?_restored engine s config now hid)

/-- The results of a pipeline, if it is known. -/
def results? (s : Fleet) (id : PipelineId) : Option (List StageResult) :=
  (s.store.get? id).map (·.pipeline.results)

/-- Since some earlier point, no further call has come to drive the pipeline beside the one that
drives it, wherever a run leads. -/
def KeepsOut (engine : EngineConfig) (before s : Fleet) (id : PipelineId) (n : Nat) : Prop :=
  ∀ es, s.Along engine (Created id) es → (s.run engine es).Drives id n →
    ∀ m, (s.run engine es).Drives id m → before.Drives id m

/-- When the call hands in what has come of a stage, it is not recorded, wherever a run leads. -/
def Discards (engine : EngineConfig) (s : Fleet) (id : PipelineId) (n : Nat) (stage : Stage) :
    Prop :=
  ∀ es, s.Along engine (Created id) es → ∀ x now,
    (s.run engine es).calls[n]? = some ⟨id, .settling x⟩ → x.stage = stage →
      ((s.run engine es).next engine ⟨.advance n .proceed, now⟩).results? id =
        (s.run engine es).results? id

/-- The pipeline is completed only with all of its stages, wherever a run leads. -/
def CompletesWhole (engine : EngineConfig) (s : Fleet) (id : PipelineId) : Prop :=
  ∀ es, s.Along engine (Created id) es → ∀ r, (s.run engine es).store.get? id = some r →
    r.pipeline.status = .completed → ∀ stage, stage ∈ r.pipeline.completed

/-! ### A further driver -/

/-- A call that asks to drive a pipeline without a driver drives it. -/
theorem calls_drive {entry : PipelineRecord.Entry} (engine : EngineConfig) (now : Moment)
    (hget : s.store.get? id = some r)
    (hentry : PipelineRecord.entryError? entry id r.pipeline.status = none)
    (hdriven : r.driven = false) :
    (s.next engine ⟨.drive entry id, now⟩).calls = s.calls ++ [⟨id, .walking Stage.all⟩] := by
  rw [next, react_drive_of_undriven engine now hget hentry hdriven]

theorem isTerminal_of_keepsOut (hn : s.Drives id n) (hid : pipeline.id = id)
    (h : KeepsOut engine s (s.restored engine pipeline config now) id n) :
    pipeline.status.isTerminal = true := by
  by_contra hopen
  have hentry := PipelineRecord.entryError?_adopt id pipeline config now.instant
    (Bool.eq_false_iff.mpr hopen)
  have hcalls := calls_drive engine now (get?_restored engine s config now hid) hentry rfl
  rw [calls_restored] at hcalls
  obtain ⟨p, hp, hlive⟩ := hn
  have hlt : n < s.calls.length := (List.getElem?_eq_some_iff.mp hp).1
  have hold : ((s.restored engine pipeline config now).run engine
      [⟨.drive .execute id, now⟩]).Drives id n := by
    refine ⟨p, ?_, hlive⟩
    rw [run_cons, run_nil, hcalls, List.getElem?_append_left hlt, hp]
  have hnew : ((s.restored engine pipeline config now).run engine
      [⟨.drive .execute id, now⟩]).Drives id s.calls.length := by
    refine ⟨.walking Stage.all, ?_, rfl⟩
    rw [run_cons, run_nil, hcalls, List.getElem?_concat_length]
  obtain ⟨q, hq, -⟩ := h [⟨.drive .execute id, now⟩]
    (by simp [Created, Event.Fresh, Event.Restores]) hold _ hnew
  simp at hq

/-- A pipeline that has come to its end is driven by none but the calls that drive it already. -/
theorem closed_restored (engine : EngineConfig) (s : Fleet) (config : PipelineConfig) (now : Moment)
    (hid : pipeline.id = id) (hterminal : pipeline.status.isTerminal = true) :
    ((s.restored engine pipeline config now).view id).Closed (s.Drives id) := by
  rw [view_restored engine s config now hid]
  refine ⟨⟨_, rfl, PipelineRecord.isTerminal_adopt pipeline config now.instant hterminal⟩, ?_⟩
  exact fun m hm => drives_iff.mpr hm

theorem keepsOut_of_isTerminal (hid : pipeline.id = id)
    (hterminal : pipeline.status.isTerminal = true) :
    KeepsOut engine s (s.restored engine pipeline config now) id n := by
  intro es hes _ m hm
  have hclosed := closed_restored engine s config now hid hterminal
  exact (closed_of_along hes hclosed).live m (drives_iff.mp hm)

/-! ### The result of the old driver -/

/-- A call that waits hears what it waits for. -/
theorem next_hear {trial : Trial} {wait : Wait} {signal : Signal} {progress : Trial.Progress}
    {notices : List Notice} (hcall : s.calls[n]? = some ⟨id, .waiting trial wait⟩)
    (hresume : trial.resume (.ofEngine engine) signal now.elapsed = some (progress, notices)) :
    s.next engine ⟨.advance n (.hear signal), now⟩ =
      ⟨s.store, s.calls.set n ⟨id, .ofTrial progress⟩⟩ := by
  refine next_advance hcall ?_
  simp only [Point.advance, hresume, Option.map_some]

/-- A call that waits for an answer may get one. -/
theorem exists_settling_of_answer (engine : EngineConfig) (now : Moment) {trial : Trial}
    {wait : Wait} (hcall : s.calls[n]? = some ⟨id, .waiting trial wait⟩)
    (hresting : trial.resting = false) :
    ∃ x, (s.next engine ⟨.advance n (.hear (.answered (.ok ""))), now⟩).store = s.store ∧
      (s.next engine ⟨.advance n (.hear (.answered (.ok ""))), now⟩).calls[n]? =
        some ⟨id, .settling x⟩ ∧ x.stage = trial.attempt.stage := by
  have hrested : (Signal.answered (.ok "")).isRested = trial.resting := hresting.symm
  have hsome := trial.isSome_resume (.ofEngine engine) now.elapsed hrested
  obtain ⟨⟨progress, notices⟩, hresume⟩ := Option.isSome_iff_exists.mp hsome
  rw [next_hear hcall hresume]
  cases Trial.Step.of_resume hresume with
  | succeed _ =>
    exact ⟨_, rfl, List.getElem?_set_self (List.getElem?_eq_some_iff.mp hcall).1, rfl⟩
  | exhaust _ hfailure _ => simp [Attempt.failure?] at hfailure
  | rest _ hfailure _ => simp [Attempt.failure?] at hfailure

/-- A call that waits at a stage may come to a result of it, before anything else happens. -/
theorem exists_settling (engine : EngineConfig) (now : Moment) {trial : Trial} {wait : Wait}
    (hcall : s.calls[n]? = some ⟨id, .waiting trial wait⟩) :
    ∃ es x, s.Along engine (Created id) es ∧ (s.run engine es).store = s.store ∧
      (s.run engine es).calls[n]? = some ⟨id, .settling x⟩ ∧ x.stage = trial.attempt.stage := by
  have hadmitted : ∀ (s : Fleet) (signal : Signal),
      s.Created id ⟨.advance n (.hear signal), now⟩ := by
    simp [Created, Event.Fresh, Event.Restores]
  cases hresting : trial.resting with
  | false =>
    obtain ⟨x, hstore, hcall', hstage⟩ := exists_settling_of_answer engine now hcall hresting
    exact ⟨[_], x, ⟨hadmitted _ _, trivial⟩, hstore, hcall', hstage⟩
  | true =>
    have hrested : Signal.rested.isRested = trial.resting := hresting.symm
    have hsome := trial.isSome_resume (.ofEngine engine) now.elapsed hrested
    obtain ⟨⟨progress, notices⟩, hresume⟩ := Option.isSome_iff_exists.mp hsome
    have hnext := next_hear hcall hresume
    have hset : (s.calls.set n ⟨id, .ofTrial progress⟩)[n]? = some ⟨id, .ofTrial progress⟩ :=
      List.getElem?_set_self (List.getElem?_eq_some_iff.mp hcall).1
    cases Trial.Step.of_resume hresume with
    | again _ =>
      have hcall₁ := (congrArg (·.calls[n]?) hnext).trans hset
      obtain ⟨x, hstore, hcall₂, hstage⟩ := exists_settling_of_answer engine now hcall₁ rfl
      refine ⟨[_, _], x, ⟨hadmitted _ _, hadmitted _ _, trivial⟩, ?_, hcall₂, hstage⟩
      rw [run_cons, run_cons, run_nil, hstore, hnext]
    | exhaust hresting' _ _ => simp [hresting] at hresting'
    | rest hresting' _ _ => simp [hresting] at hresting'

/-- A call that hands in a result makes one of its moves. -/
theorem exists_moves_settling (engine : EngineConfig) (now : Moment) {x : StageResult}
    (hcall : s.calls[n]? = some ⟨id, .settling x⟩) (hget : s.store.get? id = some r) :
    ∃ r' p', Moves engine id r (.settling x) .proceed r' p' ∧
      (s.next engine ⟨.advance n .proceed, now⟩).store.get? id = some r' := by
  have hadvance : (Point.settling x).advance engine id .proceed now s.store = some _ := rfl
  obtain ⟨r', hmoves, hget'⟩ := Moves.of_advance hget hadvance
  refine ⟨r', _, hmoves, ?_⟩
  rw [next_advance hcall hadvance]
  exact hget'

theorem failed_of_discards {trial : Trial} {wait : Wait}
    (hcall : s.calls[n]? = some ⟨id, .waiting trial wait⟩) (hid : pipeline.id = id)
    (h : Discards engine (s.restored engine pipeline config now) id n trial.attempt.stage) :
    pipeline.status = .failed := by
  by_contra hfailed
  have hget := get?_restored engine s config now hid
  have hstatus : (PipelineRecord.adopt pipeline config now.instant).pipeline.status ≠ .failed := by
    rw [PipelineRecord.status_adopt]
    split
    · nofun
    · exact hfailed
  obtain ⟨es, x, hes, hstore, hsettling, hstage⟩ :=
    exists_settling (s := s.restored engine pipeline config now) engine now hcall
  rw [← hstore] at hget
  obtain ⟨r', p', hmoves, hget'⟩ := exists_moves_settling engine now hsettling hget
  have hsame := h es hes x now hsettling hstage
  simp [results?, hget, hget', hmoves.results_of_settling hstatus] at hsame

theorem frozen_restored (engine : EngineConfig) (s : Fleet) (config : PipelineConfig)
    (now : Moment) (hid : pipeline.id = id) (hfailed : pipeline.status = .failed) :
    ((s.restored engine pipeline config now).view id).Frozen id
      (.adopt pipeline config now.instant) (s.view id).points := by
  have hstatus : (PipelineRecord.adopt pipeline config now.instant).pipeline.status = .failed := by
    rw [PipelineRecord.status_adopt, hfailed, if_neg (by decide)]
  rw [view_restored engine s config now hid]
  refine ⟨⟨.adopt pipeline config now.instant,
    (PipelineRecord.adopt pipeline config now.instant).pipeline.updatedAt, rfl, ?_, rfl⟩, ?_, ?_⟩
  · rw [Pipeline.setStatus, ← hstatus]
  · intro m
    dsimp only
    cases (s.view id).points m with
    | none => exact .none
    | some p => exact .some .same
  · intro r' _ m p₀ p hp₀ hlive hp hended
    obtain rfl := Option.some.inj (hp₀.symm.trans hp)
    simp [hlive] at hended

theorem discards_of_failed (hid : pipeline.id = id) (hfailed : pipeline.status = .failed)
    (stage : Stage) : Discards engine (s.restored engine pipeline config now) id n stage := by
  intro es hes x later hcall _
  have hfrozen := frozen_of_along hes (frozen_restored engine s config now hid hfailed)
  obtain ⟨r, t, hget, -⟩ := hfrozen.record
  obtain ⟨r', p', hmoves, hget'⟩ := exists_moves_settling engine later hcall hget
  simp only [results?]
  rw [hget', show (((s.restored engine pipeline config now).run engine es).store.get? id) = some r
    from hget, Option.map_some, Option.map_some, hmoves.pipeline_eq (hfrozen.status hget)]

/-- What becomes of a pipeline that is restored while a call waits at one of its stages. No further
call comes to drive it exactly if it has come to its end when it is restored, and what the old call
makes of its stage is thrown away exactly if it has failed; a failed one is not completed at all. -/
theorem restore_under_driver (engine : EngineConfig) (config : PipelineConfig) (now : Moment)
    {trial : Trial} {wait : Wait} (hcall : s.calls[n]? = some ⟨id, .waiting trial wait⟩)
    (hid : pipeline.id = id) :
    (KeepsOut engine s (s.restored engine pipeline config now) id n ↔
      pipeline.status.isTerminal = true) ∧
    (Discards engine (s.restored engine pipeline config now) id n trial.attempt.stage ↔
      pipeline.status = .failed) ∧
    (pipeline.status = .failed →
      CompletesWhole engine (s.restored engine pipeline config now) id) := by
  refine ⟨⟨?_, ?_⟩, ⟨?_, ?_⟩, ?_⟩
  · exact isTerminal_of_keepsOut ⟨_, hcall, rfl⟩ hid
  · exact keepsOut_of_isTerminal hid
  · exact failed_of_discards hcall hid
  · exact fun hfailed => discards_of_failed hid hfailed trial.attempt.stage
  · intro hfailed es hes r hget hcompleted
    have hfrozen := frozen_of_along hes (frozen_restored engine s config now hid hfailed)
    rw [hfrozen.status hget] at hcompleted
    contradiction

/-- A failed pipeline is restored safely while a call waits at its first stage. -/
theorem restore_of_startedRun :
    (∃ trial wait, (initial.run .initial (startedRun (.ofNat 1) ⟨.zero, ⟨0, 0⟩⟩)).calls[0]? =
        some ⟨.ofNat 1, .waiting trial wait⟩ ∧ trial.attempt.stage = .requirements) ∧
      ((Pipeline.pending (.ofNat 1) ⟨0, 0⟩).setStatus .failed ⟨0, 0⟩).id = .ofNat 1 ∧
      KeepsOut .initial (initial.run .initial (startedRun (.ofNat 1) ⟨.zero, ⟨0, 0⟩⟩))
        ((initial.run .initial (startedRun (.ofNat 1) ⟨.zero, ⟨0, 0⟩⟩)).restored .initial
          ((Pipeline.pending (.ofNat 1) ⟨0, 0⟩).setStatus .failed ⟨0, 0⟩) singleAttempt
          ⟨.zero, ⟨0, 0⟩⟩) (.ofNat 1) 0 ∧
      Discards .initial
        ((initial.run .initial (startedRun (.ofNat 1) ⟨.zero, ⟨0, 0⟩⟩)).restored .initial
          ((Pipeline.pending (.ofNat 1) ⟨0, 0⟩).setStatus .failed ⟨0, 0⟩) singleAttempt
          ⟨.zero, ⟨0, 0⟩⟩) (.ofNat 1) 0 .requirements ∧
      CompletesWhole .initial
        ((initial.run .initial (startedRun (.ofNat 1) ⟨.zero, ⟨0, 0⟩⟩)).restored .initial
          ((Pipeline.pending (.ofNat 1) ⟨0, 0⟩).setStatus .failed ⟨0, 0⟩) singleAttempt
          ⟨.zero, ⟨0, 0⟩⟩) (.ofNat 1) := by
  obtain ⟨trial, wait, hcall, hstage⟩ : ∃ trial wait,
      (initial.run .initial (startedRun (.ofNat 1) ⟨.zero, ⟨0, 0⟩⟩)).calls[0]? =
        some ⟨.ofNat 1, .waiting trial wait⟩ ∧ trial.attempt.stage = .requirements :=
    ⟨_, _, rfl, rfl⟩
  have hid : ((Pipeline.pending (.ofNat 1) ⟨0, 0⟩).setStatus .failed ⟨0, 0⟩).id = .ofNat 1 := rfl
  obtain ⟨hkeeps, hdiscards, hwhole⟩ :=
    restore_under_driver .initial singleAttempt ⟨.zero, ⟨0, 0⟩⟩ hcall hid
  exact ⟨⟨trial, wait, hcall, hstage⟩, hid, hkeeps.mpr rfl, hstage ▸ hdiscards.mpr rfl, hwhole rfl⟩

/-- A call passes a stage. -/
def passing : List Act :=
  [.advance 0 .proceed, .advance 0 (.hear (.answered (.ok ""))), .advance 0 .proceed]

/-- A pipeline comes to its last stage. -/
def lastStageRun (id : PipelineId) (now : Moment) : List Event :=
  ([Act.create id singleAttempt, .drive .execute id] ++ passing ++ passing ++ passing ++ passing ++
    [Act.advance 0 .proceed]).map (⟨·, now⟩)

/-- A further call comes to drive the pipeline, and the call that waits at its last stage completes
it. -/
def takenOverRun (id : PipelineId) (now : Moment) : List Event :=
  [.drive .execute id, .advance 0 (.hear (.answered (.ok ""))), .advance 0 .proceed,
    .advance 0 .proceed].map (⟨·, now⟩)

/-- The pipeline at its last stage is replaced by a new one with its identifier. Two calls drive the
new pipeline, it takes the result of the last stage of the old one, and with that it is
completed. -/
theorem completed_of_takenOverRun :
    (initial.run .initial (lastStageRun (.ofNat 1) ⟨.zero, ⟨0, 0⟩⟩)).Reached .initial
        (fun s e => e.Fresh s) ∧
      (∃ trial wait, (initial.run .initial (lastStageRun (.ofNat 1) ⟨.zero, ⟨0, 0⟩⟩)).calls[0]? =
        some ⟨.ofNat 1, .waiting trial wait⟩ ∧ trial.attempt.stage = .deployment) ∧
      ¬ KeepsOut .initial (initial.run .initial (lastStageRun (.ofNat 1) ⟨.zero, ⟨0, 0⟩⟩))
        ((initial.run .initial (lastStageRun (.ofNat 1) ⟨.zero, ⟨0, 0⟩⟩)).restored .initial
          (.pending (.ofNat 1) ⟨0, 0⟩) singleAttempt ⟨.zero, ⟨0, 0⟩⟩) (.ofNat 1) 0 ∧
      ¬ Discards .initial
        ((initial.run .initial (lastStageRun (.ofNat 1) ⟨.zero, ⟨0, 0⟩⟩)).restored .initial
          (.pending (.ofNat 1) ⟨0, 0⟩) singleAttempt ⟨.zero, ⟨0, 0⟩⟩) (.ofNat 1) 0 .deployment ∧
      ¬ CompletesWhole .initial
        ((initial.run .initial (lastStageRun (.ofNat 1) ⟨.zero, ⟨0, 0⟩⟩)).restored .initial
          (.pending (.ofNat 1) ⟨0, 0⟩) singleAttempt ⟨.zero, ⟨0, 0⟩⟩) (.ofNat 1) := by
  have hadmitted : ∀ e ∈ takenOverRun (.ofNat 1) ⟨.zero, ⟨0, 0⟩⟩, ∀ s,
      Created (.ofNat 1) s e := by
    simp [takenOverRun, Created, Event.Fresh, Event.Restores]
  have halong : ∀ k, ((initial.run .initial (lastStageRun (.ofNat 1) ⟨.zero, ⟨0, 0⟩⟩)).restored
      .initial (.pending (.ofNat 1) ⟨0, 0⟩) singleAttempt ⟨.zero, ⟨0, 0⟩⟩).Along .initial
        (Created (.ofNat 1)) ((takenOverRun (.ofNat 1) ⟨.zero, ⟨0, 0⟩⟩).take k) :=
    fun k => along_of_forall (fun e he => hadmitted e (List.mem_of_mem_take he)) _
  refine ⟨⟨_, ?_, rfl⟩, ⟨_, _, rfl, rfl⟩, ?_, ?_, ?_⟩
  · simp [lastStageRun, passing, Event.Fresh, initial]
  · intro h
    obtain ⟨p, hp, -⟩ := h _ (halong 1) ⟨_, rfl, rfl⟩ 1 ⟨_, rfl, rfl⟩
    cases hp
  · intro h
    have hsame := h _ (halong 2) _ ⟨.zero, ⟨0, 0⟩⟩ rfl rfl
    cases hsame
  · intro h
    have hmem := h _ (halong 4) _ rfl rfl .coding
    cases hmem with
    | tail _ h => cases h

end Fleet

end StagedPipeline
