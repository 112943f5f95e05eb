import StagedPipeline.Proofs.Driving.Continuation
import StagedPipeline.Proofs.Driving.Undisturbed

/-!
# A pipeline that is run and left alone

In a run that is an `Fleet.execution` a pipeline is run, and nothing happens but the moves of its
driver. What comes of it depends on the record that it is run from, whatever that holds, and on the
executor (`Fleet.exists_end_of_execution`): the stages that are missing are worked on, one after the
other and up to the first one that fails, and requests are sent for these stages only.
-/

namespace StagedPipeline

namespace PipelineRecord

/-- How a driving call ends that is left alone: no stage is missing any more, or the last result is
a failure. -/
inductive Ends (r : PipelineRecord) : Option StageResult → DriveResult → Prop
  | completed (hstatus : r.pipeline.status = .completed) (hmissing : r.pipeline.missing = []) :
      Ends r none (.ok r.pipeline)
  | failed (x : StageResult) :
      Ends r (some x) (.error (.stageFailed x.stage x.retryCount (x.error.getD "")))

/-- How far a driving call has come that is left alone: what it has added to the record it was given
is what the executor makes of the stages, and it has sent what stands behind that. -/
structure Worked (engine : EngineConfig) (b : Behaviour) (r₀ r : PipelineRecord) (p : Point)
    (done : List StageResult) (last : Option StageResult)
    (log : List (Stage × CompletionRequest)) : Prop where
  continues : r₀.Continues r done last
  results : ∀ x ∈ done ++ last.toList, x.timeless = b.result r₀.config x.stage
  sent : log = sentFor engine r₀.config r₀.pipeline.artifacts (done ++ last.toList) ++
    p.sent engine r
  placed : p.Placed r
  faithful : p.Faithful b r₀.config
  running : p.isLive = true → r.pipeline.status = .running ∧ r.driven = true
  returned : ∀ result, p = .returned result → r.Ends last result

variable {engine : EngineConfig} {b : Behaviour} {r₀ r r' : PipelineRecord} {p p' : Point}
  {done : List StageResult} {last : Option StageResult} {x : StageResult}
  {log : List (Stage × CompletionRequest)}

/-- A pipeline has just been set running. -/
theorem Worked.start (engine : EngineConfig) (b : Behaviour) (now : Instant)
    (hfailed : r.pipeline.status ≠ .failed) :
    r.Worked engine b { r with pipeline := r.pipeline.setStatus .running now, driven := true }
      (.walking Stage.all) [] none [] where
  continues := (Continues.refl r).congr rfl rfl rfl rfl fun hstatus => absurd hstatus hfailed
  results := by simp
  sent := rfl
  placed := Point.placed_walking_all _
  faithful := trivial
  running _ := ⟨rfl, rfl⟩
  returned := by simp

/-- The requests behind a result are those that were sent until it was there. -/
theorem Continues.sentFor_append (h : r₀.Continues r done none) (engine : EngineConfig)
    (x : StageResult) :
    sentFor engine r₀.config r₀.pipeline.artifacts (done ++ [x]) =
      sentFor engine r₀.config r₀.pipeline.artifacts done ++ (Point.settling x).sent engine r := by
  rw [StagedPipeline.sentFor_append, ← h.artifacts, ← h.config, sentFor, sentFor, List.append_nil]
  rfl

/-- What the executor makes of a stage is added to what it has made of others. -/
theorem results_concat {xs : List StageResult} {config : PipelineConfig}
    (h : ∀ y ∈ xs, y.timeless = b.result config y.stage)
    (hx : x.timeless = b.result config x.stage) :
    ∀ y ∈ xs ++ [x], y.timeless = b.result config y.stage := by
  intro y hy
  rcases List.mem_append.mp hy with hy | hy
  · exact h y hy
  · exact List.mem_singleton.mp hy ▸ hx

end PipelineRecord

section Moves

variable {engine : EngineConfig} {b : Behaviour} {id : PipelineId} {r₀ r r' : PipelineRecord}
  {p p' : Point} {move : Move} {done : List StageResult} {last : Option StageResult}
  {log : List (Stage × CompletionRequest)}

/-- Each move that a call has to make brings it on. -/
theorem Moves.worked (hmoves : Moves engine id r p move r' p') (hdue : p.due b = some move)
    (h : r₀.Worked engine b r p done last log) (n : Nat) :
    ∃ done' last', r₀.Worked engine b r' p' done' last'
      (log ++ requestsFor id (p'.outputs n id)) := by
  obtain ⟨hrunning, hdriven⟩ := h.running hmoves.isLive
  obtain rfl : last = none := h.continues.last_eq_none hdriven
  obtain ⟨hcontinues, hresults, hsent, hplaced, hfaithful, -, -⟩ := h
  rw [Option.toList_none, List.append_nil] at hresults hsent
  cases hmoves with
  -- nobody pauses or cancels a pipeline that is left alone
  | halt hpaused => simp [hrunning] at hpaused
  | stop hfailed => simp [hrunning] at hfailed
  | discard hfailed => simp [hrunning] at hfailed
  | drop now => exact absurd rfl (Point.ne_drop_of_due hdue)
  | skip hpaused hfailed hdone =>
    refine ⟨done, none, hcontinues, ?_, ?_, hplaced.skip hdone, trivial,
      fun _ => ⟨hrunning, hdriven⟩, by simp⟩
    · simpa using hresults
    · rw [hsent, Option.toList_none, List.append_nil]
      exact List.append_nil _
  | begin now hpaused hfailed hopen =>
    refine ⟨done, none, ?_, ?_, ?_, ?_, ⟨hcontinues.config, ?_⟩, fun _ => ⟨hrunning, hdriven⟩,
      by simp⟩
    · exact hcontinues.congr rfl rfl rfl rfl fun hstatus => absurd hstatus hfailed
    · simpa using hresults
    · rw [hsent, Option.toList_none, List.append_nil, List.append_assoc]
      simp only [Point.outputs, requestsFor, Output.requestFor?, List.filterMap_cons,
        List.filterMap_nil, if_true]
      rfl
    · exact ⟨hplaced.nextPending hopen, rfl, rfl, by simp, by simp⟩
    · rw [← hcontinues.config]
      rfl
  | complete now hfailed =>
    refine ⟨done, none, ?_, ?_, ?_, trivial, trivial, by simp [Point.isLive], ?_⟩
    · exact hcontinues.congr rfl rfl rfl rfl fun hstatus => absurd hstatus hfailed
    · simpa using hresults
    · rw [hsent, Option.toList_none, List.append_nil]
      exact List.append_nil _
    · intro result hreturned
      obtain rfl := Point.returned.inj hreturned
      exact .completed rfl hplaced.missing_eq_nil
  | hear hresume =>
    rename_i trial wait signal now progress notices
    have hstep := Trial.Step.of_resume hresume
    obtain rfl : trial.due b = signal := Move.hear.inj (Option.some.inj hdue)
    have hbudget : trial.WithinBudget := Trial.Placed.budget hplaced
    have hrequest : trial.attempt.request engine.completion =
        r.request engine trial.attempt.stage :=
      Attempt.request_eq (Trial.Placed.config hplaced) (Trial.Placed.artifacts hplaced)
    refine ⟨done, none, hcontinues, ?_, ?_, Trial.Placed.of_step hplaced hstep,
      hstep.faithful hbudget hfaithful, fun _ => ⟨hrunning, hdriven⟩, ?_⟩
    · simpa using hresults
    · rw [hsent, List.append_assoc, hstep.sent_eq hbudget hrequest, Option.toList_none,
        List.append_nil]
    · exact fun result hreturned => absurd hreturned (Point.ofTrial_ne rfl _)
  | record now hfailed hsuccess =>
    rename_i x
    have hx := StageResult.Placed.succeeded hplaced hsuccess
    refine ⟨done ++ [x], none, ?_, ?_, ?_, hplaced.after hsuccess, trivial, fun _ => ?_, by simp⟩
    · exact hcontinues.addResult_of_success (StageResult.Placed.next hplaced)
        (hcontinues.config ▸ hx)
    · simpa using PipelineRecord.results_concat hresults hfaithful
    · rw [hsent, ← hcontinues.sentFor_append, Option.toList_none, List.append_nil]
      rfl
    · exact ⟨(r.pipeline.status_addResult x now.instant).trans hrunning, hdriven⟩
  | fail now hfailed hsuccess =>
    rename_i x
    have hx := StageResult.Placed.exhausted hplaced hsuccess
    refine ⟨done, some x, ?_, ?_, ?_, trivial, trivial, by simp [Point.isLive], ?_⟩
    · exact hcontinues.addResult_of_failure (StageResult.Placed.next hplaced)
        (hcontinues.config ▸ hx)
    · exact PipelineRecord.results_concat hresults hfaithful
    · rw [hsent, ← hcontinues.sentFor_append]
      rfl
    · intro result hreturned
      obtain rfl := Point.returned.inj hreturned
      exact .failed x

end Moves

/-! ### What it has come to -/

namespace PipelineRecord

variable {engine : EngineConfig} {b : Behaviour} {r₀ r : PipelineRecord} {result : DriveResult}
  {done : List StageResult} {last : Option StageResult} {log : List (Stage × CompletionRequest)}

/-- The results that have come are those of the first stages that were missing, one each. -/
theorem Continues.stages_prefix (h : r₀.Continues r done last) :
    (done ++ last.toList).map (·.stage) <+: r₀.pipeline.missing := by
  rw [← h.missing, List.map_append, List.prefix_append_right_inj]
  cases last with
  | none => exact List.nil_prefix
  | some x =>
    obtain ⟨-, hnext, -, -⟩ := h.exhausted x rfl
    obtain ⟨rest, hrest⟩ := List.head?_eq_some_iff.mp (Pipeline.nextPending_eq_head? _ ▸ hnext)
    rw [hrest]
    exact ⟨rest, rfl⟩

namespace Worked

/-- They are what the executor makes of the stages that were missing. -/
theorem map_timeless (h : r₀.Worked engine b r (.returned result) done last log) :
    (done ++ last.toList).map (·.timeless) = b.results r₀.config r₀.pipeline.missing := by
  have hdone : ∀ x ∈ done, x.timeless = b.result r₀.config x.stage :=
    fun x hx => h.results x (List.mem_append_left _ hx)
  have hsuccess : ∀ stage ∈ done.map (·.stage), (b.result r₀.config stage).success = true := by
    intro stage hstage
    obtain ⟨x, hx, rfl⟩ := List.mem_map.mp hstage
    rw [← hdone x hx]
    exact (h.continues.succeeded x hx).success
  have hmap : (done.map (·.stage)).map (b.result r₀.config) = done.map (·.timeless) := by
    rw [List.map_map]
    exact List.map_congr_left fun x hx => (hdone x hx).symm
  rw [← h.continues.missing, b.results_append _ hsuccess, hmap, List.map_append]
  congr 1
  -- behind the successes the executor is at the first stage that is still missing, if there is one
  cases h.returned result rfl with
  | completed hstatus hmissing => rw [hmissing]; rfl
  | failed x =>
    obtain ⟨hexhausted, hnext, -, -⟩ := h.continues.exhausted x rfl
    have hx : x.timeless = b.result r₀.config x.stage := h.results x (by simp)
    obtain ⟨rest, hrest⟩ := List.head?_eq_some_iff.mp (Pipeline.nextPending_eq_head? _ ▸ hnext)
    have hfailure : (b.result r₀.config x.stage).success = false := hx ▸ hexhausted.success
    rw [hrest, b.results_cons_of_failure _ hfailure, ← hx]
    rfl

/-- Requests are sent for these stages only: as many for each of them as it took attempts. -/
theorem map_fst_log (h : r₀.Worked engine b r (.returned result) done last log) :
    log.map Prod.fst = (done ++ last.toList).flatMap fun x =>
      List.replicate (x.retryCount.toNat + 1) x.stage := by
  rw [h.sent, ← map_fst_sentFor engine r₀.config r₀.pipeline.artifacts]
  exact congrArg _ (List.append_nil _)

/-- If none of them is a failure, the pipeline is completed. -/
theorem of_success (h : r₀.Worked engine b r (.returned result) done last log)
    (hsuccess : ∀ x ∈ done ++ last.toList, x.success = true) :
    last = none ∧ result = .ok r.pipeline ∧ r.pipeline.status = .completed ∧
      r.pipeline.missing = [] := by
  cases h.returned result rfl with
  | completed hstatus hmissing => exact ⟨rfl, rfl, hstatus, hmissing⟩
  | failed x =>
    have hfailure := (h.continues.exhausted x rfl).1.success
    rw [hsuccess x (by simp)] at hfailure
    contradiction

end Worked

end PipelineRecord

/-! ### Runs -/

namespace Fleet

variable {engine : EngineConfig} {b : Behaviour} {id : PipelineId} {s : Fleet} {e : Event}
  {n : Nat} {r₀ : PipelineRecord} {log : List (Stage × CompletionRequest)}

/-- A pipeline is run, and its driver is left to itself. -/
def execution (engine : EngineConfig) (b : Behaviour) (s : Fleet) (id : PipelineId) (now : Moment)
    (nows : List Moment) : List Event :=
  ⟨.drive .execute id, now⟩ ::
    (s.next engine ⟨.drive .execute id, now⟩).pursuit engine b s.calls.length nows

/-- A driving call is at work on the record that it was given, and that has come out since then. -/
def Works (engine : EngineConfig) (b : Behaviour) (r₀ : PipelineRecord) (id : PipelineId) (n : Nat)
    (s : Fleet) (outs : List Output) : Prop :=
  ∃ r p done last, s.store.get? id = some r ∧ s.calls[n]? = some ⟨id, p⟩ ∧
    r₀.Worked engine b r p done last (requestsFor id outs)

/-- The next move of a call. -/
def Due (b : Behaviour) (n : Nat) (s : Fleet) (e : Event) : Prop :=
  ∃ call move, e.act = .advance n move ∧ s.calls[n]? = some call ∧ call.point.due b = some move

theorem works_next (hdue : Due b n s e) {outs : List Output}
    (h : s.Works engine b r₀ id n outs) :
    (s.next engine e).Works engine b r₀ id n (outs ++ (s.react engine e).2) := by
  obtain ⟨r, p, done, last, hget, hcall, hworked⟩ := h
  obtain ⟨call, move, hact, hcall', hmove⟩ := hdue
  obtain rfl : call = ⟨id, p⟩ := Option.some.inj (hcall'.symm.trans hcall)
  obtain ⟨act, now⟩ := e
  obtain rfl : act = .advance n move := hact
  have hlive : p.isLive = true := by
    by_contra hended
    simp [Point.due_of_not_live (Bool.eq_false_iff.mpr hended)] at hmove
  obtain ⟨move', store, p', hmove', hadvance⟩ :=
    Point.exists_advance_due engine b id now s.store hlive
  obtain rfl : move' = move := Option.some.inj (hmove'.symm.trans hmove)
  obtain ⟨r', hmoves, hget'⟩ := Moves.of_advance hget hadvance
  obtain ⟨done', last', hworked'⟩ := hmoves.worked hmove hworked n
  rw [react_advance hcall hadvance, next_advance hcall hadvance, Works, requestsFor_append]
  refine ⟨r', p', done', last', hget', ?_, hworked'⟩
  exact List.getElem?_set_self (List.getElem?_eq_some_iff.mp hcall).1

theorem works_pursuit (nows : List Moment) (h : s.Works engine b r₀ id n []) :
    (s.run engine (s.pursuit engine b n nows)).Works engine b r₀ id n
      (s.emitted engine (s.pursuit engine b n nows)) := by
  have hdue : s.Along engine (Due b n) (s.pursuit engine b n nows) :=
    along_pursuit nows fun _ call move _ hcall hmove => ⟨call, move, rfl, hcall, hmove⟩
  exact hdue.preserves_emitted (fun _ _ _ he hs => works_next he hs) h

/-- A pipeline without a driver that can be run, is run and left alone for long enough: the call
returns, and what it has made of the record is what the executor makes of the missing stages. -/
theorem exists_end_of_execution (engine : EngineConfig) (b : Behaviour) (now : Moment)
    {nows : List Moment} (hget : s.store.get? id = some r₀)
    (hentry : PipelineRecord.entryError? .execute id r₀.pipeline.status = none)
    (hdriven : r₀.driven = false) (hlong : (Point.walking Stage.all).rank ≤ nows.length) :
    ∃ r result done last,
      (s.run engine (s.execution engine b id now nows)).store.get? id = some r ∧
      (s.run engine (s.execution engine b id now nows)).calls[s.calls.length]? =
        some ⟨id, .returned result⟩ ∧
      r₀.Worked engine b r (.returned result) done last
        (requestsFor id (s.emitted engine (s.execution engine b id now nows))) := by
  have hreact := react_drive_of_undriven engine now hget hentry hdriven
  have hfailed := View.ne_failed_of_entry hentry
  have hstarted := PipelineRecord.Worked.start engine b now.instant hfailed
  have hset : (s.store.set id { r₀ with
      pipeline := r₀.pipeline.setStatus .running now.instant, driven := true }).get? id = some _ :=
    Store.get?_set_self (by simp [hget])
  have hcall : (s.calls ++ [(⟨id, .walking Stage.all⟩ : Call)])[s.calls.length]? = some _ :=
    List.getElem?_concat_length
  rw [execution, run_cons, emitted_cons, next, hreact, List.nil_append]
  generalize s.store.set id _ = store at hset
  generalize s.calls ++ [_] = calls at hcall
  obtain ⟨result, hreturned⟩ :=
    returned_of_pursuit (s := ⟨store, calls⟩) engine b hcall hset rfl ⟨0, rfl⟩ hlong
  obtain ⟨r, p, done, last, hget', hcall', hworked⟩ :=
    works_pursuit (s := ⟨store, calls⟩) nows ⟨_, _, [], none, hset, hcall, hstarted⟩
  obtain rfl : p = .returned result :=
    congrArg Call.point (Option.some.inj (hcall'.symm.trans hreturned))
  exact ⟨r, result, done, last, hget', hcall', hworked⟩

end Fleet

end StagedPipeline
