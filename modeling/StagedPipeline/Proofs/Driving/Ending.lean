import StagedPipeline.Proofs.Driving.Regularity

/-!
# How a driving call ends

A driving call that is not given up ends in one of four ways. `Ending.Fits` says of each of them
what the call returns and what it leaves in the record, and `Moves.exists_fits` that the move with
which a call returns is one of the four. Only one of them ever fits (`Ending.Fits.unique`).

A call that observes a pause has a stage ahead of it that is not completed. This needs an invariant:
once all stages are completed, the call that drives the pipeline stands behind the last one, and no
boundary is left at which it could halt (`View.Closing`).
-/

namespace StagedPipeline

/-- How a driving call ends. -/
inductive Ending where
  | completed
  /-- It has observed a pause, in front of the next stage or of one that is passed over. -/
  | paused (next : Stage)
  /-- It has handed in the result of a stage whose attempts have all failed. -/
  | failed (result : StageResult)
  | cancelled

namespace Ending

/-- What a call finds, what it leaves behind, and what it returns, by the way it ends. -/
def Fits (id : PipelineId) (r r' : PipelineRecord) (returned : DriveResult) : Ending → Prop
  | completed => returned = .ok r'.pipeline ∧ r'.pipeline.status = .completed ∧
      r'.pipeline.completed = Stage.all
  | paused next => returned = .ok r'.pipeline ∧ r'.pipeline.status = .paused ∧
      r'.pipeline.nextPending = some next
  | failed result => r'.pipeline.status = .failed ∧
      r'.pipeline.results = r.pipeline.results ++ [result] ∧ result.success = false ∧
      ∃ message, result.error = some message ∧
        returned = .error (.stageFailed result.stage result.retryCount message)
  | cancelled => returned = .error (.cancelled id) ∧ r'.pipeline.status = .failed ∧
      r'.pipeline.results = r.pipeline.results ∧ ∀ x ∈ r'.pipeline.results, x.success = true

/-- A call ends in one way only. -/
theorem Fits.unique {id : PipelineId} {r r' : PipelineRecord} {returned : DriveResult}
    {ending ending' : Ending} (h : ending.Fits id r r' returned)
    (h' : ending'.Fits id r r' returned) : ending' = ending := by
  cases ending <;> cases ending' <;> simp_all [Fits]

namespace Fits

variable {id : PipelineId} {r r' : PipelineRecord} {returned : DriveResult} {ending : Ending}

/-- The status that a call leaves behind tells how it ends. -/
theorem of_completed (h : ending.Fits id r r' returned)
    (hstatus : r'.pipeline.status = .completed) :
    completed.Fits id r r' returned := by
  cases ending <;> simp_all [Fits]

theorem of_paused (h : ending.Fits id r r' returned) (hstatus : r'.pipeline.status = .paused) :
    ∃ next, (paused next).Fits id r r' returned := by
  cases ending <;> simp_all [Fits]

/-- A pipeline that has failed tells it by the result that was handed in. -/
theorem of_failed {x : StageResult} (h : ending.Fits id r r' returned)
    (hstatus : r'.pipeline.status = .failed)
    (hresults : r'.pipeline.results = r.pipeline.results ++ [x]) :
    (failed x).Fits id r r' returned := by
  cases ending <;> simp_all [Fits]

end Fits

end Ending

/-! ### What is left to do -/

/-- Some stage is the next one, unless all are completed. -/
theorem PipelineRecord.Regular.exists_nextPending {r : PipelineRecord} (h : r.Regular)
    (hopen : r.pipeline.completed ≠ Stage.all) :
    ∃ stage, r.pipeline.nextPending = some stage := by
  rw [← Option.isSome_iff_exists, Pipeline.nextPending, List.find?_isSome]
  have hdeployment : r.pipeline.hasCompleted .deployment = false := by
    rw [Bool.eq_false_iff, ne_eq, h.hasCompleted_iff]
    exact fun hlt => hopen (h.completed_eq_all hlt)
  exact ⟨.deployment, Stage.mem_all _, by rw [hdeployment]; rfl⟩

/-- As long as a driver is at work every result is that of a success. -/
theorem PipelineRecord.Regular.success_of_driven {r : PipelineRecord} (h : r.Regular)
    (hdriven : r.driven = true) : ∀ x ∈ r.pipeline.results, x.success = true := by
  obtain ⟨done, last, hresults, -, hsucceeded, hlast⟩ := h.results
  cases last with
  | some x => simp [(hlast x rfl).2.2.2.2] at hdriven
  | none =>
    rw [hresults, Option.toList_none, List.append_nil]
    exact fun x hx => (hsucceeded x hx).success

namespace View

variable {engine : EngineConfig} {id : PipelineId} {v v' : View} {act : Act} {outs : List Output}

/-- A pipeline all of whose stages are completed has come to its end, or is driven by a call behind
the last stage. -/
def Closing (v : View) : Prop :=
  ∀ r, v.record = some r → r.pipeline.completed = Stage.all →
    r.pipeline.status.isTerminal = true ∨ ∃ n, v.points n = some (.walking [])

/-- A call that drives the pipeline elsewhere has a stage to complete. -/
theorem Closing.isTerminal {r : PipelineRecord} {points : Nat → Option Point} {n : Nat} {p : Point}
    (h : Closing ⟨some r, points⟩) (hsole : Sole ⟨some r, points⟩) (hpoint : points n = some p)
    (hlive : p.isLive = true) (helsewhere : p ≠ .walking [])
    (hdone : r.pipeline.completed = Stage.all) : r.pipeline.status.isTerminal = true := by
  refine (h r rfl hdone).resolve_right ?_
  rintro ⟨m, hm⟩
  obtain rfl := hsole.unique m n ⟨_, hm, rfl⟩ ⟨p, hpoint, hlive⟩
  exact helsewhere (Option.some.inj (hpoint.symm.trans hm))

/-- A change of a record that keeps the completed stages and does not reopen the pipeline. -/
theorem Closing.of_record {r r' : PipelineRecord} {points : Nat → Option Point}
    (h : Closing ⟨some r, points⟩) (hcompleted : r'.pipeline.completed = r.pipeline.completed)
    (hterminal : r.pipeline.status.isTerminal = true → r'.pipeline.status.isTerminal = true) :
    Closing ⟨some r', points⟩ := by
  intro r'' heq hdone
  obtain rfl := Option.some.inj heq
  exact (h r rfl (hcompleted.symm.trans hdone)).imp_left hterminal

theorem Step.closing (hstep : Step engine id v act outs v') (hregular : v.Regular)
    (h : v.Closing) (hrestore : ∀ p config, act = .restore p config → p.id ≠ id) :
    v'.Closing := by
  cases hstep with
  | create now haccepted =>
    intro r heq hdone
    obtain rfl := Option.some.inj heq
    contradiction
  | restore now hid => exact absurd hid (hrestore _ _ rfl)
  | claim now hentry hdriven hnew =>
    intro r' heq hdone
    obtain rfl := Option.some.inj heq
    rcases h _ rfl hdone with hterminal | ⟨m, hm⟩
    · exact absurd hterminal (by simp [not_isTerminal_of_entry hentry])
    · exact absurd ⟨_, hm, rfl⟩ (hregular.sole.not_live rfl hdriven m)
  | rejoin now hentry hdriven =>
    exact h.of_record rfl fun hterminal => by simp [not_isTerminal_of_entry hentry] at hterminal
  | pause now hrunning =>
    exact h.of_record rfl fun hterminal => by simp [hrunning, Status.isTerminal] at hterminal
  | cancel now => exact h.of_record rfl fun _ => rfl
  | move hpoint hmoves =>
    intro r' heq hdone
    obtain rfl := Option.some.inj heq
    have hbefore := fun helsewhere hdone => hmoves.isTerminal
      (h.isTerminal hregular.sole hpoint hmoves.isLive helsewhere hdone)
    cases hmoves with
    | stop hfailed => exact .inl (by simp [hfailed, Status.isTerminal])
    | complete now hfailed => exact .inl rfl
    | discard hfailed => exact .inl (by simp [hfailed, Status.isTerminal])
    | record now hfailed hsuccess =>
      have hresult : StageResult.Regular _ _ := hregular.points _ rfl hfailed _ _ hpoint
      rw [Pipeline.completed_addResult_of_success _ _ _ hsuccess
        ((hregular.record _ rfl).hasCompleted_eq_false hresult.stage)] at hdone
      have hlast := congrArg List.length hdone
      rw [List.length_append, List.length_singleton, ← hresult.stage] at hlast
      refine .inr ⟨_, (Function.update_self ..).trans ?_⟩
      rw [Stage.after, hlast]
      rfl
    | fail now hfailed hsuccess => exact .inl rfl
    | drop now =>
      rw [PipelineRecord.completed_release] at hdone
      exact .inl (hbefore (by simp) hdone)
    | _ => exact .inl (hbefore (by simp) hdone)

end View

/-! ### The move with which a call returns -/

/-- A call that returns ends in one of the four ways. -/
theorem Moves.exists_fits {engine : EngineConfig} {id : PipelineId} {r r' : PipelineRecord}
    {p : Point} {move : Move} {returned : DriveResult}
    (hmoves : Moves engine id r p move r' (.returned returned)) (h : r.Driven p)
    (hdriven : r.driven = true)
    (hopen : p ≠ .walking [] → r.pipeline.status = .paused → r.pipeline.completed ≠ Stage.all) :
    ∃ ending : Ending, ending.Fits id r r' returned := by
  have hregular := (hmoves.regular h).1
  generalize hp : Point.returned returned = p' at hmoves
  cases hmoves with
  | halt hpaused =>
    obtain rfl := Point.returned.inj hp
    obtain ⟨next, hnext⟩ := h.record.exists_nextPending (hopen nofun hpaused)
    exact ⟨.paused next, rfl, hpaused, hnext⟩
  | stop hfailed =>
    obtain rfl := Point.returned.inj hp
    exact ⟨.cancelled, rfl, hfailed, rfl, h.record.success_of_driven hdriven⟩
  | complete now hfailed =>
    obtain rfl := Point.returned.inj hp
    exact ⟨.completed, rfl, rfl, (hregular.finished rfl).1⟩
  | discard hfailed =>
    obtain rfl := Point.returned.inj hp
    exact ⟨.cancelled, rfl, hfailed, rfl, h.record.success_of_driven hdriven⟩
  | fail now hfailed hsuccess =>
    obtain rfl := Point.returned.inj hp
    have hresult : StageResult.Regular _ _ := h.point hfailed
    obtain ⟨message, hmessage⟩ :=
      Option.isSome_iff_exists.mp (hresult.exhausted hsuccess).error
    exact ⟨.failed _, rfl, rfl, hsuccess, message, hmessage, by rw [hmessage]; rfl⟩
  | hear hresume => exact absurd hp.symm (Point.ofTrial_ne rfl _)
  | _ => contradiction

end StagedPipeline
