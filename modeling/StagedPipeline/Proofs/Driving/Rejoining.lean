import StagedPipeline.Proofs.Driving.Returning
import StagedPipeline.Proofs.Driving.SingleDriver

/-!
# Executing a pipeline that is driven

Whether a caller may execute a pipeline is decided by its status, and only then it is asked whether
a driver is at work. While a pipeline runs, a caller is refused. A pause that was asked for, and
that the driver has not come to observe, lets the caller in: the pause is taken back, the driver
goes on, and the caller is told at once about a pipeline that runs. What a driving call returns is
never such a pipeline, but one that is completed or paused (`Fleet.execute_under_driver`).
-/

namespace StagedPipeline

/-- A move leaves no pipeline that waits for its start but where there was one. -/
theorem Moves.pending_of_pending {engine : EngineConfig} {id : PipelineId} {r r' : PipelineRecord}
    {p p' : Point} {move : Move} (hmoves : Moves engine id r p move r' p')
    (h : r'.pipeline.status = .pending) : r.pipeline.status = .pending := by
  cases hmoves with
  | complete now hfailed => contradiction
  | fail now hfailed hsuccess => contradiction
  | record now hfailed hsuccess =>
    rw [Pipeline.status_addResult] at h
    exact h
  | drop now =>
    unfold PipelineRecord.release at h
    dsimp only at h
    split at h
    · contradiction
    · exact h
  | _ => exact h

/-- A call that returns a pipeline has completed it, or has observed a pause. -/
theorem Moves.status_of_ok {engine : EngineConfig} {id : PipelineId} {r r' : PipelineRecord}
    {p : Point} {move : Move} {q : Pipeline}
    (hmoves : Moves engine id r p move r' (.returned (.ok q))) :
    q.status = .completed ∨ q.status = .paused := by
  generalize hp : Point.returned (.ok q) = p' at hmoves
  cases hmoves with
  | halt hpaused =>
    obtain rfl := Except.ok.inj (Point.returned.inj hp)
    exact .inr hpaused
  | complete now hfailed =>
    obtain rfl := Except.ok.inj (Point.returned.inj hp)
    exact .inl rfl
  | hear hresume => exact absurd hp.symm (Point.ofTrial_ne rfl _)
  | _ => cases hp

theorem PipelineRecord.entryError?_execute_eq_alreadyRunning_iff (id : PipelineId)
    {status : Status} :
    entryError? .execute id status = some (.alreadyRunning id) ↔ status = .running := by
  cases status <;> simp [entryError?]

theorem PipelineRecord.entryError?_execute_eq_none_iff (id : PipelineId) {status : Status} :
    entryError? .execute id status = none ↔ status = .pending ∨ status = .paused := by
  cases status <;> simp [entryError?]

namespace View

variable {engine : EngineConfig} {id : PipelineId} {v v' : View} {act : Act} {outs : List Output}

/-- A pipeline that waits for its start has no driver. -/
structure Unstarted (v : View) : Prop where
  known : v.Known
  driven : ∀ r, v.record = some r → r.pipeline.status = .pending → r.driven = false

theorem Unstarted.of_record {r : PipelineRecord} {points : Nat → Option Point}
    (h : r.pipeline.status = .pending → r.driven = false) : Unstarted ⟨some r, points⟩ where
  known := .of_record rfl
  driven := by
    intro r' heq
    obtain rfl := Option.some.inj heq
    exact h

theorem Unstarted.step (hstep : Step engine id v act outs v') (h : v.Unstarted) :
    v'.Unstarted := by
  cases hstep with
  | create now haccepted => exact .of_record fun _ => rfl
  | restore now hid => exact .of_record fun _ => rfl
  | move hpoint hmoves =>
    refine .of_record fun hpending => ?_
    rw [hmoves.driven_eq, h.driven _ rfl (hmoves.pending_of_pending hpending), Bool.false_and]
  | _ => exact .of_record nofun

end View

namespace Fleet

variable {engine : EngineConfig} {s : Fleet} {e : Event} {id : PipelineId} {r : PipelineRecord}
  {now : Moment} {p : Pipeline}

theorem unstarted_initial (id : PipelineId) : (initial.view id).Unstarted where
  known := (sound_initial id).known
  driven := by simp [view, initial]

theorem unstarted_next (hfresh : e.Fresh s) (h : (s.view id).Unstarted) :
    ((s.next engine e).view id).Unstarted :=
  holds_next hfresh h.known h fun _ hstep => h.step hstep

/-- A caller is refused because the pipeline runs exactly if it does. -/
theorem react_execute_eq_alreadyRunning_iff (hget : s.store.get? id = some r) :
    (s.react engine ⟨.drive .execute id, now⟩).2 =
        [.answered id (.error (.alreadyRunning id))] ↔ r.pipeline.status = .running := by
  rw [← PipelineRecord.entryError?_execute_eq_alreadyRunning_iff id]
  cases hentry : PipelineRecord.entryError? .execute id r.pipeline.status with
  | some err =>
    rw [react_drive_of_error _ _ hget hentry]
    simp
  | none =>
    cases hdriven : r.driven with
    | true =>
      rw [react_drive_of_driven _ _ hget hentry hdriven]
      simp
    | false =>
      rw [react_drive_of_undriven _ _ hget hentry hdriven]
      simp

/-- A caller is told about a pipeline at once if it waits although a driver is at work. -/
theorem mem_react_execute_iff :
    .answered id (.ok p) ∈ (s.react engine ⟨.drive .execute id, now⟩).2 ↔
      ∃ r, s.store.get? id = some r ∧ r.driven = true ∧
        (r.pipeline.status = .pending ∨ r.pipeline.status = .paused) ∧
        p = r.pipeline.setStatus .running now.instant := by
  cases hget : s.store.get? id with
  | none => simp [react_drive_of_unknown _ _ hget]
  | some r =>
    cases hentry : PipelineRecord.entryError? .execute id r.pipeline.status with
    | some err =>
      have hstatus : ¬ (r.pipeline.status = .pending ∨ r.pipeline.status = .paused) := by
        simp [← PipelineRecord.entryError?_execute_eq_none_iff id, hentry]
      rw [react_drive_of_error _ _ hget hentry]
      simp [hstatus]
    | none =>
      have hstatus := (PipelineRecord.entryError?_execute_eq_none_iff id).mp hentry
      cases hdriven : r.driven with
      | true =>
        rw [react_drive_of_driven _ _ hget hentry hdriven]
        simp [hdriven, hstatus]
      | false =>
        rw [react_drive_of_undriven _ _ hget hentry hdriven]
        simp [hdriven]

/-- A driving call returns a pipeline only when it is completed or paused. -/
theorem status_of_returned {n : Nat} (hknown : s.Known)
    (hout : .returned n id (.ok p) ∈ (s.react engine e).2) :
    p.status = .completed ∨ p.status = .paused := by
  obtain ⟨act, now⟩ := e
  cases act with
  | advance m move =>
    cases hcall : s.calls[m]? with
    | none => simp [react, hcall] at hout
    | some call =>
      cases hadvance : call.point.advance engine call.id move now s.store with
      | none => simp [react, hcall, hadvance] at hout
      | some result =>
        obtain ⟨store, q⟩ := result
        rw [react_advance hcall hadvance] at hout
        obtain ⟨r, hget⟩ := hknown call.id (List.mem_map_of_mem (List.mem_of_getElem? hcall))
        obtain ⟨r', hmoves, -⟩ := Moves.of_advance hget hadvance
        obtain ⟨rfl, rfl⟩ := Point.eq_returned_of_mem_outputs hout
        exact hmoves.status_of_ok
  | drive entry other =>
    simp only [react] at hout
    split at hout
    · cases List.mem_singleton.mp hout
    · contradiction
  | _ => cases List.mem_singleton.mp hout

/-- Whoever wants to execute a pipeline is refused as long as it runs, whether or not a call drives
it. Without a restore under a driver, a pipeline that is driven and has not failed runs, or a pause
waits to be observed; in the second case the pause is taken back and the caller is told about a
pipeline that runs, and there is no other case in which a caller is told about it at once. What a
driving call returns is completed or paused. -/
theorem execute_under_driver (h : s.Reached engine fun s e => e.Fresh s) (id : PipelineId) :
    (∀ r, s.store.get? id = some r → ∀ now,
      (s.react engine ⟨.drive .execute id, now⟩).2 =
          [.answered id (.error (.alreadyRunning id))] ↔ r.pipeline.status = .running) ∧
    (s.Reached engine Orderly → ∀ n r, s.Drives id n → s.store.get? id = some r →
      r.pipeline.status ≠ .failed →
        r.driven = true ∧ (r.pipeline.status = .running ∨ r.pipeline.status = .paused)) ∧
    (∀ now p, .answered id (.ok p) ∈ (s.react engine ⟨.drive .execute id, now⟩).2 ↔
      ∃ r, s.store.get? id = some r ∧ r.driven = true ∧ r.pipeline.status = .paused ∧
        p = r.pipeline.setStatus .running now.instant) ∧
    ∀ e n p, .returned n id (.ok p) ∈ (s.react engine e).2 →
      p.status = .completed ∨ p.status = .paused := by
  refine ⟨fun r hget now => react_execute_eq_alreadyRunning_iff hget, ?_, ?_, ?_⟩
  · intro horderly n r hn hget hfailed
    have hsole : (s.view id).Sole :=
      horderly.induction (sole_initial id) fun _ _ he => sole_next engine he.1 (he.2 id)
    have hdriven : r.driven = true := (hsole.driven r hget).mp ⟨n, live_view_iff.mpr hn⟩
    obtain ⟨-, hidle⟩ := hsole.consistent r hget
    refine ⟨hdriven, ?_⟩
    cases hstatus : r.pipeline.status with
    | running => exact .inl rfl
    | paused => exact .inr rfl
    | failed => contradiction
    | pending => simp [hidle (.inl hstatus)] at hdriven
    | completed => simp [hidle (.inr hstatus)] at hdriven
  · intro now p
    have hunstarted : (s.view id).Unstarted :=
      h.induction (unstarted_initial id) fun _ _ hfresh => unstarted_next hfresh
    rw [mem_react_execute_iff]
    refine exists_congr fun r => and_congr_right fun hget => and_congr_right fun hdriven => ?_
    have hpending : r.pipeline.status ≠ .pending := by
      intro hpending
      simp [hunstarted.driven r hget hpending] at hdriven
    simp [hpending]
  · intro e n p
    exact status_of_returned (h.induction known_initial fun _ _ _ => known_next)

/-- A pipeline is paused while its driver stands in front of the first stage. -/
def interruptedRun (id : PipelineId) (now : Moment) : List Event :=
  [.create id (.ofTask "t"), .drive .execute id, .advance 0 .proceed, .pause id].map (⟨·, now⟩)

/-- The pause is taken back by a caller that wants to execute the pipeline, who is told that it
runs. -/
theorem execute_after_interruptedRun :
    (initial.run .initial (interruptedRun (.ofNat 1) ⟨.zero, ⟨0, 0⟩⟩)).Reached .initial
        (fun s e => e.Fresh s) ∧
      ∀ now, .answered (.ofNat 1)
          (.ok ((Pipeline.pending (.ofNat 1) ⟨0, 0⟩).setCurrent (some .requirements) ⟨0, 0⟩
            |>.setStatus .running now.instant)) ∈
        ((initial.run .initial (interruptedRun (.ofNat 1) ⟨.zero, ⟨0, 0⟩⟩)).react .initial
          ⟨.drive .execute (.ofNat 1), now⟩).2 := by
  have hreached : (initial.run .initial
      (interruptedRun (.ofNat 1) ⟨.zero, ⟨0, 0⟩⟩)).Reached .initial fun s e => e.Fresh s := by
    refine ⟨_, ?_, rfl⟩
    simp [interruptedRun, Event.Fresh, initial]
  obtain ⟨-, -, htold, -⟩ := execute_under_driver hreached (.ofNat 1)
  exact ⟨hreached, fun now => (htold now _).mpr ⟨_, rfl, rfl, rfl, rfl⟩⟩

/-- A call drives the pipeline and nobody has cancelled it, and the next caller who wants to execute
it is told that it runs instead of being refused. -/
theorem execute_not_refused_under_driver :
    (initial.run .initial (interruptedRun (.ofNat 1) ⟨.zero, ⟨0, 0⟩⟩)).Reached .initial Orderly ∧
      (initial.run .initial (interruptedRun (.ofNat 1) ⟨.zero, ⟨0, 0⟩⟩)).Drives (.ofNat 1) 0 ∧
      (∀ e ∈ interruptedRun (.ofNat 1) ⟨.zero, ⟨0, 0⟩⟩, e.act ≠ .cancel (.ofNat 1)) ∧
      ∃ p, ((initial.run .initial (interruptedRun (.ofNat 1) ⟨.zero, ⟨0, 0⟩⟩)).react .initial
          ⟨.drive .execute (.ofNat 1), ⟨.zero, ⟨0, 0⟩⟩⟩).2 = [.answered (.ofNat 1) (.ok p)] ∧
        p.status = .running := by
  refine ⟨⟨_, ?_, rfl⟩, ⟨_, rfl, rfl⟩, ?_, _, rfl, rfl⟩
  · simp [interruptedRun, Orderly, Event.Fresh, Event.Restores, initial]
  · simp [interruptedRun]

end Fleet

end StagedPipeline
