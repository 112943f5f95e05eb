import Mathlib.Data.List.TakeWhile
import StagedPipeline.Proofs.Driving.Locality
import StagedPipeline.Proofs.Driving.Moves
import StagedPipeline.Proofs.Driving.Operations
import StagedPipeline.Proofs.Driving.Regularity

/-!
# Refused calls

A change of the store is not taken back if it ends in an error, so that a call that is refused has
to be refused before anything is changed. `Fleet.Refuses` lists when that is: the settings of a new
pipeline are unusable, the pipeline is not known, or its status does not admit the call. Then the
error is all that comes out, and the engine is what it was. The other two errors, of a stage that
failed and of a cancel, are told by a driving call when it returns, and the transition that gives
them has ended the pipeline first. So a caller can tell the two kinds apart by the error alone
(`Fleet.refused_calls_change_nothing`).
-/

namespace StagedPipeline

/-! ### When a call is refused -/

/-- Nothing is left of a text by trimming if all of it is blank. -/
theorem Text.trim_eq_nil_iff (s : String) : trim s.toList = [] ↔ allBlank s = true := by
  unfold trim trimEnd trimStart allBlank
  rw [List.reverse_eq_nil_iff, List.dropWhile_eq_nil_iff, List.all_eq_true]
  constructor
  · intro h
    by_contra hblank
    have hne : s.toList.dropWhile isBlank ≠ [] := by
      rw [ne_eq, List.dropWhile_eq_nil_iff]
      exact hblank
    have hhead := List.head_dropWhile_not isBlank hne
    rw [h _ (List.mem_reverse.mpr (List.head_mem hne))] at hhead
    contradiction
  · intro h c hc
    exact h c ((List.dropWhile_sublist _).mem (List.mem_reverse.mp hc))

/-- Why a call is refused. -/
inductive Fleet.Refuses (s : Fleet) : Act → PipelineError → Prop
  | blankTask {id : PipelineId} {config : PipelineConfig}
      (hblank : Text.trim config.task.toList = []) :
      Refuses s (.create id config) (.invalidConfig "task description must not be empty")
  | noTimeout {id : PipelineId} {config : PipelineConfig}
      (htask : Text.trim config.task.toList ≠ []) (hzero : config.stageTimeout = .zero) :
      Refuses s (.create id config) (.invalidConfig "stage timeout must be positive")
  | drivesUnknown {entry : PipelineRecord.Entry} {id : PipelineId}
      (hget : s.store.get? id = none) : Refuses s (.drive entry id) (.notFound id)
  | pausesUnknown {id : PipelineId} (hget : s.store.get? id = none) :
      Refuses s (.pause id) (.notFound id)
  | cancelsUnknown {id : PipelineId} (hget : s.store.get? id = none) :
      Refuses s (.cancel id) (.notFound id)
  | executesRunning {id : PipelineId} {r : PipelineRecord} (hget : s.store.get? id = some r)
      (hstatus : r.pipeline.status = .running) :
      Refuses s (.drive .execute id) (.alreadyRunning id)
  | executesEnded {id : PipelineId} {r : PipelineRecord} (hget : s.store.get? id = some r)
      (hstatus : r.pipeline.status.isTerminal = true) :
      Refuses s (.drive .execute id) (.terminal id r.pipeline.status)
  | resumesUnpaused {id : PipelineId} {r : PipelineRecord} (hget : s.store.get? id = some r)
      (hstatus : r.pipeline.status ≠ .paused) : Refuses s (.drive .resume id) (.notPaused id)
  | pausesIdle {id : PipelineId} {r : PipelineRecord} (hget : s.store.get? id = some r)
      (hstatus : r.pipeline.status ≠ .running) : Refuses s (.pause id) (.notRunning id)

/-- The error that is told in an output. -/
def Output.error? : Output → Option PipelineError
  | returned _ _ (.error e) => some e
  | answered _ (.error e) => some e
  | acknowledged _ (.error e) => some e
  | _ => none

section Settings

variable {config : PipelineConfig}

theorem PipelineConfig.refusal?_eq_blankTask_iff :
    config.refusal? = some .blankTask ↔ Text.trim config.task.toList = [] := by
  unfold refusal?
  rw [Text.trim_eq_nil_iff]
  split <;> simp_all

theorem PipelineConfig.refusal?_eq_noTimeout_iff :
    config.refusal? = some .noTimeout ↔
      Text.trim config.task.toList ≠ [] ∧ config.stageTimeout = .zero := by
  have hzero : config.stageTimeout.isZero = true ↔ config.stageTimeout = .zero := by
    cases config.stageTimeout
    simp [Duration.isZero, Duration.zero]
  unfold refusal?
  rw [ne_eq, Text.trim_eq_nil_iff, ← hzero]
  split <;> simp_all

end Settings

namespace Fleet

variable {engine : EngineConfig} {s : Fleet} {e : Event} {id : PipelineId} {r : PipelineRecord}
  {entry : PipelineRecord.Entry} {err : PipelineError} {o : Output}

/-- The errors of refusals are those of the caller. -/
theorem Refuses.isCallerError {act : Act} (h : s.Refuses act err) : err.isCallerError = true := by
  cases h <;> rfl

/-- A known pipeline is not driven as asked if its status does not admit it. -/
theorem refuses_drive_iff (hget : s.store.get? id = some r) :
    s.Refuses (.drive entry id) err ↔
      PipelineRecord.entryError? entry id r.pipeline.status = some err := by
  constructor
  · intro h
    cases h with
    | drivesUnknown hnone =>
      rw [hget] at hnone
      contradiction
    | executesRunning hget' hstatus =>
      obtain rfl := Option.some.inj (hget.symm.trans hget')
      rw [hstatus]
      rfl
    | executesEnded hget' hstatus =>
      obtain rfl := Option.some.inj (hget.symm.trans hget')
      cases hs : r.pipeline.status <;> simp_all [PipelineRecord.entryError?, Status.isTerminal]
    | resumesUnpaused hget' hstatus =>
      obtain rfl := Option.some.inj (hget.symm.trans hget')
      cases hs : r.pipeline.status <;> simp_all [PipelineRecord.entryError?]
  · intro h
    cases entry with
    | resume =>
      by_cases hpaused : r.pipeline.status = .paused
      · rw [hpaused] at h
        contradiction
      · have herr : err = .notPaused id := by
          cases hs : r.pipeline.status <;> simp_all [PipelineRecord.entryError?]
        exact herr ▸ .resumesUnpaused hget hpaused
    | execute =>
      cases hstatus : r.pipeline.status with
      | running =>
        rw [hstatus] at h
        obtain rfl := Option.some.inj h
        exact .executesRunning hget hstatus
      | completed =>
        rw [hstatus] at h
        obtain rfl := Option.some.inj h
        exact hstatus ▸ .executesEnded hget (by rw [hstatus]; rfl)
      | failed =>
        rw [hstatus] at h
        obtain rfl := Option.some.inj h
        exact hstatus ▸ .executesEnded hget (by rw [hstatus]; rfl)
      | _ =>
        rw [hstatus] at h
        contradiction

/-! ### What comes of a refusal -/

/-- A call that is refused is told why, and nothing has happened. -/
theorem react_of_refuses (engine : EngineConfig) (hs : s.store.Ascending)
    (h : s.Refuses e.act err) :
    ∃ o, s.react engine e = (s, [o]) ∧ o.error? = some err := by
  obtain ⟨act, now⟩ := e
  cases act with
  | create id config =>
    cases h with
    | blankTask hblank =>
      have hrefusal := PipelineConfig.refusal?_eq_blankTask_iff.mpr hblank
      exact ⟨_, react_create_of_refusal engine now hrefusal, rfl⟩
    | noTimeout htask hzero =>
      have hrefusal := PipelineConfig.refusal?_eq_noTimeout_iff.mpr ⟨htask, hzero⟩
      exact ⟨_, react_create_of_refusal engine now hrefusal, rfl⟩
  | drive entry id =>
    cases hget : s.store.get? id with
    | none =>
      cases h with
      | drivesUnknown _ => exact ⟨_, react_drive_of_unknown engine now hget, rfl⟩
      | _ => simp_all
    | some r =>
      have hreact := react_drive_of_error engine now hget ((refuses_drive_iff hget).mp h)
      rw [hs.set_eq_self hget] at hreact
      exact ⟨_, hreact, rfl⟩
  | pause id =>
    cases h with
    | pausesUnknown hget => exact ⟨_, react_pause_of_unknown engine now hget, rfl⟩
    | pausesIdle hget hstatus =>
      have hreact := react_pause_of_ne_running engine now hget hstatus
      rw [hs.set_eq_self hget] at hreact
      exact ⟨_, hreact, rfl⟩
  | cancel id =>
    cases h with
    | cancelsUnknown hget => exact ⟨_, react_cancel_of_unknown engine now hget, rfl⟩
  | _ => cases h

end Fleet

/-! ### What else is told -/

/-- A driving call that returns an error has met a cancel or a stage that failed, and leaves its
pipeline failed and without a driver. -/
theorem Moves.of_error {engine : EngineConfig} {id : PipelineId} {r r' : PipelineRecord}
    {p : Point} {move : Move} {err : PipelineError}
    (h : Moves engine id r p move r' (.returned (.error err))) :
    (err = .cancelled id ∨ ∃ stage retries text, err = .stageFailed stage retries text) ∧
      r'.pipeline.status = .failed ∧ r'.driven = false := by
  generalize hp : Point.returned (.error err) = p' at h
  cases h with
  | stop hfailed =>
    obtain rfl := Except.error.inj (Point.returned.inj hp)
    exact ⟨.inl rfl, hfailed, rfl⟩
  | discard hfailed =>
    obtain rfl := Except.error.inj (Point.returned.inj hp)
    exact ⟨.inl rfl, hfailed, rfl⟩
  | fail now hfailed hsuccess =>
    obtain rfl := Except.error.inj (Point.returned.inj hp)
    exact ⟨.inr ⟨_, _, _, rfl⟩, rfl, rfl⟩
  | hear hresume => exact absurd hp.symm (Point.ofTrial_ne rfl _)
  | _ => cases hp

theorem Point.eq_of_error?_outputs {n : Nat} {id : PipelineId} {p : Point} {o : Output}
    {err : PipelineError} (ho : o ∈ p.outputs n id) (herr : o.error? = some err) :
    p = .returned (.error err) ∧ o = .returned n id (.error err) := by
  unfold Point.outputs at ho
  split at ho
  · obtain rfl := List.mem_singleton.mp ho
    contradiction
  · rename_i result
    obtain rfl := List.mem_singleton.mp ho
    cases result with
    | ok p => contradiction
    | error e =>
      obtain rfl := Option.some.inj herr
      exact ⟨rfl, rfl⟩
  · contradiction

namespace Fleet

variable {engine : EngineConfig} {s : Fleet} {e : Event} {id : PipelineId}
  {entry : PipelineRecord.Entry} {err : PipelineError} {o : Output}

/-- An output tells that a pipeline has come to its end by a cancel or a stage that failed, and its
record says so. -/
def EndsWith (s : Fleet) (err : PipelineError) (o : Output) : Prop :=
  ∃ n id r, o = .returned n id (.error err) ∧
    (err = .cancelled id ∨ ∃ stage retries text, err = .stageFailed stage retries text) ∧
    s.store.get? id = some r ∧ r.pipeline.status = .failed ∧ r.driven = false

theorem EndsWith.isCallerError (h : s.EndsWith err o) : err.isCallerError = false := by
  obtain ⟨n, id, r, -, rfl | ⟨stage, retries, text, rfl⟩, -⟩ := h
  · rfl
  · rfl

section Operations

variable {now : Moment}

theorem refuses_of_create {config : PipelineConfig}
    (ho : o ∈ (s.react engine ⟨.create id config, now⟩).2) (herr : o.error? = some err) :
    s.Refuses (.create id config) err := by
  cases hrefusal : config.refusal? with
  | none =>
    rw [react_create_of_accepted _ _ hrefusal] at ho
    obtain rfl := List.mem_singleton.mp ho
    contradiction
  | some refusal =>
    rw [react_create_of_refusal _ _ hrefusal] at ho
    obtain rfl := List.mem_singleton.mp ho
    obtain rfl := Option.some.inj herr
    cases refusal with
    | blankTask => exact .blankTask (PipelineConfig.refusal?_eq_blankTask_iff.mp hrefusal)
    | noTimeout =>
      obtain ⟨htask, hzero⟩ := PipelineConfig.refusal?_eq_noTimeout_iff.mp hrefusal
      exact .noTimeout htask hzero

theorem refuses_of_drive (ho : o ∈ (s.react engine ⟨.drive entry id, now⟩).2)
    (herr : o.error? = some err) : s.Refuses (.drive entry id) err := by
  cases hget : s.store.get? id with
  | none =>
    rw [react_drive_of_unknown _ _ hget] at ho
    obtain rfl := List.mem_singleton.mp ho
    obtain rfl := Option.some.inj herr
    exact .drivesUnknown hget
  | some r =>
    cases hentry : PipelineRecord.entryError? entry id r.pipeline.status with
    | some refusal =>
      rw [react_drive_of_error _ _ hget hentry] at ho
      obtain rfl := List.mem_singleton.mp ho
      obtain rfl := Option.some.inj herr
      exact (refuses_drive_iff hget).mpr hentry
    | none =>
      cases hdriven : r.driven with
      | true =>
        rw [react_drive_of_driven _ _ hget hentry hdriven] at ho
        obtain rfl := List.mem_singleton.mp ho
        contradiction
      | false =>
        rw [react_drive_of_undriven _ _ hget hentry hdriven] at ho
        contradiction

theorem refuses_of_pause (ho : o ∈ (s.react engine ⟨.pause id, now⟩).2)
    (herr : o.error? = some err) : s.Refuses (.pause id) err := by
  cases hget : s.store.get? id with
  | none =>
    rw [react_pause_of_unknown _ _ hget] at ho
    obtain rfl := List.mem_singleton.mp ho
    obtain rfl := Option.some.inj herr
    exact .pausesUnknown hget
  | some r =>
    by_cases hrunning : r.pipeline.status = .running
    · rw [react_pause_of_running _ _ hget hrunning] at ho
      obtain rfl := List.mem_singleton.mp ho
      contradiction
    · rw [react_pause_of_ne_running _ _ hget hrunning] at ho
      obtain rfl := List.mem_singleton.mp ho
      obtain rfl := Option.some.inj herr
      exact .pausesIdle hget hrunning

theorem refuses_of_cancel (ho : o ∈ (s.react engine ⟨.cancel id, now⟩).2)
    (herr : o.error? = some err) : s.Refuses (.cancel id) err := by
  cases hget : s.store.get? id with
  | none =>
    rw [react_cancel_of_unknown _ _ hget] at ho
    obtain rfl := List.mem_singleton.mp ho
    obtain rfl := Option.some.inj herr
    exact .cancelsUnknown hget
  | some r =>
    rw [react_cancel_of_known _ _ hget] at ho
    obtain rfl := List.mem_singleton.mp ho
    contradiction

theorem endsWith_of_advance {n : Nat} {move : Move} (hs : s.Known)
    (ho : o ∈ (s.react engine ⟨.advance n move, now⟩).2) (herr : o.error? = some err) :
    (s.next engine ⟨.advance n move, now⟩).EndsWith err o := by
  cases hcall : s.calls[n]? with
  | none => simp [react, hcall] at ho
  | some call =>
    cases hadvance : call.point.advance engine call.id move now s.store with
    | none => simp [react, hcall, hadvance] at ho
    | some result =>
      obtain ⟨store, p⟩ := result
      rw [react_advance hcall hadvance] at ho
      rw [next_advance hcall hadvance]
      obtain ⟨rfl, rfl⟩ := Point.eq_of_error?_outputs ho herr
      obtain ⟨r, hget⟩ := hs call.id (List.mem_map_of_mem (List.mem_of_getElem? hcall))
      obtain ⟨r', hmoves, hget'⟩ := Moves.of_advance hget hadvance
      obtain ⟨hkind, hfailed, hdriven⟩ := hmoves.of_error
      exact ⟨n, call.id, r', rfl, hkind, hget', hfailed, hdriven⟩

end Operations

/-- An error that is told is that of a refusal, or that of a call that has come to its end. -/
theorem refuses_or_endsWith (hs : s.Known) (ho : o ∈ (s.react engine e).2)
    (herr : o.error? = some err) :
    s.Refuses e.act err ∨ (s.next engine e).EndsWith err o := by
  obtain ⟨act, now⟩ := e
  cases act with
  | create id config => exact .inl (refuses_of_create ho herr)
  | drive entry id => exact .inl (refuses_of_drive ho herr)
  | pause id => exact .inl (refuses_of_pause ho herr)
  | cancel id => exact .inl (refuses_of_cancel ho herr)
  | restore pipeline config =>
    obtain rfl := List.mem_singleton.mp ho
    contradiction
  | advance n move => exact .inr (endsWith_of_advance hs ho herr)

/-- In whatever state an engine is, and whatever is asked of it: a call is refused in the listed
cases, with the error of the case, and in no other. A refused call changes nothing at all, and the
error is all that comes out. The errors of refusals are those that count as the caller's; any other
is returned by a driving call that has left its pipeline failed and without a driver. -/
theorem refused_calls_change_nothing (engine : EngineConfig) (es : List Event) (e : Event) :
    let s := initial.run engine es
    let outs := (s.react engine e).2
    (∀ err, s.Refuses e.act err ↔
      ∃ o ∈ outs, o.error? = some err ∧ err.isCallerError = true) ∧
    (∀ err, s.Refuses e.act err →
      s.next engine e = s ∧ (∃ o, outs = [o] ∧ o.error? = some err) ∧
        ∀ n id stage sent, .request n id stage sent ∉ outs) ∧
    ∀ o ∈ outs, ∀ err, o.error? = some err → err.isCallerError = false →
      (s.next engine e).EndsWith err o := by
  intro s outs
  have hascending : s.store.Ascending := ascending_run Store.ascending_empty es
  have hknown : s.Known := known_run known_initial es
  refine ⟨fun err => ⟨fun h => ?_, ?_⟩, fun err h => ?_, fun o ho err herr hcaller => ?_⟩
  · obtain ⟨o, hreact, herr⟩ := react_of_refuses engine hascending h
    exact ⟨o, by simp [outs, hreact], herr, h.isCallerError⟩
  · rintro ⟨o, ho, herr, hcaller⟩
    refine (refuses_or_endsWith hknown ho herr).resolve_right fun hends => ?_
    rw [hends.isCallerError] at hcaller
    contradiction
  · obtain ⟨o, hreact, herr⟩ := react_of_refuses engine hascending h
    have houts : outs = [o] := congrArg Prod.snd hreact
    refine ⟨congrArg Prod.fst hreact, ⟨o, houts, herr⟩, fun n id stage sent hsent => ?_⟩
    rw [houts] at hsent
    obtain rfl := List.mem_singleton.mp hsent
    contradiction
  · refine (refuses_or_endsWith hknown ho herr).resolve_left fun hrefuses => ?_
    rw [hrefuses.isCallerError] at hcaller
    contradiction

/-- A pipeline that has failed is not executed again, whenever that is asked: its record is the
same, with the times in it, and nothing is sent. -/
theorem refused_after_failedRun :
    let s := initial.run .initial (failedRun (.ofNat 1) ⟨.zero, ⟨0, 0⟩⟩)
    let e : Event := ⟨.drive .execute (.ofNat 1), ⟨.ofSeconds 1, ⟨1, 0⟩⟩⟩
    s.Refuses e.act (.terminal (.ofNat 1) .failed) ∧ s.next .initial e = s ∧
      (∃ o, (s.react .initial e).2 = [o] ∧ o.error? = some (.terminal (.ofNat 1) .failed)) ∧
      ∃ o ∈ (s.react .initial e).2, o.error? = some (.terminal (.ofNat 1) .failed) ∧
        PipelineError.isCallerError (.terminal (.ofNat 1) .failed) = true := by
  intro s e
  obtain ⟨hrefuses, hsame, -⟩ :=
    refused_calls_change_nothing .initial (failedRun (.ofNat 1) ⟨.zero, ⟨0, 0⟩⟩) e
  obtain ⟨r, hget⟩ : ∃ r, s.store.get? (.ofNat 1) = some r := ⟨_, rfl⟩
  have hstatus : r.pipeline.status = .failed := by
    cases hget
    rfl
  have h : s.Refuses e.act (.terminal (.ofNat 1) .failed) :=
    hstatus ▸ .executesEnded hget (by rw [hstatus]; rfl)
  obtain ⟨hnext, houts, -⟩ := hsame _ h
  exact ⟨h, hnext, houts, (hrefuses _).mp h⟩

end Fleet

end StagedPipeline
