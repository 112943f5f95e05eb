import StagedPipeline.Proofs.Driving.View

/-!
# One driver at a time

As long as no pipeline is restored under a driver that is at work, at most one call drives a
pipeline, and the record knows whether there is one. A record is driven while its pipeline runs, and
not while it waits for its start or is completed, so that a pipeline never runs without a driver:
one that has none can be driven by whoever asks next, unless it has come to its end.
-/

namespace StagedPipeline

/-- What the status of a pipeline says about its driver. -/
def PipelineRecord.Consistent (r : PipelineRecord) : Prop :=
  (r.pipeline.status = .running → r.driven = true) ∧
    (r.pipeline.status = .pending ∨ r.pipeline.status = .completed → r.driven = false)

theorem PipelineRecord.Consistent.of_undriven {r : PipelineRecord} (hdriven : r.driven = false)
    (hrunning : r.pipeline.status ≠ .running) : r.Consistent :=
  ⟨fun hstatus => absurd hstatus hrunning, fun _ => hdriven⟩

/-- A pipeline that was started and has no driver is paused or has come to its end. -/
theorem PipelineRecord.Consistent.isTerminal {r : PipelineRecord} (h : r.Consistent)
    (hdriven : r.driven = false) (hpending : r.pipeline.status ≠ .pending)
    (hpaused : r.pipeline.status ≠ .paused) : r.pipeline.status.isTerminal = true := by
  cases hstatus : r.pipeline.status with
  | running => simp [h.1 hstatus] at hdriven
  | completed => rfl
  | failed => rfl
  | _ => contradiction

namespace View

/-- The call drives the pipeline. -/
def Live (v : View) (n : Nat) : Prop :=
  ∃ p, v.points n = some p ∧ p.isLive = true

/-- At most one call drives the pipeline, and the record tells whether one does. -/
structure Sole (v : View) : Prop where
  known : v.Known
  unique : ∀ m n, v.Live m → v.Live n → m = n
  driven : ∀ r, v.record = some r → ((∃ n, v.Live n) ↔ r.driven = true)
  consistent : ∀ r, v.record = some r → r.Consistent

theorem live_update_iff {record : Option PipelineRecord} {points : Nat → Option Point} {n : Nat}
    {p : Point} {m : Nat} :
    Live ⟨record, Function.update points n (some p)⟩ m ↔
      (m = n ∧ p.isLive = true) ∨ (m ≠ n ∧ Live ⟨record, points⟩ m) := by
  simp only [Live, update_eq_some_iff]
  constructor
  · rintro ⟨q, ⟨hm, rfl⟩ | ⟨hm, hq⟩, hlive⟩
    · exact .inl ⟨hm, hlive⟩
    · exact .inr ⟨hm, q, hq, hlive⟩
  · rintro (⟨hm, hlive⟩ | ⟨hm, q, hq, hlive⟩)
    · exact ⟨p, .inl ⟨hm, rfl⟩, hlive⟩
    · exact ⟨q, .inr ⟨hm, hq⟩, hlive⟩

end View

section Moves

variable {engine : EngineConfig} {id : PipelineId} {r r' : PipelineRecord} {p p' : Point}
  {move : Move}

theorem Moves.isLive (h : Moves engine id r p move r' p') : p.isLive = true := by
  cases h <;> rfl

/-- A call gives the pipeline free exactly when it ends. -/
theorem Moves.driven_eq (h : Moves engine id r p move r' p') :
    r'.driven = (r.driven && p'.isLive) := by
  cases h with
  | hear hresume => simp
  | _ => simp [Point.isLive, PipelineRecord.release]

theorem Moves.consistent (h : Moves engine id r p move r' p') (hr : r.Consistent) :
    r'.Consistent := by
  cases h with
  | halt hpaused => exact .of_undriven rfl (hpaused.trans_ne (by decide))
  | stop hfailed => exact .of_undriven rfl (hfailed.trans_ne (by decide))
  | skip hpaused hfailed hdone => exact hr
  | begin now hpaused hfailed hopen => exact hr
  | complete now hfailed => exact .of_undriven rfl nofun
  | hear hresume => exact hr
  | discard hfailed => exact .of_undriven rfl (hfailed.trans_ne (by decide))
  | record now hfailed hsuccess =>
    unfold PipelineRecord.Consistent
    rw [Pipeline.status_addResult]
    exact hr
  | fail now hfailed hsuccess => exact .of_undriven rfl nofun
  | drop now =>
    unfold PipelineRecord.release
    dsimp only
    split
    · exact .of_undriven rfl nofun
    · rename_i hrunning
      exact .of_undriven rfl hrunning

end Moves

namespace View

variable {engine : EngineConfig} {id : PipelineId} {v v' : View} {act : Act} {outs : List Output}

/-- A change of the record that is not about its driver. -/
theorem Sole.of_record {r r' : PipelineRecord} {points : Nat → Option Point}
    (h : Sole ⟨some r, points⟩) (hdriven : r'.driven = r.driven) (hr : r'.Consistent) :
    Sole ⟨some r', points⟩ where
  known := by simp [Known]
  unique := h.unique
  driven := by
    intro r'' heq
    obtain rfl := Option.some.inj heq
    rw [hdriven]
    exact h.driven r rfl
  consistent := by
    intro r'' heq
    obtain rfl := Option.some.inj heq
    exact hr

/-- If only one call can drive the pipeline, and does so when the record says it. -/
theorem Sole.of_live_iff {r : PipelineRecord} {points : Nat → Option Point} {n : Nat}
    (hlive : ∀ m, Live ⟨some r, points⟩ m ↔ m = n ∧ r.driven = true) (hr : r.Consistent) :
    Sole ⟨some r, points⟩ where
  known := by simp [Known]
  unique := by
    intro m k hm hk
    rw [((hlive m).mp hm).1, ((hlive k).mp hk).1]
  driven := by
    intro r' heq
    obtain rfl := Option.some.inj heq
    simp [hlive]
  consistent := by
    intro r' heq
    obtain rfl := Option.some.inj heq
    exact hr

theorem Sole.of_undriven {r : PipelineRecord} {points : Nat → Option Point}
    (hlive : ∀ n, ¬ Live ⟨some r, points⟩ n) (hdriven : r.driven = false) (hr : r.Consistent) :
    Sole ⟨some r, points⟩ :=
  .of_live_iff (n := 0) (by simp [hlive, hdriven]) hr

theorem Sole.not_live {r : PipelineRecord} (h : v.Sole) (hrecord : v.record = some r)
    (hdriven : r.driven = false) (n : Nat) : ¬ v.Live n := by
  intro hn
  have := (h.driven r hrecord).mp ⟨n, hn⟩
  simp [hdriven] at this

theorem Sole.driven_eq_false {r : PipelineRecord} (h : v.Sole) (hrecord : v.record = some r)
    (hnone : ∀ n, ¬ v.Live n) : r.driven = false := by
  rw [Bool.eq_false_iff]
  intro hdriven
  obtain ⟨n, hn⟩ := (h.driven r hrecord).mpr hdriven
  exact hnone n hn

/-- The calls that drive the pipeline, after one of them has moved. -/
theorem Sole.of_move {r r' : PipelineRecord} {points : Nat → Option Point} {n : Nat}
    {p p' : Point} {move : Move} (h : Sole ⟨some r, points⟩) (hpoint : points n = some p)
    (hmoves : Moves engine id r p move r' p') :
    Sole ⟨some r', Function.update points n (some p')⟩ := by
  have hn : Live ⟨some r, points⟩ n := ⟨p, hpoint, hmoves.isLive⟩
  have hdriven : r.driven = true := (h.driven r rfl).mp ⟨n, hn⟩
  refine .of_live_iff (n := n) ?_ (hmoves.consistent (h.consistent r rfl))
  intro m
  rw [live_update_iff, hmoves.driven_eq, hdriven, Bool.true_and]
  constructor
  · rintro (hm | ⟨hne, hm⟩)
    · exact hm
    · exact absurd (h.unique m n hm hn) hne
  · exact Or.inl

/-- The calls that drive the pipeline, after a new one has claimed it. -/
theorem Sole.of_claim {r r' : PipelineRecord} {points : Nat → Option Point} {n : Nat} {p : Point}
    (h : Sole ⟨some r, points⟩) (hdriven : r.driven = false) (hp : p.isLive = true)
    (hdriven' : r'.driven = true) (hr : r'.Consistent) :
    Sole ⟨some r', Function.update points n (some p)⟩ := by
  refine .of_live_iff (n := n) ?_ hr
  intro m
  rw [live_update_iff]
  constructor
  · rintro (⟨hm, -⟩ | ⟨-, hm⟩)
    · exact ⟨hm, hdriven'⟩
    · exact absurd hm (h.not_live rfl hdriven m)
  · rintro ⟨hm, -⟩
    exact Or.inl ⟨hm, hp⟩

theorem Sole.step (hstep : Step engine id v act outs v') (h : v.Sole)
    (hrestore : ∀ p config, act = .restore p config → p.id = id → ∀ n, ¬ v.Live n) :
    v'.Sole := by
  cases hstep with
  | create now haccepted =>
    refine .of_undriven ?_ rfl (.of_undriven rfl nofun)
    rintro n ⟨p, hp, -⟩
    exact h.known.ne_some rfl hp
  | restore now hid =>
    exact .of_undriven (hrestore _ _ rfl hid) rfl
      (.of_undriven rfl (PipelineRecord.status_adopt_ne_running _ _ _))
  | claim now hentry hdriven hnew =>
    exact h.of_claim hdriven rfl rfl (by simp [PipelineRecord.Consistent, Pipeline.setStatus])
  | rejoin now hentry hdriven =>
    exact h.of_record hdriven.symm (by simp [PipelineRecord.Consistent, Pipeline.setStatus])
  | pause now hrunning =>
    exact h.of_record rfl (by simp [PipelineRecord.Consistent, Pipeline.setStatus])
  | cancel now =>
    exact h.of_record rfl (by simp [PipelineRecord.Consistent, Pipeline.setStatus])
  | move hpoint hmoves => exact h.of_move hpoint hmoves

end View

namespace Fleet

variable {engine : EngineConfig} {s : Fleet} {e : Event} {id : PipelineId}

/-- Identifiers are new when they are generated, and a pipeline is restored only while no call
drives it. -/
def Orderly (s : Fleet) (e : Event) : Prop :=
  e.Fresh s ∧ ∀ id, e.Restores id → ∀ n, ¬ s.Drives id n

theorem live_view_iff {n : Nat} : (s.view id).Live n ↔ s.Drives id n :=
  drives_iff.symm

theorem sole_initial (id : PipelineId) : (initial.view id).Sole where
  known := by simp [View.Known, view, initial]
  unique := by simp [View.Live, view, initial]
  driven := by simp [view, initial]
  consistent := by simp [view, initial]

theorem sole_next (engine : EngineConfig) (hfresh : e.Fresh s)
    (hrestore : e.Restores id → ∀ n, ¬ s.Drives id n) (h : (s.view id).Sole) :
    ((s.next engine e).view id).Sole := by
  refine holds_next hfresh h.known h fun v hstep => h.step hstep ?_
  intro p config hact hid n hn
  exact hrestore ⟨p, config, hact, hid⟩ n (live_view_iff.mp hn)

/-- A call that may drive the pipeline, and finds no driver, becomes its driver. -/
theorem drives_next_drive {entry : PipelineRecord.Entry} {r : PipelineRecord} (now : Moment)
    (hget : s.store.get? id = some r)
    (hentry : PipelineRecord.entryError? entry id r.pipeline.status = none)
    (hdriven : r.driven = false) :
    (s.next engine ⟨.drive entry id, now⟩).Drives id s.calls.length := by
  rw [next, react_drive_of_undriven engine now hget hentry hdriven]
  exact ⟨.walking Stage.all, List.getElem?_concat_length, rfl⟩

/-- A pipeline has come to its end, runs, or can be run. -/
theorem isTerminal_or_entryError?_eq_none (id : PipelineId) {status : Status}
    (hrunning : status ≠ .running) :
    status.isTerminal = true ∨ PipelineRecord.entryError? .execute id status = none := by
  cases status with
  | pending => exact .inr rfl
  | paused => exact .inr rfl
  | running => contradiction
  | completed => exact .inl rfl
  | failed => exact .inl rfl

/-- At most one call drives a pipeline, exactly one while its record says so, and one as long as it
runs; a pipeline that waits for its start or is completed has none. A pipeline without a driver has
come to its end, or the next call that asks to run it becomes its driver. -/
theorem single_driver (h : s.Reached engine Orderly) (id : PipelineId) :
    (∀ m n, s.Drives id m → s.Drives id n → m = n) ∧
    ((∃ n, s.Drives id n) ↔ ∃ r, s.store.get? id = some r ∧ r.driven = true) ∧
    ∀ r, s.store.get? id = some r →
      (r.pipeline.status = .running → r.driven = true ∧ ∃ n, s.Drives id n) ∧
      (r.pipeline.status = .pending ∨ r.pipeline.status = .completed → r.driven = false) ∧
      ((∀ n, ¬ s.Drives id n) → r.pipeline.status.isTerminal = true ∨
        ∀ now, (s.next engine ⟨.drive .execute id, now⟩).Drives id s.calls.length) := by
  have hsole : (s.view id).Sole :=
    h.induction (sole_initial id) fun _ _ horderly => sole_next engine horderly.1 (horderly.2 id)
  have hdriven : ∀ r, s.store.get? id = some r → ((∃ n, s.Drives id n) ↔ r.driven = true) := by
    intro r hget
    simpa only [live_view_iff] using hsole.driven r hget
  refine ⟨?_, ?_, ?_⟩
  · simpa only [live_view_iff] using hsole.unique
  · constructor
    · rintro ⟨n, hn⟩
      cases hget : s.store.get? id with
      | none =>
        obtain ⟨p, hp, -⟩ := live_view_iff.mpr hn
        rw [hsole.known hget] at hp
        contradiction
      | some r => exact ⟨r, rfl, (hdriven r hget).mp ⟨n, hn⟩⟩
    · rintro ⟨r, hget, hr⟩
      exact (hdriven r hget).mpr hr
  · intro r hget
    obtain ⟨hrunning, hidle⟩ := hsole.consistent r hget
    refine ⟨fun hr => ⟨hrunning hr, (hdriven r hget).mpr (hrunning hr)⟩, hidle, ?_⟩
    intro hfree
    have hnot : r.driven = false := hsole.driven_eq_false hget fun n => hfree n ∘ live_view_iff.mp
    have hstatus : r.pipeline.status ≠ .running := by
      intro hr
      simp [hrunning hr] at hnot
    refine (isTerminal_or_entryError?_eq_none id hstatus).imp_right ?_
    intro hentry now
    exact drives_next_drive now hget hentry hnot

/-- A pipeline is run, paused and resumed while its driver waits, given up, and restored. -/
def abandonedRun (id : PipelineId) (now : Moment) : List Event :=
  [.create id (.ofTask "t"), .drive .execute id, .advance 0 .proceed, .pause id, .drive .resume id,
    .advance 0 .drop, .restore (.pending id now.instant) (.ofTask "t")].map (⟨·, now⟩)

theorem not_drives_after_drop (n : Nat) :
    ¬ (initial.run .initial ((abandonedRun (.ofNat 1) ⟨.zero, ⟨0, 0⟩⟩).take 6)).Drives
      (.ofNat 1) n := by
  rintro ⟨p, hp, hlive⟩
  cases n with
  | zero =>
    cases hp
    contradiction
  | succ n => cases hp

theorem along_abandonedRun :
    initial.Along .initial Orderly (abandonedRun (.ofNat 1) ⟨.zero, ⟨0, 0⟩⟩) := by
  have hget : initial.store.get? (.ofNat 1) = none := rfl
  simpa [abandonedRun, Orderly, Event.Fresh, Event.Restores, Pipeline.pending, hget] using
    not_drives_after_drop

/-- The restored pipeline has no driver, and whoever runs it next becomes one. -/
theorem drives_after_restore :
    (initial.run .initial (abandonedRun (.ofNat 1) ⟨.zero, ⟨0, 0⟩⟩)).Reached .initial Orderly ∧
      ∀ now, ((initial.run .initial (abandonedRun (.ofNat 1) ⟨.zero, ⟨0, 0⟩⟩)).next .initial
        ⟨.drive .execute (.ofNat 1), now⟩).Drives (.ofNat 1) 1 := by
  have hreached :
      (initial.run .initial (abandonedRun (.ofNat 1) ⟨.zero, ⟨0, 0⟩⟩)).Reached .initial Orderly :=
    ⟨_, along_abandonedRun, rfl⟩
  refine ⟨hreached, ?_⟩
  have hrecord := (single_driver hreached (.ofNat 1)).2.2 _ rfl
  refine (hrecord.2.2 ?_).resolve_left (by decide)
  exact not_drives_after_drop

end Fleet

end StagedPipeline
