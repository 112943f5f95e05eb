import Mathlib.Algebra.Order.Ring.Nat
import StagedPipeline.Proofs.CommandLine.Course

/-!
# How long the results of a session take

A session works on one stage at a time, and the time of a result is counted from the beginning of
its stage. So the times of the results do not overlap on a clock that only runs forward: together
they are no longer than the session has been going on (`Session.Mirrors.timed_after`).
-/

namespace StagedPipeline

/-- Time of all results together. -/
def Pipeline.timeSpent (p : Pipeline) : Duration :=
  ⟨(p.results.map (·.duration.nanoseconds)).sum⟩

theorem Pipeline.nanoseconds_timeSpent_addResult (p : Pipeline) (result : StageResult)
    (now : Instant) :
    (p.addResult result now).timeSpent.nanoseconds =
      p.timeSpent.nanoseconds + result.duration.nanoseconds := by
  simp [timeSpent]

/-! ### What a transition adds -/

namespace PipelineRecord

variable (r : PipelineRecord) (id : PipelineId) (now : Instant)

theorem timeSpent_start (entry : Entry) :
    (r.start entry id now).1.pipeline.timeSpent = r.pipeline.timeSpent := by
  unfold start
  split <;> rfl

theorem timeSpent_boundary (stage : Stage) :
    (r.boundary id stage now).1.pipeline.timeSpent = r.pipeline.timeSpent := by
  unfold boundary
  split
  · rfl
  · rfl
  · split <;> rfl

theorem timeSpent_finish :
    (r.finish id now).1.pipeline.timeSpent = r.pipeline.timeSpent := by
  unfold finish
  split <;> rfl

theorem timeSpent_addResult_le (result : StageResult) :
    (r.addResult id result now).1.pipeline.timeSpent.nanoseconds ≤
      r.pipeline.timeSpent.nanoseconds + result.duration.nanoseconds := by
  have hadded := (r.pipeline.nanoseconds_timeSpent_addResult result now).le
  unfold addResult
  split
  · exact Nat.le_add_right _ _
  · dsimp only
    split <;> exact hadded

end PipelineRecord

/-! ### What a turn of a drive adds -/

/-- What is left of a pipeline: its results took no more than a time, and if a stage is waited at,
it has begun now. -/
structure Effect.Spends (id : PipelineId) (time : Nat) (now : Moment) (e : Effect Progress) :
    Prop where
  record : ∃ r, e.store.get? id = some r ∧ r.pipeline.timeSpent.nanoseconds ≤ time
  begun : ∀ drive wait, e.value = .waiting drive wait → drive.trial.startedAt = now.elapsed

section Drives

variable {engine : EngineConfig} {id : PipelineId} {now : Moment} {store : Store}
  {r : PipelineRecord} {effect : Effect Progress} {time time' : Nat}

theorem Effect.Spends.after (h : effect.Spends id time now) (notices : List Notice) :
    (effect.after notices).Spends id time now := ⟨h.record, h.begun⟩

theorem Effect.Spends.mono (h : effect.Spends id time now) (hle : time ≤ time') :
    effect.Spends id time' now := by
  obtain ⟨r, hget, hspent⟩ := h.record
  exact ⟨⟨r, hget, Nat.le_trans hspent hle⟩, h.begun⟩

/-- Walking to the next stage adds nothing. -/
theorem Drive.spends_walk (engine : EngineConfig) (now : Moment) (ahead : List Stage)
    (hget : store.get? id = some r) :
    (Drive.walk engine id now ahead store).Spends id r.pipeline.timeSpent.nanoseconds now := by
  induction ahead generalizing store r with
  | nil =>
    have hset := Store.get?_update_self (·.finish id now.instant) hget
    rw [← Drive.store_finish] at hset
    refine ⟨⟨_, hset, (congrArg _ (r.timeSpent_finish id now.instant)).le⟩, ?_⟩
    intro drive wait hvalue
    unfold Drive.walk Drive.finish at hvalue
    split at hvalue <;> cases hvalue
  | cons stage ahead ih =>
    have hset := Store.get?_update_self (·.boundary id stage now.instant) hget
    rw [← Drive.store_visit engine] at hset
    rw [← r.timeSpent_boundary id now.instant stage]
    unfold Drive.walk
    split
    case h_1 hvisit =>
      rw [hvisit] at hset
      refine ⟨⟨_, hset, Nat.le_refl _⟩, ?_⟩
      rintro drive wait rfl
      unfold Drive.visit at hvisit
      split at hvisit <;> cases hvisit
      rfl
    case h_2 hvisit =>
      rw [hvisit] at hset
      exact (ih hset).after _

/-- Handing a result in adds its time, unless the result is thrown away. -/
theorem Drive.spends_settle (engine : EngineConfig) (result : StageResult) (now : Moment)
    (hget : store.get? id = some r) :
    (Drive.settle engine id result now store).Spends id
      (r.pipeline.timeSpent.nanoseconds + result.duration.nanoseconds) now := by
  have hset := Store.get?_update_self (·.addResult id result now.instant) hget
  rw [← Drive.store_handIn] at hset
  have hspent := r.timeSpent_addResult_le id now.instant result
  unfold Drive.settle
  split
  case h_1 hhandIn =>
    rw [hhandIn] at hset
    refine ⟨⟨_, hset, hspent⟩, ?_⟩
    rintro drive wait hvalue
    cases hvalue
  case h_2 hhandIn =>
    rw [hhandIn] at hset
    exact ((Drive.spends_walk engine now _ hset).mono hspent).after _

theorem Engine.spends_start (engine : EngineConfig) (entry : PipelineRecord.Entry) (now : Moment)
    (hget : store.get? id = some r) :
    (Engine.start engine entry id now store).Spends id r.pipeline.timeSpent.nanoseconds now := by
  have hset := Store.get?_update_self (·.start entry id now.instant) hget
  rw [← Engine.store_claim] at hset
  rw [← r.timeSpent_start id now.instant entry]
  unfold Engine.start
  split
  case h_1 hclaim =>
    rw [hclaim] at hset
    refine ⟨⟨_, hset, Nat.le_refl _⟩, ?_⟩
    rintro drive wait hvalue
    cases hvalue
  case h_2 hclaim =>
    rw [hclaim] at hset
    exact (Drive.spends_walk engine now _ hset).after _

/-- The time of a result is counted from the beginning of its stage. -/
theorem Trial.Step.duration_eq {settings : TrialSettings} {t : Trial} {now : Duration}
    {signal : Signal} {result : StageResult} (h : t.Step settings now signal (.finished result)) :
    result.duration.nanoseconds = now.nanoseconds - t.startedAt.nanoseconds := by
  cases h <;> rfl

/-- A stage has begun when its first attempt did. -/
theorem Trial.Step.startedAt_eq {settings : TrialSettings} {t t' : Trial} {now : Duration}
    {signal : Signal} {wait : Wait} (h : t.Step settings now signal (.waiting t' wait)) :
    t'.startedAt = t.startedAt := by
  cases h <;> rfl

end Drives

namespace CommandLine

namespace Session

/-- The clock of what is heard only runs forward, and from the first thing heard to any other it is
a span of time. -/
structure Timely (heard : Nat → Happening × Moment) : Prop where
  monotone : Monotone fun n => (heard n).2.elapsed.nanoseconds
  bounded : ∀ n, (heard n).2.elapsed.nanoseconds <
    (heard 0).2.elapsed.nanoseconds + 2 ^ 64 * 10 ^ 9

/-- The results of a session fit in between two points in time, and if it waits at a stage, they fit
in front of the beginning of the stage. -/
def Timed (since now : Nat) (s : Session) : Prop :=
  ∃ r, s.store.get? s.id = some r ∧ since + r.pipeline.timeSpent.nanoseconds ≤ now ∧
    ∀ drive wait, s.progress = some (.waiting drive wait) →
      since + r.pipeline.timeSpent.nanoseconds ≤ drive.trial.startedAt.nanoseconds

section Timed

variable {config : PipelineConfig} {s : Session} {f : Fleet} {since t time : Nat} {now : Moment}
  {effect : Effect Progress} {heard : Nat → Happening × Moment}

theorem Timed.mono {t' : Nat} (h : s.Timed since t) (hle : t ≤ t') : s.Timed since t' := by
  obtain ⟨r, hget, hspent, hwaiting⟩ := h
  exact ⟨r, hget, Nat.le_trans hspent hle, hwaiting⟩

theorem timed_follow (h : effect.Spends s.id time now)
    (hle : since + time ≤ now.elapsed.nanoseconds) :
    (s.follow effect).1.Timed since now.elapsed.nanoseconds := by
  obtain ⟨r, hget, hspent⟩ := h.record
  have hfits : since + r.pipeline.timeSpent.nanoseconds ≤ now.elapsed.nanoseconds := by omega
  refine ⟨r, hget, hfits, ?_⟩
  intro drive wait hprogress
  rw [h.begun drive wait (Option.some.inj hprogress)]
  exact hfits

/-- A drive that goes on either waits at the same stage, or adds the time from its beginning. -/
theorem Timed.resume (h : s.Timed since t) (hle : t ≤ now.elapsed.nanoseconds) {drive : Drive}
    {wait : Wait} {signal : Signal} (hprogress : s.progress = some (.waiting drive wait))
    (hid : drive.id = s.id) (hresume : drive.resume s.engine signal now s.store = some effect) :
    (s.follow effect).1.Timed since now.elapsed.nanoseconds := by
  obtain ⟨r, hget, hspent, hwaiting⟩ := h
  have hbegun := hwaiting drive wait hprogress
  unfold Drive.resume at hresume
  split at hresume
  · cases hresume
  · rename_i trial next notices htrial
    obtain rfl := Option.some.inj hresume
    refine ⟨r, hget, Nat.le_trans hspent hle, ?_⟩
    intro drive' wait' hprogress'
    obtain ⟨rfl, -⟩ := Progress.waiting.inj (Option.some.inj hprogress')
    rw [(Trial.Step.of_resume htrial).startedAt_eq]
    exact hbegun
  · rename_i result notices htrial
    obtain rfl := Option.some.inj hresume
    have hduration := (Trial.Step.of_resume htrial).duration_eq
    rw [hid]
    exact timed_follow ((Drive.spends_settle s.engine result now hget).after notices) (by omega)

/-- Whatever a session hears, its results fit in front of the time it hears it. -/
theorem Mirrors.timed_next (hmirrors : s.Mirrors config f) (h : s.Timed since t)
    (happening : Happening) (hle : t ≤ now.elapsed.nanoseconds) :
    (s.next happening now).1.Timed since now.elapsed.nanoseconds := by
  have hturn := s.turn happening now fun _ _ => hmirrors.isRest_eq
  generalize (s.next happening now).1 = s' at hturn
  cases hturn with
  | idle line hawaits hinterrupt => exact h.mono hle
  | begun hprogress =>
    obtain ⟨r, hget, hspent, -⟩ := h
    exact timed_follow (Engine.spends_start s.engine _ now hget) (Nat.le_trans hspent hle)
  | ended hprogress hresume =>
    have hcalls := hmirrors.calls
    rw [hprogress] at hcalls
    exact h.resume hle hprogress hcalls.1 hresume
  | interrupt hresult =>
    obtain ⟨r, hget, hspent, hwaiting⟩ := h
    have hset := Store.get?_update_self (·.cancel now.instant) hget
    rw [← Engine.store_cancel] at hset
    exact ⟨_, hset, Nat.le_trans hspent hle, hwaiting⟩

/-- However a session goes on, its results fit in between the first thing it hears and the next
one. -/
theorem Mirrors.timed_after (hmirrors : s.Mirrors config f)
    (h : s.Timed (heard 0).2.elapsed.nanoseconds (heard 0).2.elapsed.nanoseconds)
    (htimely : Timely heard) (n : Nat) :
    (s.after heard n).Timed (heard 0).2.elapsed.nanoseconds (heard n).2.elapsed.nanoseconds := by
  induction n with
  | zero => exact h
  | succ n ih =>
    obtain ⟨es, hlast, -⟩ := hmirrors.exists_after heard n
    exact (hlast.timed_next ih (heard n).1 (Nat.le_refl _)).mono
      (htimely.monotone (Nat.le_succ n))

end Timed

end Session

end CommandLine

end StagedPipeline
