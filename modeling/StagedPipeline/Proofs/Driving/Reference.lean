import Mathlib.Data.ENat.Basic
import Mathlib.Data.List.Basic
import StagedPipeline.Proofs.Driving.Verdict

/-!
# A run without interruptions in closed form

How often the attempts of a stage fail before the first success, `Behaviour.failures`, decides about
everything that a run without interruptions does. The pipeline is stopped at the first stage where
this number exceeds the retry budget (`Behaviour.stop`); the stages in front of it have their first
success as their result, and it has its last failure. `Fleet.uninterrupted_eq_reference` says what
is sent, what is recorded and what is returned.
-/

namespace StagedPipeline

namespace Behaviour

variable {b : Behaviour} {config : PipelineConfig} {stage : Stage} {left n k : Nat}

/-! ### The first success -/

open Classical in
/-- How many attempts of a stage fail before the first one that succeeds. -/
noncomputable def failures (b : Behaviour) (stage : Stage) : ℕ∞ :=
  if h : ∃ n, (b stage n).isText = true then (Nat.find h : ℕ) else ⊤

theorem failures_eq_coe_iff : b.failures stage = n ↔
    (b stage n).isText = true ∧ ∀ m < n, (b stage m).isText = false := by
  unfold failures
  split
  · rename_i h
    rw [ENat.natCast_inj, Nat.find_eq_iff]
    simp only [Bool.not_eq_true]
  · rename_i h
    constructor
    · intro htop
      exact absurd htop (ENat.top_ne_natCast n)
    · rintro ⟨htext, -⟩
      exact absurd ⟨n, htext⟩ h

theorem lt_failures_iff : (n : ℕ∞) < b.failures stage ↔ ∀ m ≤ n, (b stage m).isText = false := by
  unfold failures
  split
  · rename_i h
    rw [ENat.natCast_lt_natCast, Nat.lt_find_iff]
    simp only [Bool.not_eq_true]
  · rename_i h
    simp only [ENat.natCast_lt_top, true_iff]
    intro m _
    exact Bool.eq_false_iff.mpr fun htext => h ⟨m, htext⟩

/-- The attempts up to the first success, if the budget reaches that far. -/
theorem resultFrom_of_first (hk : k ≤ left) (htext : (b stage (n + k)).isText = true)
    (hbefore : ∀ i < k, (b stage (n + i)).isText = false) :
    b.resultFrom config stage left n =
      ⟨stage, true, (b stage (n + k)).content,
        Artifact.decode? stage (b stage (n + k)).content, none, .zero, .ofNat (n + k)⟩ := by
  induction k generalizing left n with
  | zero => exact resultFrom_of_text (Reply.eq_text htext)
  | succ k ih =>
    obtain ⟨left, rfl⟩ : ∃ left', left = left' + 1 := ⟨left - 1, by omega⟩
    have hfirst : (b stage n).isText = false := hbefore 0 (Nat.succ_pos k)
    obtain ⟨e, he⟩ := Reply.exists_error? hfirst stage config
    have hshift : ∀ i, n + 1 + i = n + (i + 1) := fun i => by omega
    rw [resultFrom_succ_of_error he, ih (Nat.le_of_succ_le_succ hk)]
    · rw [hshift]
    · rw [hshift]
      exact htext
    · intro i hi
      rw [hshift]
      exact hbefore (i + 1) (Nat.succ_lt_succ hi)

/-- The attempts up to the end of the budget, if all of them fail. -/
theorem resultFrom_of_failures {e : AttemptError}
    (hall : ∀ i ≤ left, (b stage (n + i)).isText = false)
    (he : (b stage (n + left)).error? stage config = some e) :
    b.resultFrom config stage left n =
      ⟨stage, false, "", none, some e.message, .zero, .ofNat (n + left)⟩ := by
  induction left generalizing n with
  | zero => exact resultFrom_zero_of_error he
  | succ left ih =>
    have hfirst : (b stage n).isText = false := hall 0 (Nat.zero_le _)
    obtain ⟨e', he'⟩ := Reply.exists_error? hfirst stage config
    have hshift : ∀ i, n + 1 + i = n + (i + 1) := fun i => by omega
    rw [resultFrom_succ_of_error he', ih]
    · rw [hshift]
    · intro i hi
      rw [hshift]
      exact hall (i + 1) (Nat.succ_le_succ hi)
    · rw [hshift]
      exact he

/-! ### The reference -/

open Classical in
/-- The first stage whose attempts fail more often than they may be repeated, if there is one. -/
noncomputable def stop (b : Behaviour) (config : PipelineConfig) : Option Stage :=
  Stage.all.find? fun stage => decide ((config.retryBudget.toNat : ℕ∞) < b.failures stage)

/-- The stages in front of that one. -/
noncomputable def passed (b : Behaviour) (config : PipelineConfig) : List Stage :=
  match b.stop config with
  | some stage => stage.before
  | none => Stage.all

/-- The result of a stage at its first success. -/
noncomputable def firstSuccess (b : Behaviour) (stage : Stage) : StageResult :=
  let n := (b.failures stage).toNat
  let content := (b stage n).content
  ⟨stage, true, content, Artifact.decode? stage content, none, .zero, .ofNat n⟩

/-- The result of a stage at the failure of its last attempt. -/
def lastFailure (b : Behaviour) (config : PipelineConfig) (stage : Stage) : StageResult :=
  ⟨stage, false, "", none,
    ((b stage config.retryBudget.toNat).error? stage config).map (·.message), .zero,
    config.retryBudget⟩

/-- The stages that the executor is called for, one after the other. -/
noncomputable def calls (b : Behaviour) (config : PipelineConfig) : List Stage :=
  (b.passed config).flatMap (fun stage => List.replicate ((b.failures stage).toNat + 1) stage) ++
    (b.stop config).toList.flatMap (List.replicate (config.retryBudget.toNat + 1))

theorem result_of_failures_le (h : b.failures stage ≤ config.retryBudget.toNat) :
    b.result config stage = b.firstSuccess stage := by
  obtain ⟨n, hn⟩ := ENat.ne_top_iff_exists.mp (ne_top_of_le_ne_top (ENat.natCast_ne_top _) h)
  obtain ⟨htext, hbefore⟩ := failures_eq_coe_iff.mp hn.symm
  have hle : n ≤ config.retryBudget.toNat := by
    rw [← hn] at h
    exact ENat.natCast_le_natCast.mp h
  have hshift : ∀ i, (b stage (0 + i)).isText = (b stage i).isText := fun i => by rw [Nat.zero_add]
  rw [result, resultFrom_of_first hle ((hshift n).trans htext)
    fun i hi => (hshift i).trans (hbefore i hi)]
  rw [firstSuccess, ← hn, ENat.toNat_natCast, Nat.zero_add]

theorem result_of_lt_failures (h : (config.retryBudget.toNat : ℕ∞) < b.failures stage) :
    b.result config stage = b.lastFailure config stage := by
  have hall := lt_failures_iff.mp h
  obtain ⟨e, he⟩ := Reply.exists_error? (hall _ (Nat.le_refl _)) stage config
  have hshift : ∀ i, (b stage (0 + i)).isText = (b stage i).isText := fun i => by rw [Nat.zero_add]
  rw [result, resultFrom_of_failures (fun i hi => (hshift i).trans (hall i hi))
    (by rw [Nat.zero_add]; exact he)]
  rw [lastFailure, he, Option.map_some, Nat.zero_add, UInt32.ofNat_toNat]

theorem toNat_retryCount_firstSuccess (h : b.failures stage ≤ config.retryBudget.toNat) :
    (b.firstSuccess stage).retryCount.toNat = (b.failures stage).toNat := by
  have hle : (b.failures stage).toNat ≤ config.retryBudget.toNat := ENat.toNat_le_of_le_natCast h
  exact UInt32.toNat_ofNat_of_lt (Nat.lt_of_le_of_lt hle config.retryBudget.toNat_lt)

theorem failures_le_of_stop_eq_none (h : b.stop config = none) (stage : Stage) :
    b.failures stage ≤ config.retryBudget.toNat := by
  have hfind := List.find?_eq_none.mp h stage stage.mem_all
  simpa using hfind

/-- A pipeline is stopped at the first stage whose attempts fail too often. -/
theorem failures_of_stop_eq_some (h : b.stop config = some stage) :
    (config.retryBudget.toNat : ℕ∞) < b.failures stage ∧
      ∀ s ∈ stage.before, b.failures s ≤ config.retryBudget.toNat := by
  obtain ⟨hstage, front, rest, hall, hfront⟩ := List.find?_eq_some_iff_append.mp h
  have hindex : stage.index = front.length := by
    rw [← Stage.getElem?_all_eq_some_iff, hall, List.getElem?_append_right (Nat.le_refl _),
      Nat.sub_self, List.getElem?_cons_zero]
  have hbefore : stage.before = front := by
    rw [Stage.before, hindex, hall, List.take_left]
  refine ⟨of_decide_eq_true hstage, ?_⟩
  intro s hs
  have hs' := hfront s (hbefore ▸ hs)
  simpa using hs'

theorem map_result_eq {stages : List Stage}
    (h : ∀ stage ∈ stages, b.failures stage ≤ config.retryBudget.toNat) :
    stages.map (b.result config) = stages.map b.firstSuccess :=
  List.map_congr_left fun stage hstage => result_of_failures_le (h stage hstage)

theorem success_result {stages : List Stage}
    (h : ∀ stage ∈ stages, b.failures stage ≤ config.retryBudget.toNat) :
    ∀ stage ∈ stages, (b.result config stage).success = true := by
  intro stage hstage
  rw [result_of_failures_le (h stage hstage)]
  rfl

/-- The attempts of the stages that are passed fail at most as often as they may be repeated. -/
theorem failures_le_of_mem_passed (h : stage ∈ b.passed config) :
    b.failures stage ≤ config.retryBudget.toNat := by
  unfold passed at h
  split at h
  · rename_i hstop
    exact (failures_of_stop_eq_some hstop).2 stage h
  · rename_i hstop
    exact failures_le_of_stop_eq_none hstop stage

/-- The results of a pipeline in closed form. -/
theorem results_all_eq (b : Behaviour) (config : PipelineConfig) :
    b.results config Stage.all =
      (b.passed config).map b.firstSuccess ++
        (b.stop config).toList.map (b.lastFailure config) := by
  have hpassed : ∀ stage ∈ b.passed config, b.failures stage ≤ config.retryBudget.toNat :=
    fun stage => failures_le_of_mem_passed
  cases hstop : b.stop config with
  | none =>
    have hall : b.passed config = Stage.all := by rw [passed, hstop]
    have happend := b.results_append [] (success_result hpassed)
    rw [List.append_nil, hall] at happend
    rw [happend, hall, map_result_eq fun stage _ => failures_le_of_stop_eq_none hstop stage]
    rfl
  | some stage =>
    have hbefore : b.passed config = stage.before := by rw [passed, hstop]
    have hall : Stage.all = stage.before ++ stage :: stage.after := by
      rw [Stage.before, ← Stage.drop_eq_cons_iff.mpr ⟨rfl, rfl⟩, List.take_append_drop]
    rw [hbefore] at hpassed ⊢
    have hlast := result_of_lt_failures (failures_of_stop_eq_some hstop).1
    rw [hall, b.results_append _ (success_result hpassed), map_result_eq hpassed,
      b.results_cons_of_failure _ (by rw [hlast]; rfl), hlast]
    rfl

/-! ### What is sent and what it comes to -/

theorem map_fst_requests (engine : EngineConfig) (b : Behaviour) (config : PipelineConfig) :
    (b.requests engine config).map Prod.fst = b.calls config := by
  rw [requests, map_fst_sentFor, results_all_eq, List.flatMap_append, List.flatMap_map,
    List.flatMap_map, calls]
  congr 1
  refine List.flatMap_congr ?_
  intro stage hstage
  rw [toNat_retryCount_firstSuccess (failures_le_of_mem_passed hstage)]
  rfl

theorem map_stage_firstSuccess (b : Behaviour) (stages : List Stage) :
    (stages.map b.firstSuccess).map (·.stage) = stages := by
  rw [List.map_map]
  exact List.map_id stages

theorem success_firstSuccess (b : Behaviour) (stages : List Stage) :
    ∀ x ∈ stages.map b.firstSuccess, x.success = true :=
  List.forall_mem_map.mpr fun _ _ => rfl

/-- A pipeline that is not stopped is completed. -/
theorem outcome_of_stop_eq_none (h : b.stop config = none) :
    (b.outcome config).status = .completed ∧ (b.outcome config).completed = Stage.all := by
  have hpassed : b.passed config = Stage.all := by rw [passed, h]
  have hresults := b.results_all_eq config
  rw [h, hpassed, Option.toList_none, List.map_nil, List.append_nil] at hresults
  rw [outcome_of_success hresults (b.success_firstSuccess _), map_stage_firstSuccess]
  exact ⟨rfl, rfl⟩

/-- A pipeline that is stopped has completed the stages in front. -/
theorem outcome_of_stop_eq_some (h : b.stop config = some stage) :
    (b.outcome config).status = .failed ∧ (b.outcome config).completed = stage.before := by
  have hpassed : b.passed config = stage.before := by rw [passed, h]
  have hresults := b.results_all_eq config
  rw [h, hpassed, Option.toList_some, List.map_singleton] at hresults
  rw [outcome_of_failure hresults (b.success_firstSuccess _) rfl, map_stage_firstSuccess]
  exact ⟨rfl, rfl⟩

end Behaviour

namespace Fleet

variable {config : PipelineConfig}

/-- **A run without interruptions.** With a budget of `B` retries, a stage whose attempts fail `f`
times before the first success is called for `f + 1` times and has that success as its result, as
long as `f` is at most `B`. At the first stage where it is more, the pipeline is stopped: the stage
is called for `B + 1` times and has its last failure as its result, no stage behind it is called
for, and the failure is returned. If there is no such stage, the completed pipeline is returned. -/
theorem uninterrupted_eq_reference (engine : EngineConfig) (b : Behaviour) (id : PipelineId)
    (now : Moment) (haccepted : config.refusal? = none) :
    ∃ k, ∀ nows : List Moment, k ≤ nows.length →
      ∃ r, (initial.run engine (uninterrupted engine b id config now nows)).store.get? id = some r ∧
        (requestsFor id (initial.emitted engine
          (uninterrupted engine b id config now nows))).map Prod.fst = b.calls config ∧
        r.pipeline.results.map (·.timeless) =
          (b.passed config).map b.firstSuccess ++
            (b.stop config).toList.map (b.lastFailure config) ∧
        (b.stop config = none →
          (initial.run engine (uninterrupted engine b id config now nows)).calls[0]? =
            some ⟨id, .returned (.ok r.pipeline)⟩ ∧
          r.pipeline.status = .completed ∧ r.pipeline.progress = 100 ∧
          r.pipeline.completed = Stage.all) ∧
        ∀ stage, b.stop config = some stage → ∃ e,
          (b stage config.retryBudget.toNat).error? stage config = some e ∧
          (initial.run engine (uninterrupted engine b id config now nows)).calls[0]? =
            some ⟨id, .returned (.error (.stageFailed stage config.retryBudget e.message))⟩ ∧
          r.pipeline.status = .failed ∧ r.pipeline.completed = stage.before := by
  obtain ⟨k, hend⟩ := exists_end_of_uninterrupted engine b id now haccepted
  refine ⟨k, fun nows hlong => ?_⟩
  obtain ⟨r, result, ⟨hcalls, hget, -, hregular, hconfirms, houtcome⟩, hrequests⟩ := hend nows hlong
  have hreturned : (initial.run engine (uninterrupted engine b id config now nows)).calls[0]? =
      some ⟨id, .returned result⟩ := by rw [hcalls]; rfl
  have hresults : r.pipeline.results.map (·.timeless) = b.results config Stage.all :=
    congrArg Outcome.results houtcome
  rw [Behaviour.results_all_eq] at hresults
  have hstatus : r.pipeline.status = (b.outcome config).status := congrArg Outcome.status houtcome
  have hcompleted : r.pipeline.completed = (b.outcome config).completed :=
    congrArg Outcome.completed houtcome
  refine ⟨r, hget, ?_, hresults, ?_, ?_⟩
  · rw [hrequests, Behaviour.map_fst_requests]
  · intro hstop
    obtain ⟨hstatus', hcompleted'⟩ := Behaviour.outcome_of_stop_eq_none hstop
    rw [hstatus'] at hstatus
    rw [hcompleted'] at hcompleted
    refine ⟨?_, hstatus, ?_, hcompleted⟩
    · rw [hreturned, hconfirms.eq_ok hregular hstatus]
    · rw [Pipeline.progress_eq hregular.length_completed_le, hcompleted]
      rfl
  · intro stage hstop
    obtain ⟨hstatus', hcompleted'⟩ := Behaviour.outcome_of_stop_eq_some hstop
    rw [hstatus'] at hstatus
    rw [hcompleted'] at hcompleted
    obtain ⟨e, he⟩ := Reply.exists_error?
      (Behaviour.lt_failures_iff.mp (Behaviour.failures_of_stop_eq_some hstop).1 _ (Nat.le_refl _))
      stage config
    refine ⟨e, he, ?_, hstatus, hcompleted⟩
    rw [hstop, Option.toList_some, List.map_singleton] at hresults
    obtain ⟨done, last, hsplit, -, hlast⟩ := List.map_eq_append_iff.mp hresults
    obtain ⟨x, rfl, hx⟩ := List.map_eq_singleton_iff.mp hlast
    have hstage : x.stage = stage := congrArg StageResult.stage hx
    have hcount : x.retryCount = config.retryBudget := congrArg StageResult.retryCount hx
    have herror : x.error = some e.message := by
      have hx' : x.error =
          ((b stage config.retryBudget.toNat).error? stage config).map (·.message) :=
        congrArg StageResult.error hx
      rw [hx', he, Option.map_some]
    rw [hreturned, hconfirms.eq_error hstatus hsplit, hstage, hcount, herror, Option.getD_some]

theorem failures_withoutDesign {stage : Stage} (h : stage ≠ .design) :
    withoutDesign.failures stage = (0 : ℕ) := by
  rw [Behaviour.failures_eq_coe_iff]
  refine ⟨?_, fun m hm => absurd hm (Nat.not_lt_zero m)⟩
  rw [withoutDesign, if_neg h]
  rfl

theorem stop_withoutDesign : withoutDesign.stop singleAttempt = some .design := by
  have hdesign : (singleAttempt.retryBudget.toNat : ℕ∞) < withoutDesign.failures .design :=
    Behaviour.lt_failures_iff.mpr fun _ _ => rfl
  have hrequirements := failures_withoutDesign (by decide : Stage.requirements ≠ .design)
  rw [Behaviour.stop, Stage.all, List.find?_cons_of_neg, List.find?_cons_of_pos]
  · exact decide_eq_true hdesign
  · rw [hrequirements]
    simp

/-- Without an answer for the design, a pipeline without retries is called for twice, and returns
the failure of the design. -/
theorem reference_of_withoutDesign :
    singleAttempt.refusal? = none ∧
      ∃ k, ∀ nows : List Moment, k ≤ nows.length →
        (requestsFor (.ofNat 1) (initial.emitted .initial (uninterrupted .initial withoutDesign
          (.ofNat 1) singleAttempt ⟨.zero, ⟨0, 0⟩⟩ nows))).map Prod.fst = [.requirements, .design] ∧
        ∃ r e, (initial.run .initial (uninterrupted .initial withoutDesign (.ofNat 1) singleAttempt
            ⟨.zero, ⟨0, 0⟩⟩ nows)).store.get? (.ofNat 1) = some r ∧
          r.pipeline.results.map (·.retryCount) = [0, 0] ∧
          (initial.run .initial (uninterrupted .initial withoutDesign (.ofNat 1) singleAttempt
            ⟨.zero, ⟨0, 0⟩⟩ nows)).calls[0]? =
              some ⟨.ofNat 1, .returned (.error (.stageFailed .design 0 e))⟩ ∧
          r.pipeline.completed = [.requirements] := by
  refine ⟨rfl, ?_⟩
  obtain ⟨k, hreference⟩ := uninterrupted_eq_reference .initial withoutDesign (.ofNat 1)
    ⟨.zero, ⟨0, 0⟩⟩ (rfl : singleAttempt.refusal? = none)
  refine ⟨k, fun nows hlong => ?_⟩
  obtain ⟨r, hget, hcalls, hresults, -, hstopped⟩ := hreference nows hlong
  obtain ⟨e, -, hreturned, -, hcompleted⟩ := hstopped .design stop_withoutDesign
  have hpassed : withoutDesign.passed singleAttempt = [.requirements] := by
    rw [Behaviour.passed, stop_withoutDesign]
    rfl
  have hfailures := failures_withoutDesign (by decide : Stage.requirements ≠ .design)
  refine ⟨?_, r, e.message, hget, ?_, hreturned, hcompleted⟩
  · rw [hcalls, Behaviour.calls, hpassed, stop_withoutDesign, List.flatMap_singleton, hfailures]
    rfl
  · have hcounts := congrArg (List.map (·.retryCount)) hresults
    rw [List.map_map, hpassed, stop_withoutDesign] at hcounts
    rw [show r.pipeline.results.map (·.retryCount) =
      r.pipeline.results.map ((·.retryCount) ∘ (·.timeless)) from rfl, hcounts]
    simp [Behaviour.firstSuccess, Behaviour.lastFailure, hfailures]
    rfl

end Fleet

end StagedPipeline
