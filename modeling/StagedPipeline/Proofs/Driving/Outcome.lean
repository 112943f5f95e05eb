import StagedPipeline.Proofs.Driving.Pursuit
import StagedPipeline.Proofs.Driving.Regularity

/-!
# What an executor makes of a pipeline

If the answers of an executor depend only on the stage and on the number of the attempt, then so
does what comes of a stage: `Behaviour.result` is its result, up to the time it takes, and
`Behaviour.outcome` is what the whole pipeline comes to. A trial that hears these answers has that
result in prospect from its first attempt to its last.
-/

namespace StagedPipeline

/-- A result without the time it took. -/
def StageResult.timeless (x : StageResult) : StageResult :=
  { x with duration := .zero }

/-- Why an attempt fails, if it does. -/
def Reply.error? (stage : Stage) (config : PipelineConfig) : Reply → Option AttemptError
  | text _ => none
  | error e => some (.executor stage e)
  | silence => some (.timeout stage config.stageTimeout)

/-- Whether an attempt succeeds. -/
def Reply.isText : Reply → Bool
  | text _ => true
  | _ => false

/-- What a successful attempt yields. -/
def Reply.content : Reply → String
  | text content => content
  | _ => ""

theorem Reply.eq_text {reply : Reply} (h : reply.isText = true) : reply = .text reply.content := by
  cases reply with
  | text content => rfl
  | _ => contradiction

theorem Reply.exists_error? {reply : Reply} (h : reply.isText = false) (stage : Stage)
    (config : PipelineConfig) : ∃ e, reply.error? stage config = some e := by
  cases reply with
  | text content => contradiction
  | error e => exact ⟨_, rfl⟩
  | silence => exact ⟨_, rfl⟩

theorem Attempt.failure?_signal (a : Attempt) (reply : Reply) :
    a.failure? reply.signal = reply.error? a.stage a.config := by
  cases reply <;> rfl

theorem Reply.eq_text_of_signal {reply : Reply} {content : String}
    (h : reply.signal = .answered (.ok content)) : reply = .text content := by
  cases reply with
  | text content' => exact congrArg text (Except.ok.inj (Signal.answered.inj h))
  | error e => cases Signal.answered.inj h
  | silence => contradiction

namespace Behaviour

variable {b : Behaviour} {config : PipelineConfig} {stage : Stage} {left n : Nat}

/-- What comes of a stage from one attempt on, if so many more may follow it. -/
def resultFrom (b : Behaviour) (config : PipelineConfig) (stage : Stage) :
    (left n : Nat) → StageResult
  | 0, n =>
    match b stage n with
    | .text content => ⟨stage, true, content, Artifact.decode? stage content, none, .zero, .ofNat n⟩
    | reply =>
      ⟨stage, false, "", none, (reply.error? stage config).map (·.message), .zero, .ofNat n⟩
  | left + 1, n =>
    match b stage n with
    | .text content => ⟨stage, true, content, Artifact.decode? stage content, none, .zero, .ofNat n⟩
    | _ => resultFrom b config stage left (n + 1)

/-- What comes of a stage. -/
def result (b : Behaviour) (config : PipelineConfig) (stage : Stage) : StageResult :=
  b.resultFrom config stage config.retryBudget.toNat 0

theorem resultFrom_of_text {content : String} (h : b stage n = .text content) :
    b.resultFrom config stage left n =
      ⟨stage, true, content, Artifact.decode? stage content, none, .zero, .ofNat n⟩ := by
  cases left <;> simp only [resultFrom, h]

theorem resultFrom_zero_of_error {e : AttemptError} (h : (b stage n).error? stage config = some e) :
    b.resultFrom config stage 0 n =
      ⟨stage, false, "", none, some e.message, .zero, .ofNat n⟩ := by
  unfold resultFrom
  cases hreply : b stage n with
  | text content => simp [hreply, Reply.error?] at h
  | error e' =>
    rw [hreply] at h
    simp only [h, Option.map_some]
  | silence =>
    rw [hreply] at h
    simp only [h, Option.map_some]

theorem resultFrom_succ_of_error {e : AttemptError} (h : (b stage n).error? stage config = some e) :
    b.resultFrom config stage (left + 1) n = b.resultFrom config stage left (n + 1) := by
  rw [resultFrom]
  cases hreply : b stage n with
  | text content => simp [hreply, Reply.error?] at h
  | error e' => rfl
  | silence => rfl

/-- What comes of some stages one after the other, up to the first one that fails. -/
def results (b : Behaviour) (config : PipelineConfig) : List Stage → List StageResult
  | [] => []
  | stage :: rest =>
    if (b.result config stage).success then b.result config stage :: results b config rest
    else [b.result config stage]

theorem results_append {stages : List Stage} (rest : List Stage)
    (h : ∀ stage ∈ stages, (b.result config stage).success = true) :
    b.results config (stages ++ rest) =
      stages.map (b.result config) ++ b.results config rest := by
  induction stages with
  | nil => rfl
  | cons stage stages ih =>
    rw [List.cons_append, results, if_pos (h stage List.mem_cons_self),
      ih fun s hs => h s (List.mem_cons_of_mem _ hs), List.map_cons, List.cons_append]

theorem results_cons_of_failure (rest : List Stage)
    (h : (b.result config stage).success = false) :
    b.results config (stage :: rest) = [b.result config stage] := by
  rw [results, if_neg (by simp [h])]

end Behaviour

/-! ### Trials -/

namespace Trial

variable {settings : TrialSettings} {b : Behaviour} {t t' : Trial} {now : Duration}
  {signal : Signal} {wait : Wait} {progress : Progress} {result : StageResult}

/-- What will come of a trial. -/
def prospect (b : Behaviour) (t : Trial) : StageResult :=
  if t.resting then
    b.resultFrom t.attempt.config t.attempt.stage
      (t.attempt.config.retryBudget.toNat - (t.count.toNat + 1)) (t.count.toNat + 1)
  else
    b.resultFrom t.attempt.config t.attempt.stage
      (t.attempt.config.retryBudget.toNat - t.count.toNat) t.count.toNat

theorem prospect_of_resting (h : t.resting = true) :
    t.prospect b = b.resultFrom t.attempt.config t.attempt.stage
      (t.attempt.config.retryBudget.toNat - (t.count.toNat + 1)) (t.count.toNat + 1) := by
  rw [prospect, if_pos h]

theorem prospect_of_not_resting (h : t.resting = false) :
    t.prospect b = b.resultFrom t.attempt.config t.attempt.stage
      (t.attempt.config.retryBudget.toNat - t.count.toNat) t.count.toNat := by
  rw [prospect, if_neg (by simp [h])]

theorem Step.isRested_eq (h : Step settings t now signal progress) :
    signal.isRested = t.resting := by
  have hfailure : ∀ e, t.attempt.failure? signal = some e → signal.isRested = false := by
    intro e he
    cases signal with
    | rested => simp [Attempt.failure?] at he
    | _ => rfl
  cases h with
  | succeed hresting => exact hresting.symm
  | exhaust hresting he hspent => rw [hresting, hfailure _ he]
  | rest hresting he hleft => rw [hresting, hfailure _ he]
  | again hresting => exact hresting.symm

/-- The failure that a trial hears of is that of the present attempt. -/
theorem error?_of_due {e : AttemptError} (hresting : t.resting = false)
    (h : t.attempt.failure? (t.due b) = some e) :
    (b t.attempt.stage t.count.toNat).error? t.attempt.stage t.attempt.config = some e := by
  rwa [due, if_neg (by simp [hresting]), Attempt.failure?_signal] at h

/-- A trial that goes on has the same result in prospect. -/
theorem Step.prospect_eq (h : Step settings t now (t.due b) (.waiting t' wait))
    (ht : t.WithinBudget) : t'.prospect b = t.prospect b := by
  generalize hsignal : t.due b = signal at h
  cases h with
  | rest hresting hfailure hleft =>
    have hlt : t.count.toNat < t.attempt.config.retryBudget.toNat :=
      UInt32.lt_iff_toNat_lt.mp hleft
    have hleft' : t.attempt.config.retryBudget.toNat - t.count.toNat =
        t.attempt.config.retryBudget.toNat - (t.count.toNat + 1) + 1 := by omega
    rw [prospect_of_resting rfl, prospect_of_not_resting hresting, hleft',
      Behaviour.resultFrom_succ_of_error (error?_of_due hresting (hsignal ▸ hfailure))]
  | again hresting =>
    have hcount := toNat_count_succ (ht.resting hresting)
    rw [prospect_of_resting hresting, prospect_of_not_resting rfl]
    simp only [hcount]

/-- A trial ends with the result that it had in prospect. -/
theorem Step.timeless_eq (h : Step settings t now (t.due b) (.finished result))
    (ht : t.WithinBudget) : result.timeless = t.prospect b := by
  generalize hsignal : t.due b = signal at h
  cases h with
  | succeed hresting =>
    rw [due, if_neg (by simp [hresting])] at hsignal
    rw [prospect_of_not_resting hresting,
      Behaviour.resultFrom_of_text (Reply.eq_text_of_signal hsignal)]
    simp [success, StageResult.timeless]
  | exhaust hresting hfailure hspent =>
    have hcount : t.count = t.attempt.config.retryBudget := UInt32.le_antisymm ht.count hspent
    rw [prospect_of_not_resting hresting, ← hcount, Nat.sub_self,
      Behaviour.resultFrom_zero_of_error (error?_of_due hresting (hsignal ▸ hfailure))]
    simp [failure, StageResult.timeless]

end Trial

/-! ### Pipelines -/

/-- What a pipeline has come to. Times are left out. -/
structure Outcome where
  status : Status
  completed : List Stage
  current : Option Stage
  artifacts : ArtifactSet
  results : List StageResult

/-- What a pipeline has come to. -/
def Pipeline.outcome (p : Pipeline) : Outcome :=
  ⟨p.status, p.completed, p.current, p.artifacts, p.results.map (·.timeless)⟩

namespace ArtifactSet

/-- Adds the artifact of a successful result, unless there is one already. -/
def takeOver (s : ArtifactSet) (x : StageResult) : ArtifactSet :=
  if x.success then
    match x.artifact with
    | some a => (s.insert a).1
    | none => s
  else s

theorem takeOver_of_success (s : ArtifactSet) {x : StageResult} (h : x.success = true) :
    s.takeOver x =
      match x.artifact with
      | some a => (s.insert a).1
      | none => s :=
  if_pos h

theorem takeOver_of_failure (s : ArtifactSet) {x : StageResult} (h : x.success = false) :
    s.takeOver x = s :=
  if_neg (by simp [h])

/-- The artifacts of some results. -/
def gather (xs : List StageResult) : ArtifactSet :=
  xs.foldl takeOver empty

theorem gather_append_singleton (xs : List StageResult) (x : StageResult) :
    gather (xs ++ [x]) = (gather xs).takeOver x := by
  rw [gather, List.foldl_append]
  rfl

theorem gather_map_timeless (xs : List StageResult) :
    gather (xs.map (·.timeless)) = gather xs := by
  rw [gather, List.foldl_map]
  rfl

end ArtifactSet

/-- What an executor makes of a pipeline: the stages are completed up to the first one that
fails. -/
def Behaviour.outcome (b : Behaviour) (config : PipelineConfig) : Outcome :=
  let results := b.results config Stage.all
  let failed := results.find? (!·.success)
  ⟨if failed.isSome then .failed else .completed, (results.filter (·.success)).map (·.stage),
    failed.map (·.stage), .gather results, results⟩

theorem Behaviour.outcome_of_success {b : Behaviour} {config : PipelineConfig}
    {xs : List StageResult} (hxs : b.results config Stage.all = xs)
    (hsuccess : ∀ x ∈ xs, x.success = true) :
    b.outcome config = ⟨.completed, xs.map (·.stage), none, .gather xs, xs⟩ := by
  have hfind : xs.find? (!·.success) = none := by
    rw [List.find?_eq_none]
    intro x hx
    simp [hsuccess x hx]
  simp only [outcome, hxs, hfind, Option.isSome_none, Option.map_none, Bool.false_eq_true, if_false]
  rw [List.filter_eq_self.mpr hsuccess]

theorem Behaviour.outcome_of_failure {b : Behaviour} {config : PipelineConfig}
    {xs : List StageResult} {x : StageResult} (hxs : b.results config Stage.all = xs ++ [x])
    (hsuccess : ∀ y ∈ xs, y.success = true) (hfailure : x.success = false) :
    b.outcome config =
      ⟨.failed, xs.map (·.stage), some x.stage, .gather (xs ++ [x]), xs ++ [x]⟩ := by
  have hfind : (xs ++ [x]).find? (!·.success) = some x := by
    rw [List.find?_append, List.find?_eq_none.mpr fun y hy => by simp [hsuccess y hy]]
    simp [hfailure]
  simp only [outcome, hxs, hfind, Option.isSome_some, Option.map_some, if_true]
  rw [List.filter_append, List.filter_eq_self.mpr hsuccess,
    List.filter_cons_of_neg (by simp [hfailure]), List.filter_nil, List.append_nil]

namespace PipelineRecord

variable {b : Behaviour} {r : PipelineRecord}

/-- The results are those that an executor makes, and a stage that failed is the only reason for the
pipeline to have failed. -/
structure Faithful (b : Behaviour) (r : PipelineRecord) : Prop where
  results : ∀ x ∈ r.pipeline.results, x.timeless = b.result r.config x.stage
  failed : r.pipeline.status = .failed → ∃ x ∈ r.pipeline.results, x.success = false
  artifacts : r.pipeline.artifacts = .gather r.pipeline.results

theorem Faithful.map_timeless (h : r.Faithful b) {xs : List StageResult}
    (hxs : ∀ x ∈ xs, x ∈ r.pipeline.results) :
    xs.map (·.timeless) = (xs.map (·.stage)).map (b.result r.config) := by
  rw [List.map_map]
  exact List.map_congr_left fun x hx => h.results x (hxs x hx)

theorem Faithful.success_result (h : r.Faithful b) {xs : List StageResult}
    (hxs : ∀ x ∈ xs, x ∈ r.pipeline.results) (hsuccess : ∀ x ∈ xs, x.success = true) :
    ∀ stage ∈ xs.map (·.stage), (b.result r.config stage).success = true := by
  intro stage hstage
  obtain ⟨x, hx, rfl⟩ := List.mem_map.mp hstage
  rw [← h.results x (hxs x hx)]
  exact hsuccess x hx

/-- A pipeline that fails does so with the result of a stage. -/
theorem Faithful.exists_last (hr : r.Regular) (h : r.Faithful b)
    (hfailed : r.pipeline.status = .failed) :
    ∃ done x, r.pipeline.results = done ++ [x] ∧
      done.map (·.stage) = r.pipeline.completed ∧ (∀ y ∈ done, y.success = true) ∧
      x.success = false ∧ x.stage.index = r.pipeline.completed.length ∧
      r.pipeline.current = some x.stage ∧ r.driven = false := by
  obtain ⟨done, last, hresults, hdone, hsucceeded, hlast⟩ := hr.results
  cases last with
  | none =>
    obtain ⟨x, hx, hsuccess⟩ := h.failed hfailed
    rw [hresults, Option.toList_none, List.append_nil] at hx
    simp [(hsucceeded x hx).success] at hsuccess
  | some x =>
    obtain ⟨hexhausted, hindex, hcurrent, -, hdriven⟩ := hlast x rfl
    exact ⟨done, x, hresults, hdone, fun y hy => (hsucceeded y hy).success, hexhausted.success,
      hindex, hcurrent, hdriven⟩

/-- A pipeline that has come to its end has no driver. -/
theorem Faithful.not_driven (hr : r.Regular) (h : r.Faithful b) (hconsistent : r.Consistent)
    (hterminal : r.pipeline.status.isTerminal = true) : r.driven = false := by
  cases hstatus : r.pipeline.status with
  | completed => exact hconsistent.2 (.inr hstatus)
  | failed =>
    obtain ⟨done, x, -, -, -, -, -, -, hdriven⟩ := h.exists_last hr hstatus
    exact hdriven
  | _ => simp [hstatus, Status.isTerminal] at hterminal

/-- A pipeline that has come to its end has come to what the executor makes of it. -/
theorem Faithful.outcome_eq (hr : r.Regular) (h : r.Faithful b)
    (hterminal : r.pipeline.status.isTerminal = true) :
    r.pipeline.outcome = b.outcome r.config := by
  cases hstatus : r.pipeline.status with
  | completed =>
    have hfailed : r.pipeline.status ≠ .failed := by simp [hstatus]
    obtain ⟨hdone, hsucceeded⟩ := hr.results_of_ne_failed hfailed
    obtain ⟨hcompleted, hcurrent⟩ := hr.finished hstatus
    have hsuccess : ∀ x ∈ r.pipeline.results, x.success = true :=
      fun x hx => (hsucceeded x hx).success
    have hresults : b.results r.config Stage.all = r.pipeline.results.map (·.timeless) := by
      have hall := b.results_append [] (h.success_result (fun _ hx => hx) hsuccess)
      rw [hdone, hcompleted, List.append_nil] at hall
      rw [hall, h.map_timeless fun _ hx => hx, hdone, hcompleted, Behaviour.results,
        List.append_nil]
    rw [Behaviour.outcome_of_success hresults (List.forall_mem_map.mpr hsuccess), Pipeline.outcome,
      ArtifactSet.gather_map_timeless, ← h.artifacts, hstatus, hcurrent, List.map_map]
    simp only [Outcome.mk.injEq, true_and, and_true]
    exact hdone.symm
  | failed =>
    obtain ⟨done, x, hsplit, hdone, hsuccess, hfailure, hindex, hcurrent, -⟩ :=
      h.exists_last hr hstatus
    have hmem : ∀ y ∈ done, y ∈ r.pipeline.results :=
      fun y hy => hsplit ▸ List.mem_append_left _ hy
    have hx : x.timeless = b.result r.config x.stage := h.results x (by simp [hsplit])
    have hall : Stage.all = done.map (·.stage) ++ x.stage :: x.stage.after := by
      rw [hdone, hr.completed, ← hindex, ← Stage.drop_eq_cons_iff.mpr ⟨rfl, rfl⟩,
        List.take_append_drop]
    have hresults : b.results r.config Stage.all = done.map (·.timeless) ++ [x.timeless] := by
      rw [hall, b.results_append _ (h.success_result hmem hsuccess),
        b.results_cons_of_failure _ (hx ▸ hfailure), ← h.map_timeless hmem, hx]
    rw [Behaviour.outcome_of_failure hresults (List.forall_mem_map.mpr hsuccess) hfailure,
      ← List.map_singleton, ← List.map_append, ← hsplit, Pipeline.outcome,
      ArtifactSet.gather_map_timeless, ← h.artifacts, hstatus, hcurrent, List.map_map]
    simp only [Outcome.mk.injEq, true_and, and_true]
    exact ⟨hdone.symm, rfl⟩
  | _ => simp [hstatus, Status.isTerminal] at hterminal

end PipelineRecord

end StagedPipeline
