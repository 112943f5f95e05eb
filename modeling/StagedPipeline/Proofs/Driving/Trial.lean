import StagedPipeline.Engine.Attempt

/-!
# What comes of a trial

`Trial.Step` lists what a trial can do on a signal. As long as the attempts stay within the retry
budget, which is an invariant, a counter of 32 bits never wraps around, and the result that ends the
trial is one of two kinds: `StageResult.Succeeded` and `StageResult.Exhausted`.
-/

namespace StagedPipeline

/-- Why an attempt failed that a signal has ended, if it did. -/
def Attempt.failure? (a : Attempt) : Signal → Option AttemptError
  | .answered (.error e) => some (.executor a.stage e)
  | .timedOut => some (.timeout a.stage a.config.stageTimeout)
  | _ => none

/-- The request of an attempt. -/
def Attempt.request (completion : CompletionSettings) (a : Attempt) : CompletionRequest :=
  .ofStage a.stage a.config a.artifacts completion

/-- What is read in an answer. -/
theorem Attempt.fst_read (a : Attempt) (content : String) :
    (a.read content).1 = ⟨content, Artifact.decode? a.stage content⟩ := by
  unfold read Artifact.decode?
  cases Artifact.parse a.stage content <;> rfl

/-- Whether a signal ends a rest, and not an attempt. -/
def Signal.isRested : Signal → Bool
  | rested => true
  | _ => false

/-! ### The two kinds of results -/

/-- The result of a stage whose last attempt succeeded. -/
structure StageResult.Succeeded (budget : UInt32) (result : StageResult) : Prop where
  success : result.success = true
  error : result.error = none
  retryCount : result.retryCount ≤ budget
  artifact : result.artifact = Artifact.decode? result.stage result.output

/-- The result of a stage all of whose attempts failed. -/
structure StageResult.Exhausted (budget : UInt32) (result : StageResult) : Prop where
  success : result.success = false
  output : result.output = ""
  artifact : result.artifact = none
  error : result.error.isSome = true
  retryCount : result.retryCount = budget

namespace Trial

/-- What a trial can do on a signal. -/
inductive Step (settings : TrialSettings) (t : Trial) (now : Duration) : Signal → Progress → Prop
  | succeed {content : String} (hresting : t.resting = false) :
      Step settings t now (.answered (.ok content))
        (.finished (t.success ⟨content, Artifact.decode? t.attempt.stage content⟩ now))
  | exhaust {signal : Signal} {e : AttemptError} (hresting : t.resting = false)
      (hfailure : t.attempt.failure? signal = some e)
      (hspent : t.attempt.config.retryBudget ≤ t.count) :
      Step settings t now signal (.finished (t.failure e now))
  | rest {signal : Signal} {e : AttemptError} (hresting : t.resting = false)
      (hfailure : t.attempt.failure? signal = some e)
      (hleft : t.count < t.attempt.config.retryBudget) :
      Step settings t now signal
        (.waiting { t with resting := true }
          (.rest ((settings.policy t.attempt.config).delay t.count)))
  | again (hresting : t.resting = true) :
      Step settings t now .rested
        (.waiting { t with count := t.count + 1, resting := false }
          (.answer (t.attempt.request settings.completion) t.attempt.config.stageTimeout))

variable {settings : TrialSettings} {t t' : Trial} {now : Duration} {signal : Signal} {wait : Wait}
  {progress : Progress} {result : StageResult} {notices : List Notice}

/-- An attempt ends with an answer, or with a reason why it failed. -/
theorem conclude_eq_some {a : Attempt} {outcome : Except AttemptError StageOutput}
    (h : a.conclude signal = some (outcome, notices)) :
    (∃ content, signal = .answered (.ok content) ∧
      outcome = .ok ⟨content, Artifact.decode? a.stage content⟩) ∨
    ∃ e, a.failure? signal = some e ∧ outcome = .error e := by
  unfold Attempt.conclude at h
  split at h
  · rename_i content
    obtain ⟨houtcome, -⟩ := Prod.mk.inj (Option.some.inj h)
    exact .inl ⟨content, rfl, houtcome.symm.trans (congrArg Except.ok (a.fst_read content))⟩
  · rename_i e
    obtain ⟨houtcome, -⟩ := Prod.mk.inj (Option.some.inj h)
    exact .inr ⟨.executor a.stage e, rfl, houtcome.symm⟩
  · obtain ⟨houtcome, -⟩ := Prod.mk.inj (Option.some.inj h)
    exact .inr ⟨.timeout a.stage a.config.stageTimeout, rfl, houtcome.symm⟩
  · contradiction

/-- Whatever a trial does is one of the steps. -/
theorem Step.of_resume (h : t.resume settings signal now = some (progress, notices)) :
    Step settings t now signal progress := by
  unfold resume at h
  dsimp only at h
  cases hresting : t.resting with
  | true =>
    rw [hresting, if_pos rfl] at h
    split at h
    · obtain ⟨rfl, -⟩ := Prod.mk.inj (Option.some.inj h)
      exact .again hresting
    · contradiction
  | false =>
    rw [hresting, if_neg (by decide)] at h
    cases hconclude : t.attempt.conclude signal with
    | none => simp [hconclude] at h
    | some answer =>
      obtain ⟨outcome, told⟩ := answer
      rw [hconclude] at h
      rcases conclude_eq_some hconclude with ⟨content, rfl, rfl⟩ | ⟨e, hfailure, rfl⟩
      · obtain ⟨rfl, -⟩ := Prod.mk.inj (Option.some.inj h)
        exact .succeed hresting
      · dsimp only at h
        split at h
        · rename_i hallows
          obtain ⟨rfl, -⟩ := Prod.mk.inj (Option.some.inj h)
          exact .rest hresting hfailure (of_decide_eq_true hallows)
        · rename_i hallows
          obtain ⟨rfl, -⟩ := Prod.mk.inj (Option.some.inj h)
          exact .exhaust hresting hfailure
            (UInt32.not_lt.mp fun hlt => hallows (decide_eq_true hlt))

/-- A trial goes on with every signal of the kind it waits for. -/
theorem isSome_resume (settings : TrialSettings) (t : Trial) (now : Duration)
    (h : signal.isRested = t.resting) :
    (t.resume settings signal now).isSome = true := by
  unfold resume
  dsimp only
  cases hresting : t.resting with
  | true =>
    rw [hresting] at h
    cases signal with
    | rested => rfl
    | answered answer => contradiction
    | timedOut => contradiction
  | false =>
    rw [hresting] at h
    rw [if_neg (by decide)]
    cases hconclude : t.attempt.conclude signal with
    | none =>
      cases signal with
      | answered answer => cases answer <;> simp [Attempt.conclude] at hconclude
      | timedOut => simp [Attempt.conclude] at hconclude
      | rested => contradiction
    | some answer =>
      obtain ⟨outcome, told⟩ := answer
      cases outcome with
      | ok output => rfl
      | error e =>
        dsimp only
        split <;> rfl

/-! ### The budget -/

/-- The attempts so far, and the one that comes after a rest, are within the retry budget. -/
structure WithinBudget (t : Trial) : Prop where
  count : t.count ≤ t.attempt.config.retryBudget
  resting : t.resting = true → t.count < t.attempt.config.retryBudget

/-- The next attempt's number is the next number. -/
theorem toNat_count_succ {budget : UInt32} (h : t.count < budget) :
    (t.count + 1).toNat = t.count.toNat + 1 := by
  have hcount : t.count.toNat < budget.toNat := UInt32.lt_iff_toNat_lt.mp h
  have hbudget : budget.toNat < 2 ^ 32 := budget.toNat_lt
  rw [UInt32.toNat_add]
  exact Nat.mod_eq_of_lt (by simp only [UInt32.reduceToNat]; omega)

theorem WithinBudget.of_step (h : Step settings t now signal (.waiting t' wait))
    (ht : t.WithinBudget) : t'.WithinBudget := by
  cases h with
  | rest hresting hfailure hleft => exact ⟨ht.count, fun _ => hleft⟩
  | again hresting =>
    have hlt := ht.resting hresting
    refine ⟨?_, by simp⟩
    rw [UInt32.le_iff_toNat_le, toNat_count_succ hlt]
    exact UInt32.lt_iff_toNat_lt.mp hlt

theorem Step.attempt_eq (h : Step settings t now signal (.waiting t' wait)) :
    t'.attempt = t.attempt := by
  cases h <;> rfl

theorem Step.stage_eq (h : Step settings t now signal (.finished result)) :
    result.stage = t.attempt.stage := by
  cases h <;> rfl

/-- A trial within its budget ends with a result of one of the two kinds. -/
theorem WithinBudget.kind_of_step (h : Step settings t now signal (.finished result))
    (ht : t.WithinBudget) :
    result.Succeeded t.attempt.config.retryBudget ∨
      result.Exhausted t.attempt.config.retryBudget := by
  cases h with
  | succeed hresting => exact .inl ⟨rfl, rfl, ht.count, rfl⟩
  | exhaust hresting hfailure hspent =>
    exact .inr ⟨rfl, rfl, rfl, rfl, UInt32.le_antisymm ht.count hspent⟩

end Trial

end StagedPipeline
