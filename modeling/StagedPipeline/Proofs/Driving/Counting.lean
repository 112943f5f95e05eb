import Mathlib.Data.List.Induction
import StagedPipeline.Proofs.Driving.Attempts

/-!
# The numbers a trial tells

A trial counts its attempts in a word of 32 bits, from zero, and tells numbers that are one more:
the number of an attempt that will be repeated, and how many attempts there were when the retries
are used up. A `Trial.Course` is a trial with all that it has told after some signals. The
repetitions are numbered 1, 2, 3 and so on (`Trial.Course.Counted.repetitions`): an attempt is only
repeated below the retry budget, so neither its number nor the next count exceeds 32 bits. The last
attempt has no such bound, and with the largest budget there is, the number of attempts does.
-/

namespace StagedPipeline

namespace Notice

/-- The number of an attempt that will be repeated. -/
def repeated? : Notice → Option UInt32
  | retrying _ attempt _ _ => some attempt
  | _ => none

/-- The number of attempts when the retries are used up. -/
def exhausted? : Notice → Option UInt32
  | exhausted _ attempts _ => some attempts
  | _ => none

end Notice

namespace Trial

/-! ### What is told at a signal -/

/-- The number that is told of an attempt when a trial comes so far: the one it rests after. -/
def Progress.repetitions (t : Trial) : Progress → List UInt32
  | waiting t' _ => if t'.resting then [t.count + 1] else []
  | finished _ => []

/-- The number of attempts that is told when a trial comes so far: all of them failed. -/
def Progress.exhaustions (t : Trial) : Progress → List UInt32
  | waiting _ _ => []
  | finished result => if result.success then [] else [t.count + 1]

variable {settings : TrialSettings} {t t' : Trial} {now : Duration} {signal : Signal} {wait : Wait}
  {progress : Progress} {result : StageResult} {notices : List Notice}

/-- No number is told when an answer is read. -/
theorem numbers_of_read (a : Attempt) (content : String) :
    (a.read content).2.filterMap Notice.repeated? = [] ∧
      (a.read content).2.filterMap Notice.exhausted? = [] := by
  unfold Attempt.read
  split <;> exact ⟨rfl, rfl⟩

theorem numbers_of_conclude {a : Attempt} {outcome : Except AttemptError StageOutput}
    (h : a.conclude signal = some (outcome, notices)) :
    notices.filterMap Notice.repeated? = [] ∧ notices.filterMap Notice.exhausted? = [] := by
  unfold Attempt.conclude at h
  split at h
  · rename_i content
    obtain ⟨-, hnotices⟩ := Prod.mk.inj (Option.some.inj h)
    exact hnotices ▸ numbers_of_read a content
  · obtain ⟨-, rfl⟩ := Prod.mk.inj (Option.some.inj h)
    exact ⟨rfl, rfl⟩
  · obtain ⟨-, rfl⟩ := Prod.mk.inj (Option.some.inj h)
    exact ⟨rfl, rfl⟩
  · contradiction

/-- A number is told where a trial starts to rest, and where it ends without a success. -/
theorem numbers_of_resume (h : t.resume settings signal now = some (progress, notices)) :
    notices.filterMap Notice.repeated? = progress.repetitions t ∧
      notices.filterMap Notice.exhausted? = progress.exhaustions t := by
  unfold resume at h
  dsimp only at h
  split at h
  · split at h
    · obtain ⟨rfl, rfl⟩ := Prod.mk.inj (Option.some.inj h)
      exact ⟨rfl, rfl⟩
    · contradiction
  · cases hconclude : t.attempt.conclude signal with
    | none => simp [hconclude] at h
    | some answer =>
      obtain ⟨outcome, told⟩ := answer
      obtain ⟨hrepeated, hexhausted⟩ := numbers_of_conclude hconclude
      rw [hconclude] at h
      cases outcome with
      | ok output =>
        obtain ⟨rfl, rfl⟩ := Prod.mk.inj (Option.some.inj h)
        exact ⟨hrepeated, hexhausted⟩
      | error e =>
        dsimp only at h
        split at h
        · obtain ⟨rfl, rfl⟩ := Prod.mk.inj (Option.some.inj h)
          rw [List.filterMap_append, List.filterMap_append, hrepeated, hexhausted]
          exact ⟨rfl, rfl⟩
        · obtain ⟨rfl, rfl⟩ := Prod.mk.inj (Option.some.inj h)
          rw [List.filterMap_append, List.filterMap_append, hrepeated, hexhausted]
          exact ⟨rfl, rfl⟩

/-! ### What is told in a course -/

/-- A trial after some signals, with its result if it has one, and all that it has told. -/
structure Course where
  trial : Trial
  result : Option StageResult
  notices : List Notice

namespace Course

/-- A trial that makes its first attempt. -/
def start (settings : TrialSettings) (a : Attempt) (now : Duration) : Course :=
  ⟨(Trial.start settings a now).1, none, (Trial.start settings a now).2.2⟩

/-- The course after a further signal. One that is not waited for changes nothing. -/
def hear (settings : TrialSettings) (c : Course) (signal : Signal) (now : Duration) : Course :=
  match c.result, c.trial.resume settings signal now with
  | none, some (.waiting t _, notices) => ⟨t, none, c.notices ++ notices⟩
  | none, some (.finished result, notices) => ⟨c.trial, some result, c.notices ++ notices⟩
  | _, _ => c

/-- The course after some signals, each of them at a time. -/
def ofSignals (settings : TrialSettings) (a : Attempt) (now : Duration)
    (signals : List (Signal × Duration)) : Course :=
  signals.foldl (fun c s => c.hear settings s.1 s.2) (start settings a now)

/-- The numbers that were told of attempts that will be repeated. -/
def repetitions (c : Course) : List UInt32 :=
  c.notices.filterMap Notice.repeated?

/-- The numbers of attempts that were told when the retries were used up. -/
def exhaustions (c : Course) : List UInt32 :=
  c.notices.filterMap Notice.exhausted?

/-- What the numbers told in a course are. -/
structure Counted (a : Attempt) (c : Course) : Prop where
  attempt : c.trial.attempt = a
  within : c.trial.WithinBudget
  repetitions : c.repetitions.map UInt32.toNat =
    List.range' 1 (c.trial.count.toNat + if c.trial.resting then 1 else 0)
  exhaustions : c.exhaustions =
    match c.result with
    | none => []
    | some result => if result.success then [] else [result.retryCount + 1]
  spent : ∀ result, c.result = some result → result.success = false →
    result.retryCount = a.config.retryBudget

variable {a : Attempt} {c : Course}

theorem counted_start (settings : TrialSettings) (a : Attempt) (now : Duration) :
    (start settings a now).Counted a where
  attempt := rfl
  within := ⟨UInt32.le_iff_toNat_le.mpr (Nat.zero_le _), by simp [start, Trial.start]⟩
  repetitions := rfl
  exhaustions := rfl
  spent result hresult := nomatch hresult

/-- The number of an attempt that is repeated is the next one. -/
theorem Counted.hear_waiting (hc : c.Counted a) (hresult : c.result = none)
    (h : c.trial.resume settings signal now = some (.waiting t wait, notices)) :
    Counted a ⟨t, none, c.notices ++ notices⟩ := by
  have hstep := Step.of_resume h
  obtain ⟨hrepeated, hexhausted⟩ := numbers_of_resume h
  have hpresent := hc.exhaustions
  rw [hresult] at hpresent
  refine ⟨hstep.attempt_eq.trans hc.attempt, .of_step hstep hc.within, ?_, ?_,
    fun _ hnone => nomatch hnone⟩
  · have hbefore := hc.repetitions
    rw [Course.repetitions, List.filterMap_append, List.map_append, hrepeated]
    rw [Course.repetitions] at hbefore
    rw [hbefore]
    cases hstep with
    | rest hresting hfailure hleft =>
      have hnumber : (c.trial.count + 1).toNat = c.trial.count.toNat + 1 := toNat_count_succ hleft
      simp only [Progress.repetitions, hresting, if_true, List.map_cons, List.map_nil, hnumber,
        Bool.false_eq_true, if_false, Nat.add_zero]
      rw [List.range'_concat]
      simp [Nat.add_comm]
    | again hresting =>
      have hnext := toNat_count_succ (hc.within.resting hresting)
      simp [Progress.repetitions, hresting, hnext]
  · rw [Course.exhaustions, List.filterMap_append, hexhausted]
    exact (List.append_nil _).trans hpresent

/-- The number of attempts at the end is one more than that of the retries. -/
theorem Counted.hear_finished (hc : c.Counted a) (hresult : c.result = none)
    (h : c.trial.resume settings signal now = some (.finished result, notices)) :
    Counted a ⟨c.trial, some result, c.notices ++ notices⟩ := by
  have hstep := Step.of_resume h
  obtain ⟨hrepeated, hexhausted⟩ := numbers_of_resume h
  have hpresent := hc.exhaustions
  rw [hresult] at hpresent
  have hcount : result.retryCount = c.trial.count := by
    cases hstep <;> rfl
  refine ⟨hc.attempt, hc.within, ?_, ?_, ?_⟩
  · rw [Course.repetitions, List.filterMap_append, hrepeated]
    exact (congrArg _ (List.append_nil _)).trans hc.repetitions
  · rw [Course.exhaustions, List.filterMap_append, hexhausted]
    rw [Course.exhaustions] at hpresent
    rw [hpresent]
    dsimp only [Progress.exhaustions, List.nil_append]
    rw [hcount]
  · intro result' hresult' hfailed
    obtain rfl := Option.some.inj hresult'
    rcases hc.within.kind_of_step hstep with hsucceeded | hexhausted
    · rw [hsucceeded.success] at hfailed
      contradiction
    · rw [hexhausted.retryCount, hc.attempt]

theorem hear_of_waiting (hresult : c.result = none)
    (h : c.trial.resume settings signal now = some (.waiting t wait, notices)) :
    c.hear settings signal now = ⟨t, none, c.notices ++ notices⟩ := by
  rw [hear, hresult, h]

theorem hear_of_finished (hresult : c.result = none)
    (h : c.trial.resume settings signal now = some (.finished result, notices)) :
    c.hear settings signal now = ⟨c.trial, some result, c.notices ++ notices⟩ := by
  rw [hear, hresult, h]

theorem Counted.hear (hc : c.Counted a) (settings : TrialSettings) (signal : Signal)
    (now : Duration) : (c.hear settings signal now).Counted a := by
  unfold Course.hear
  split
  · rename_i hresult hresume
    exact hc.hear_waiting hresult hresume
  · rename_i hresult hresume
    exact hc.hear_finished hresult hresume
  · exact hc

theorem ofSignals_append (settings : TrialSettings) (a : Attempt) (now : Duration)
    (signals signals' : List (Signal × Duration)) :
    ofSignals settings a now (signals ++ signals') =
      signals'.foldl (fun c s => c.hear settings s.1 s.2) (ofSignals settings a now signals) := by
  rw [ofSignals, List.foldl_append, ofSignals]

/-- The induction is on the signals from the last one backwards. -/
theorem counted_ofSignals (settings : TrialSettings) (a : Attempt) (now : Duration)
    (signals : List (Signal × Duration)) : (ofSignals settings a now signals).Counted a := by
  induction signals using List.reverseRecOn with
  | nil => exact counted_start settings a now
  | append_singleton signals signal ih =>
    rw [ofSignals_append]
    exact ih.hear settings signal.1 signal.2

theorem Counted.exhaustions_of_failed (hc : c.Counted a) (hresult : c.result = some result)
    (hfailed : result.success = false) : c.exhaustions = [result.retryCount + 1] := by
  have hexhaustions := hc.exhaustions
  rw [hresult] at hexhaustions
  rw [hexhaustions]
  exact if_neg (Bool.eq_false_iff.mp hfailed)

/-- **The numbers a trial tells.** After any signals, at any times, the attempts that were told to
be repeated are numbered from 1 on without a gap, and the count of attempts, which does not exceed
the retry budget, has a next one whenever there is a next attempt. The end of a trial without a
success is told once, with the number of retries and one; this is the number of attempts if and only
if the budget is not the largest word. -/
theorem numbers_of_course (settings : TrialSettings) (a : Attempt) (now : Duration)
    (signals : List (Signal × Duration)) :
    let c := ofSignals settings a now signals
    c.repetitions.map UInt32.toNat =
        List.range' 1 (c.trial.count.toNat + if c.trial.resting then 1 else 0) ∧
      c.trial.count ≤ a.config.retryBudget ∧
      (c.trial.resting = true → (c.trial.count + 1).toNat = c.trial.count.toNat + 1) ∧
      (c.exhaustions ≠ [] → ∃ result, c.result = some result ∧ result.success = false) ∧
      ∀ result, c.result = some result → result.success = false →
        result.retryCount = a.config.retryBudget ∧
          ∃ attempts, c.exhaustions = [attempts] ∧
            attempts.toNat = (result.retryCount.toNat + 1) % UInt32.size ∧
            (attempts.toNat = result.retryCount.toNat + 1 ↔
              a.config.retryBudget.toNat + 1 < UInt32.size) := by
  intro c
  have hc : c.Counted a := counted_ofSignals settings a now signals
  refine ⟨hc.repetitions, ?_, ?_, ?_, ?_⟩
  · rw [← hc.attempt]
    exact hc.within.count
  · exact fun hresting => toNat_count_succ (hc.within.resting hresting)
  · intro hne
    have hexhaustions := hc.exhaustions
    cases hresult : c.result with
    | none =>
      rw [hresult] at hexhaustions
      exact absurd hexhaustions hne
    | some result =>
      rw [hresult] at hexhaustions
      refine ⟨result, rfl, Bool.eq_false_iff.mpr fun hsuccess => hne ?_⟩
      rw [hexhaustions]
      exact if_pos hsuccess
  · intro result hresult hfailed
    have hspent := hc.spent result hresult hfailed
    have hnumber : (result.retryCount + 1).toNat = (result.retryCount.toNat + 1) % UInt32.size :=
      UInt32.toNat_add _ _
    refine ⟨hspent, _, hc.exhaustions_of_failed hresult hfailed, hnumber, ?_⟩
    rw [hnumber, hspent, Nat.mod_eq_iff_lt (by decide)]

/-! ### A trial without a success -/

/-- Signals of attempts that fail with an error, and of the rests behind them. -/
def failures (e : ExecutorError) (rests : Nat) : List (Signal × Duration) :=
  (List.replicate rests [(.answered (.error e), .zero), (.rested, .zero)]).flatten

/-- Within the budget every attempt that fails is followed by the next one. -/
theorem ofSignals_failures (settings : TrialSettings) (a : Attempt) (e : ExecutorError)
    {rests : Nat} (h : rests ≤ a.config.retryBudget.toNat) :
    ∃ notices, ofSignals settings a .zero (failures e rests) =
      ⟨a.trial .zero rests, none, notices⟩ := by
  induction rests with
  | zero => exact ⟨_, rfl⟩
  | succ rests ih =>
    obtain ⟨notices, hbefore⟩ := ih (by omega)
    have hcount : (a.trial .zero rests).count.toNat = rests := toNat_count_trial (by omega)
    have hleft : (a.trial .zero rests).count < a.config.retryBudget := by
      rw [UInt32.lt_iff_toNat_lt, hcount]
      omega
    have hfails : (Reply.error e).isText = false := rfl
    obtain ⟨told, hfailed⟩ :=
      exists_resting settings (t := a.trial .zero rests) rfl hfails hleft .zero
    obtain ⟨told', hagain⟩ := exists_again settings
      (t := { a.trial .zero rests with resting := true }) rfl .zero
    have hrest := hear_of_waiting (c := ⟨a.trial .zero rests, none, notices⟩) rfl hfailed
    have hattempt := hear_of_waiting
      (c := ⟨{ a.trial .zero rests with resting := true }, none, notices ++ told⟩) rfl hagain
    have hnext : a.trial .zero (rests + 1) =
        { a.trial .zero rests with count := .ofNat rests + 1 } := by
      rw [Attempt.trial, UInt32.ofNat_add]
      rfl
    have hsignals : failures e (rests + 1) =
        failures e rests ++ [(.answered (.error e), .zero), (.rested, .zero)] := by
      rw [failures, List.replicate_succ', List.flatten_append, List.flatten_singleton, failures]
    refine ⟨notices ++ told ++ told', ?_⟩
    rw [hsignals, ofSignals_append, hbefore, List.foldl_cons, List.foldl_cons, List.foldl_nil,
      hnext]
    exact (congrArg (hear settings · .rested .zero) hrest).trans hattempt

/-- If all attempts fail, the number that is told in the end is the next word after the budget. -/
theorem exhaustions_of_failures (settings : TrialSettings) (a : Attempt) (e : ExecutorError) :
    let c := ofSignals settings a .zero
      (failures e a.config.retryBudget.toNat ++ [(.answered (.error e), .zero)])
    ∃ result, c.result = some result ∧ result.success = false ∧
      result.retryCount = a.config.retryBudget ∧ c.exhaustions = [a.config.retryBudget + 1] := by
  intro c
  have hc : c.Counted a := counted_ofSignals _ _ _ _
  have hspent : a.config.retryBudget ≤ (a.trial .zero a.config.retryBudget.toNat).count := by
    rw [Attempt.trial, UInt32.ofNat_toNat]
    exact UInt32.le_refl _
  obtain ⟨notices, hbefore⟩ := ofSignals_failures settings a e (Nat.le_refl _)
  have hend : (Reply.error e).isText = true ∨
      a.config.retryBudget ≤ (a.trial .zero a.config.retryBudget.toNat).count := .inr hspent
  obtain ⟨told, hlast⟩ := exists_finished settings
    (t := a.trial .zero a.config.retryBudget.toNat) rfl hend .zero
  have hcourse : c = (⟨a.trial .zero a.config.retryBudget.toNat, none, notices⟩ : Course).hear
      settings (.answered (.error e)) .zero := by
    rw [← hbefore]
    exact ofSignals_append _ _ _ _ _
  obtain ⟨result, hresult, hfailed⟩ : ∃ result, c.result = some result ∧
      result.success = false :=
    ⟨_, congrArg Course.result (hcourse.trans (hear_of_finished rfl hlast)), rfl⟩
  have hretries := hc.spent result hresult hfailed
  exact ⟨result, hresult, hfailed, hretries, hretries ▸ hc.exhaustions_of_failed hresult hfailed⟩

/-- No attempts at all is less than there are. -/
theorem not_exact_of_zero (h : c.exhaustions = [0]) (retries : Nat) :
    ¬ ∀ attempts ∈ c.exhaustions, attempts.toNat = retries + 1 := by
  intro hexact
  rw [h] at hexact
  exact Nat.succ_ne_zero retries (hexact 0 (List.mem_singleton.mpr rfl)).symm

/-- The attempts of a task without a limit to its retries. -/
def insistent : Attempt :=
  ⟨.requirements, { PipelineConfig.ofTask "t" with maxRetries := 4294967295 }, .empty⟩

/-- All attempts of this trial fail. It ends with the last retry there is, and what is told then is
that there was no attempt at all. -/
theorem exhausted_without_attempts :
    let c := ofSignals (.ofEngine .initial) insistent .zero
      (failures (.other "down") 4294967295 ++ [(.answered (.error (.other "down")), .zero)])
    ∃ result, c.result = some result ∧ result.success = false ∧
      result.retryCount = 4294967295 ∧ c.exhaustions = [0] ∧
      ¬ ∀ attempts ∈ c.exhaustions, attempts.toNat = result.retryCount.toNat + 1 := by
  have hbudget : insistent.config.retryBudget = 4294967295 := rfl
  have hcourse := exhaustions_of_failures (.ofEngine .initial) insistent (.other "down")
  have hnumber : (4294967295 : UInt32).toNat = 4294967295 := rfl
  have hnext : (4294967295 : UInt32) + 1 = 0 := by decide
  rw [hbudget, hnumber, hnext] at hcourse
  obtain ⟨result, hresult, hfailed, hretries, hexhaustions⟩ := hcourse
  exact ⟨result, hresult, hfailed, hretries, hexhaustions, not_exact_of_zero hexhaustions _⟩

end Course

end Trial

end StagedPipeline
