import Mathlib.Algebra.BigOperators.Group.Finset.Basic
import Mathlib.Algebra.Order.BigOperators.Group.Finset
import Mathlib.Order.Bounds.Basic
import StagedPipeline.Proofs.Driving.Outcome

/-!
# A trial from its first attempt to its last

A trial is left to itself on a clock that only its attempts and its rests move forward. A
`Trial.Script` tells what becomes of each attempt and how long it takes, and `Trial.Unfolds` follows
the trial from wait to wait up to its result. There is exactly one way in which it unfolds
(`Trial.unfolds_iff_schedule`): attempts alternate with rests up to the first attempt that succeeds
or, if there is none within the retry budget, up to the last one of the budget, and the result is
that of this attempt alone.
-/

namespace StagedPipeline

open Finset

/-- The result of a stage that ends with an attempt. -/
def Attempt.verdict (a : Attempt) (reply : Reply) (number : Nat) (duration : Duration) :
    StageResult :=
  match reply with
  | .text content =>
    ⟨a.stage, true, content, Artifact.decode? a.stage content, none, duration, .ofNat number⟩
  | reply =>
    ⟨a.stage, false, "", none, (reply.error? a.stage a.config).map (·.message), duration,
      .ofNat number⟩

theorem Attempt.verdict_of_error {a : Attempt} {reply : Reply} {e : AttemptError}
    (h : reply.error? a.stage a.config = some e) (number : Nat) (duration : Duration) :
    a.verdict reply number duration =
      ⟨a.stage, false, "", none, some e.message, duration, .ofNat number⟩ := by
  cases reply with
  | text content => contradiction
  | error e' => simp only [verdict, h, Option.map_some]
  | silence => simp only [verdict, h, Option.map_some]

/-- What an attempt waits for. -/
def Attempt.wait (completion : CompletionSettings) (a : Attempt) : Wait :=
  .answer (a.request completion) a.config.stageTimeout

/-- The trial that is at one of its attempts. -/
def Attempt.trial (a : Attempt) (startedAt : Duration) (number : Nat) : Trial :=
  ⟨a, startedAt, .ofNat number, false⟩

namespace Trial

/-- What becomes of the attempts of a trial, by their number, and how long each of them takes. -/
structure Script where
  reply : Nat → Reply
  time : Nat → Duration

namespace Script

/-- What ends a wait at an attempt. -/
def signal (script : Script) (number : Nat) : Wait → Signal
  | .answer _ _ => (script.reply number).signal
  | .rest _ => .rested

/-- How long a wait at an attempt takes. -/
def span (script : Script) (number : Nat) : Wait → Duration
  | .answer _ _ => script.time number
  | .rest delay => delay

end Script

/-- A trial that waits at a point in time makes these waits, each on behalf of an attempt, and ends
with the result. -/
inductive Unfolds (settings : TrialSettings) (script : Script) :
    Trial → Wait → (now : Duration) → List (Attempt × Wait) → StageResult → Prop
  | finish {t : Trial} {wait : Wait} {now : Duration} {result : StageResult}
      {notices : List Notice}
      (hresume : t.resume settings (script.signal t.count.toNat wait)
        (now.add (script.span t.count.toNat wait)) = some (.finished result, notices)) :
      Unfolds settings script t wait now [(t.attempt, wait)] result
  | goOn {t t' : Trial} {wait wait' : Wait} {now : Duration} {notices : List Notice}
      {log : List (Attempt × Wait)} {result : StageResult}
      (hresume : t.resume settings (script.signal t.count.toNat wait)
        (now.add (script.span t.count.toNat wait)) = some (.waiting t' wait', notices))
      (hrest : Unfolds settings script t' wait' (now.add (script.span t.count.toNat wait)) log
        result) :
      Unfolds settings script t wait now ((t.attempt, wait) :: log) result

/-- The waits of a trial with a number of rests, from one attempt on. -/
def schedule (settings : TrialSettings) (a : Attempt) (first rests : Nat) :
    List (Attempt × Wait) :=
  (List.range' first rests).flatMap (fun i =>
    [(a, a.wait settings.completion), (a, .rest ((settings.policy a.config).delay (.ofNat i)))]) ++
    [(a, a.wait settings.completion)]

/-- The time that so many attempts and the rests between them take, from one attempt on. -/
def timeTaken (settings : TrialSettings) (config : PipelineConfig) (script : Script)
    (first rests : Nat) : Nat :=
  ∑ i ∈ range (rests + 1), (script.time (first + i)).nanoseconds +
    ∑ i ∈ range rests, ((settings.policy config).delay (.ofNat (first + i))).nanoseconds

variable {settings : TrialSettings} {script : Script} {t t' : Trial} {wait wait' : Wait}
  {now startedAt : Duration} {log : List (Attempt × Wait)} {result result' : StageResult}
  {notices : List Notice} {a : Attempt}

/-! ### One wait -/

theorem unfolds_iff_of_finished (log : List (Attempt × Wait)) (result : StageResult)
    (h : t.resume settings (script.signal t.count.toNat wait)
      (now.add (script.span t.count.toNat wait)) = some (.finished result', notices)) :
    Unfolds settings script t wait now log result ↔
      log = [(t.attempt, wait)] ∧ result = result' := by
  constructor
  · intro hunfolds
    cases hunfolds with
    | finish hresume =>
      rw [h] at hresume
      obtain ⟨hresult, -⟩ := Prod.mk.inj (Option.some.inj hresume)
      exact ⟨rfl, (Progress.finished.inj hresult).symm⟩
    | goOn hresume hrest =>
      rw [h] at hresume
      obtain ⟨hprogress, -⟩ := Prod.mk.inj (Option.some.inj hresume)
      contradiction
  · rintro ⟨rfl, rfl⟩
    exact .finish h

theorem unfolds_iff_of_waiting (log : List (Attempt × Wait)) (result : StageResult)
    (h : t.resume settings (script.signal t.count.toNat wait)
      (now.add (script.span t.count.toNat wait)) = some (.waiting t' wait', notices)) :
    Unfolds settings script t wait now log result ↔
      ∃ rest, log = (t.attempt, wait) :: rest ∧
        Unfolds settings script t' wait' (now.add (script.span t.count.toNat wait)) rest
          result := by
  constructor
  · intro hunfolds
    cases hunfolds with
    | finish hresume =>
      rw [h] at hresume
      obtain ⟨hprogress, -⟩ := Prod.mk.inj (Option.some.inj hresume)
      contradiction
    | goOn hresume hrest =>
      rw [h] at hresume
      obtain ⟨hprogress, -⟩ := Prod.mk.inj (Option.some.inj hresume)
      obtain ⟨rfl, rfl⟩ := Progress.waiting.inj hprogress
      exact ⟨_, rfl, hrest⟩
  · rintro ⟨rest, rfl, hrest⟩
    exact .goOn h hrest

/-! ### One attempt -/

/-- A trial answers every signal of the kind it waits for with one of its steps. -/
theorem exists_step (settings : TrialSettings) {signal : Signal}
    (h : signal.isRested = t.resting) (now : Duration) :
    ∃ progress notices, t.resume settings signal now = some (progress, notices) ∧
      Step settings t now signal progress := by
  obtain ⟨⟨progress, notices⟩, hresume⟩ :=
    Option.isSome_iff_exists.mp (isSome_resume settings t now h)
  exact ⟨progress, notices, hresume, .of_resume hresume⟩

theorem isRested_signal (reply : Reply) : reply.signal.isRested = false := by
  cases reply <;> rfl

/-- An attempt that succeeds, or that is the last one of the budget, ends the trial. -/
theorem exists_finished (settings : TrialSettings) {reply : Reply}
    (hresting : t.resting = false)
    (h : reply.isText = true ∨ t.attempt.config.retryBudget ≤ t.count) (now : Duration) :
    ∃ notices, t.resume settings reply.signal now =
      some (.finished (t.attempt.verdict reply t.count.toNat (t.elapsed now)), notices) := by
  have hrested : reply.signal.isRested = t.resting := by rw [isRested_signal, hresting]
  obtain ⟨progress, notices, hresume, hstep⟩ := exists_step settings hrested now
  refine ⟨notices, ?_⟩
  rw [hresume]
  generalize hsignal : reply.signal = signal at hstep
  cases hstep with
  | succeed _ =>
    rw [Reply.eq_text_of_signal hsignal, Attempt.verdict, UInt32.ofNat_toNat]
    rfl
  | exhaust _ hfailure _ =>
    rw [← hsignal, Attempt.failure?_signal] at hfailure
    rw [Attempt.verdict_of_error hfailure, UInt32.ofNat_toNat]
    rfl
  | rest _ hfailure hleft =>
    rw [← hsignal, Attempt.failure?_signal] at hfailure
    rcases h with htext | hspent
    · rw [Reply.eq_text htext] at hfailure
      contradiction
    · exact absurd hspent (UInt32.not_le.mpr hleft)
  | again hrest =>
    rw [hresting] at hrest
    contradiction

/-- Behind an attempt that fails within the budget the trial rests. -/
theorem exists_resting (settings : TrialSettings) {reply : Reply} (hresting : t.resting = false)
    (hfails : reply.isText = false) (hleft : t.count < t.attempt.config.retryBudget)
    (now : Duration) :
    ∃ notices, t.resume settings reply.signal now =
      some (.waiting { t with resting := true }
        (.rest ((settings.policy t.attempt.config).delay t.count)), notices) := by
  have hrested : reply.signal.isRested = t.resting := by rw [isRested_signal, hresting]
  obtain ⟨progress, notices, hresume, hstep⟩ := exists_step settings hrested now
  refine ⟨notices, ?_⟩
  rw [hresume]
  generalize hsignal : reply.signal = signal at hstep
  cases hstep with
  | succeed _ =>
    rw [Reply.eq_text_of_signal hsignal] at hfails
    contradiction
  | exhaust _ _ hspent => exact absurd hleft (UInt32.not_lt.mpr hspent)
  | rest _ _ _ => rfl
  | again hrest =>
    rw [hresting] at hrest
    contradiction

/-- Behind a rest the trial makes its next attempt. -/
theorem exists_again (settings : TrialSettings) (hresting : t.resting = true) (now : Duration) :
    ∃ notices, t.resume settings .rested now =
      some (.waiting { t with count := t.count + 1, resting := false }
        (t.attempt.wait settings.completion), notices) := by
  have hrested : Signal.rested.isRested = t.resting := hresting.symm
  obtain ⟨progress, notices, hresume, hstep⟩ := exists_step settings hrested now
  refine ⟨notices, ?_⟩
  rw [hresume]
  cases hstep with
  | exhaust _ hfailure _ => contradiction
  | rest _ hfailure _ => contradiction
  | again _ => rfl

/-! ### From an attempt to the last one -/

section Attempt

variable {number : Nat}

theorem toNat_count_trial (h : number ≤ a.config.retryBudget.toNat) :
    (a.trial startedAt number).count.toNat = number := by
  have hbudget : a.config.retryBudget.toNat < UInt32.size := a.config.retryBudget.toNat_lt
  exact UInt32.toNat_ofNat_of_lt' (Nat.lt_of_le_of_lt h hbudget)

/-- The trial is over with an attempt that succeeds, or that is the last one of the budget. -/
theorem unfolds_iff_of_last (hle : number ≤ a.config.retryBudget.toNat)
    (hlast : (script.reply number).isText = true ∨ number = a.config.retryBudget.toNat) :
    Unfolds settings script (a.trial startedAt number) (a.wait settings.completion) now log
        result ↔
      log = [(a, a.wait settings.completion)] ∧
        result = a.verdict (script.reply number) number
          ((a.trial startedAt number).elapsed (now.add (script.time number))) := by
  have hcount : (a.trial startedAt number).count.toNat = number := toNat_count_trial hle
  have hend : (script.reply number).isText = true ∨
      a.config.retryBudget ≤ (a.trial startedAt number).count := by
    rcases hlast with htext | hspent
    · exact .inl htext
    · refine .inr (UInt32.le_iff_toNat_le.mpr ?_)
      rw [hcount, hspent]
  obtain ⟨notices, hresume⟩ := exists_finished settings (t := a.trial startedAt number) rfl hend
    (now.add (script.time number))
  rw [hcount] at hresume
  have hsignal : script.signal (a.trial startedAt number).count.toNat
      (a.wait settings.completion) = (script.reply number).signal := by
    rw [hcount]
    rfl
  have hspan : script.span (a.trial startedAt number).count.toNat
      (a.wait settings.completion) = script.time number := by
    rw [hcount]
    rfl
  rw [← hsignal, ← hspan] at hresume
  have hiff := unfolds_iff_of_finished log result hresume
  rw [hspan] at hiff
  exact hiff

/-- Behind an attempt that fails within the budget come a rest and the next attempt. -/
theorem unfolds_iff_of_failure (hlt : number < a.config.retryBudget.toNat)
    (hfails : (script.reply number).isText = false) :
    Unfolds settings script (a.trial startedAt number) (a.wait settings.completion) now log
        result ↔
      ∃ rest, log = (a, a.wait settings.completion) ::
          (a, .rest ((settings.policy a.config).delay (.ofNat number))) :: rest ∧
        Unfolds settings script (a.trial startedAt (number + 1)) (a.wait settings.completion)
          ((now.add (script.time number)).add ((settings.policy a.config).delay (.ofNat number)))
          rest result := by
  have hcount : (a.trial startedAt number).count.toNat = number := toNat_count_trial hlt.le
  have hleft : (a.trial startedAt number).count < a.config.retryBudget := by
    rw [UInt32.lt_iff_toNat_lt, hcount]
    exact hlt
  have hsignal : script.signal (a.trial startedAt number).count.toNat
      (a.wait settings.completion) = (script.reply number).signal := by
    rw [hcount]
    rfl
  have hspan : script.span (a.trial startedAt number).count.toNat
      (a.wait settings.completion) = script.time number := by
    rw [hcount]
    rfl
  obtain ⟨notices, hfailed⟩ := exists_resting settings (t := a.trial startedAt number) rfl hfails
    hleft (now.add (script.time number))
  rw [← hsignal, ← hspan] at hfailed
  obtain ⟨notices', hagain⟩ := exists_again settings
    (t := { a.trial startedAt number with resting := true }) rfl
    ((now.add (script.time number)).add ((settings.policy a.config).delay (.ofNat number)))
  have hnext : UInt32.ofNat number + 1 = UInt32.ofNat (number + 1) := (UInt32.ofNat_add _ _).symm
  have hfirst := unfolds_iff_of_waiting log result hfailed
  rw [hspan] at hfirst
  rw [hfirst]
  constructor
  · rintro ⟨rest, rfl, hrest⟩
    obtain ⟨rest', rfl, hrest'⟩ := (unfolds_iff_of_waiting _ _ hagain).mp hrest
    refine ⟨rest', rfl, ?_⟩
    rw [Attempt.trial, ← hnext]
    exact hrest'
  · rintro ⟨rest, rfl, hrest⟩
    refine ⟨_, rfl, (unfolds_iff_of_waiting _ _ hagain).mpr ⟨rest, rfl, ?_⟩⟩
    rw [Attempt.trial, ← hnext] at hrest
    exact hrest

end Attempt

theorem schedule_succ (settings : TrialSettings) (a : Attempt) (first rests : Nat) :
    schedule settings a first (rests + 1) =
      (a, a.wait settings.completion) ::
        (a, .rest ((settings.policy a.config).delay (.ofNat first))) ::
          schedule settings a (first + 1) rests := by
  rw [schedule, List.range'_succ, List.flatMap_cons, List.append_assoc]
  rfl

theorem timeTaken_succ (settings : TrialSettings) (config : PipelineConfig) (script : Script)
    (first rests : Nat) :
    timeTaken settings config script first (rests + 1) =
      (script.time first).nanoseconds +
        ((settings.policy config).delay (.ofNat first)).nanoseconds +
          timeTaken settings config script (first + 1) rests := by
  have hshift : ∀ i, first + 1 + i = first + (i + 1) := fun i => by omega
  have htimes := sum_range_succ' (fun i => (script.time (first + i)).nanoseconds) (rests + 1)
  have hdelays := sum_range_succ'
    (fun i => ((settings.policy config).delay (.ofNat (first + i))).nanoseconds) rests
  simp only [Nat.add_zero] at htimes hdelays
  simp only [timeTaken, hshift]
  omega

/-- The trial from one of its attempts on. The induction is on the number of rests that are still to
come; the clock goes along with it. -/
theorem unfolds_iff_schedule (rests : Nat) : ∀ (first : Nat) (now : Duration)
    (log : List (Attempt × Wait)), startedAt.nanoseconds ≤ now.nanoseconds →
      first + rests ≤ a.config.retryBudget.toNat →
      (∀ i < rests, (script.reply (first + i)).isText = false) →
      ((script.reply (first + rests)).isText = true ∨
        first + rests = a.config.retryBudget.toNat) →
      (Unfolds settings script (a.trial startedAt first) (a.wait settings.completion) now log
          result ↔
        log = schedule settings a first rests ∧
          result = a.verdict (script.reply (first + rests)) (first + rests)
            ⟨now.nanoseconds - startedAt.nanoseconds +
              timeTaken settings a.config script first rests⟩) := by
  induction rests with
  | zero =>
    intro first now log hnow hle _ hlast
    have helapsed : (a.trial startedAt first).elapsed (now.add (script.time first)) =
        ⟨now.nanoseconds - startedAt.nanoseconds +
          timeTaken settings a.config script first 0⟩ := by
      simp only [elapsed, Attempt.trial, Duration.add, timeTaken, zero_add, range_one,
        sum_singleton, range_zero, sum_empty, Nat.add_zero, Duration.mk.injEq]
      omega
    rw [Nat.add_zero] at hle hlast ⊢
    rw [unfolds_iff_of_last hle hlast, helapsed]
    rfl
  | succ rests ih =>
    intro first now log hnow hle hfails hlast
    have hshift : first + (rests + 1) = first + 1 + rests := by omega
    have hlt : first < a.config.retryBudget.toNat := by omega
    have hfirst : (script.reply first).isText = false := hfails 0 (Nat.succ_pos rests)
    have hlater : ∀ i < rests, (script.reply (first + 1 + i)).isText = false := by
      intro i hi
      rw [Nat.add_right_comm, Nat.add_assoc]
      exact hfails (i + 1) (by omega)
    have hclock : startedAt.nanoseconds ≤ ((now.add (script.time first)).add
        ((settings.policy a.config).delay (.ofNat first))).nanoseconds := by
      simp only [Duration.add]
      omega
    have hspent : ((now.add (script.time first)).add
        ((settings.policy a.config).delay (.ofNat first))).nanoseconds - startedAt.nanoseconds +
          timeTaken settings a.config script (first + 1) rests =
        now.nanoseconds - startedAt.nanoseconds +
          timeTaken settings a.config script first (rests + 1) := by
      rw [timeTaken_succ]
      simp only [Duration.add]
      omega
    rw [hshift] at hle hlast ⊢
    have hrest := fun rest => ih (first + 1) _ rest hclock hle hlater hlast
    simp only [hspent] at hrest
    rw [unfolds_iff_of_failure hlt hfirst, schedule_succ]
    constructor
    · rintro ⟨rest, rfl, hunfolds⟩
      obtain ⟨rfl, hresult⟩ := (hrest rest).mp hunfolds
      exact ⟨rfl, hresult⟩
    · rintro ⟨rfl, rfl⟩
      exact ⟨_, rfl, (hrest _).mpr ⟨rfl, rfl⟩⟩

/-- **What a trial does.** Let `n` be the number of the first attempt that succeeds or is the last
one of the retry budget. The trial makes the attempts up to this one, each with the request of the
same stage, settings and artifacts, and rests after every other one for as long as its policy says.
It ends with one result, and this is told by the attempt alone: the text of a success and what is
read in it, or the error of a failure. Its duration is that of the attempts and the rests
together. -/
theorem unfolds_up_to_first_success (settings : TrialSettings) (script : Script) (a : Attempt)
    (now : Duration) :
    ∃ n, IsLeast {k | (script.reply k).isText = true ∨ k = a.config.retryBudget.toNat} n ∧
      ∃ result : StageResult,
        result = a.verdict (script.reply n) n ⟨timeTaken settings a.config script 0 n⟩ ∧
        result.success = (script.reply n).isText ∧ result.retryCount.toNat = n ∧
        ∀ log result', Unfolds settings script (start settings a now).1
            (start settings a now).2.1 now log result' ↔
          log = schedule settings a 0 n ∧ result' = result := by
  have hexists : ∃ k, (script.reply k).isText = true ∨ k = a.config.retryBudget.toNat :=
    ⟨_, .inr rfl⟩
  obtain ⟨n, hlast, hleast⟩ : ∃ n, IsLeast
      {k | (script.reply k).isText = true ∨ k = a.config.retryBudget.toNat} n :=
    ⟨Nat.find hexists, Nat.find_spec hexists, fun k hk => Nat.find_min' hexists hk⟩
  have hle : n ≤ a.config.retryBudget.toNat := hleast (.inr rfl)
  have hfails : ∀ i < n, (script.reply (0 + i)).isText = false := by
    intro i hi
    rw [Nat.zero_add]
    by_contra htext
    have hbelow : n ≤ i := hleast (.inl (by simpa using htext))
    omega
  refine ⟨n, ⟨hlast, hleast⟩, _, rfl, ?_, ?_, ?_⟩
  · cases script.reply n <;> rfl
  · have hbudget : a.config.retryBudget.toNat < UInt32.size := a.config.retryBudget.toNat_lt
    have hsize : n < UInt32.size := Nat.lt_of_le_of_lt hle hbudget
    cases script.reply n <;> exact UInt32.toNat_ofNat_of_lt' hsize
  · intro log result'
    have hlast' : (script.reply (0 + n)).isText = true ∨ 0 + n = a.config.retryBudget.toNat := by
      rw [Nat.zero_add]
      exact hlast
    have hiff : Unfolds settings script (a.trial now 0) (a.wait settings.completion) now log
        result' ↔ _ :=
      unfolds_iff_schedule n 0 now log (Nat.le_refl _) (by omega) hfails hlast'
    rw [Nat.sub_self, Nat.zero_add, Nat.zero_add] at hiff
    exact hiff

end Trial

end StagedPipeline
