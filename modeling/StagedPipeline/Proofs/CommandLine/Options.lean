import StagedPipeline.CommandLine.Session
import StagedPipeline.Proofs.CommandLine.Arguments
import StagedPipeline.Proofs.Config.Printing
import StagedPipeline.Proofs.Driving.Backoff
import StagedPipeline.Proofs.Driving.Refusal

/-!
# From settings and options to a pipeline

Settings that were accepted and options that were accepted go together: whatever they say, the
pipeline they ask for is refused for nothing but its task.
-/

namespace StagedPipeline

/-! ### Accepted settings -/

/-- What passes the check is in range. -/
theorem EngineConfig.inRange_of_check {c : EngineConfig} (h : c.check = .ok ()) :
    c.retry.base ≤ c.retry.cap ∧ c.pollInterval ≠ 0 ∧ c.defaults.stageTimeout ≠ 0 := by
  unfold EngineConfig.check at h
  repeat' split at h
  all_goals simp_all

/-- The defaults pass the check, and so does whatever is read from a file. -/
theorem Settings.check_of_load {file : Option Settings.File} {settings : Settings}
    (h : Settings.load file = .ok settings) : settings.engine.check = .ok () := by
  rcases file with _ | ⟨path, _ | text⟩
  · obtain rfl := Except.ok.inj h
    exact (rfl : EngineConfig.initial.check = .ok ())
  · cases h
  · exact (Settings.parse_eq_ok_iff.mp h).2

theorem EngineConfig.pollSpan_pos {c : EngineConfig} (h : c.check = .ok ()) :
    0 < c.pollSpan.nanoseconds := by
  obtain ⟨-, hne, -⟩ := EngineConfig.inRange_of_check h
  have hpos : 0 < c.pollInterval.toNat := by
    simpa [Nat.pos_iff_ne_zero, ← UInt64.toNat_inj] using hne
  exact Nat.mul_pos hpos (by decide)

theorem EngineConfig.stageTimeout_pos {c : EngineConfig} (h : c.check = .ok ()) :
    0 < (Duration.ofSeconds c.defaults.stageTimeout.toNat).nanoseconds := by
  obtain ⟨-, -, hne⟩ := EngineConfig.inRange_of_check h
  have hpos : 0 < c.defaults.stageTimeout.toNat := by
    simpa [Nat.pos_iff_ne_zero, ← UInt64.toNat_inj] using hne
  exact Nat.mul_pos hpos (by decide)

theorem Duration.seconds_ofMilliseconds_lt (n : UInt64) :
    (Duration.ofMilliseconds n.toNat).seconds < UInt64.size := by
  have hn : n.toNat < UInt64.size := n.toNat_lt
  unfold Duration.seconds Duration.ofMilliseconds Duration.perSecond Duration.perMillisecond
  dsimp only
  omega

/-- The first wait is the base delay. -/
theorem EngineConfig.delay_zero {c : EngineConfig} (hcheck : c.check = .ok ())
    (config : PipelineConfig) :
    ((TrialSettings.ofEngine c).policy config).delay 0 = .ofMilliseconds c.retry.base.toNat := by
  obtain ⟨hbackoff, -, -⟩ := EngineConfig.inRange_of_check hcheck
  have hle : c.retry.base.toNat ≤ c.retry.cap.toNat := hbackoff
  set p := (TrialSettings.ofEngine c).policy config with hp
  have hdelay : (p.delay 0).nanoseconds =
      min (p.baseDelay.nanoseconds * RetryPolicy.factor 0) p.maxDelay.nanoseconds :=
    RetryPolicy.nanoseconds_delay (Duration.seconds_ofMilliseconds_lt c.retry.cap) 0
  have hfactor : RetryPolicy.factor 0 = 1 := rfl
  have hmin : p.baseDelay.nanoseconds ≤ p.maxDelay.nanoseconds :=
    Nat.mul_le_mul_right Duration.perMillisecond hle
  rw [hfactor, Nat.mul_one, Nat.min_eq_left hmin] at hdelay
  exact congrArg Duration.mk hdelay

/-- With a positive time limit, settings are refused for their task only. -/
theorem PipelineConfig.refusal?_ne_none_iff {c : PipelineConfig}
    (htimeout : 0 < c.stageTimeout.nanoseconds) :
    c.refusal? ≠ none ↔ Text.trim c.task.toList = [] := by
  rw [← PipelineConfig.refusal?_eq_blankTask_iff]
  constructor
  · intro hrefused
    obtain ⟨refusal, hrefusal⟩ := Option.ne_none_iff_exists'.mp hrefused
    cases refusal with
    | blankTask => exact hrefusal
    | noTimeout =>
      obtain ⟨-, hzero⟩ := PipelineConfig.refusal?_eq_noTimeout_iff.mp hrefusal
      rw [hzero] at htimeout
      exact absurd htimeout (by decide)
  · intro hblank
    rw [hblank]
    exact Option.some_ne_none _

/-- A pipeline is created unless its settings are refused. -/
theorem Engine.create_value_eq_error_iff {id : PipelineId} {config : PipelineConfig} {now : Moment}
    {store : Store} :
    (∃ e, (Engine.create id config now store).value = .error e) ↔ config.refusal? ≠ none := by
  unfold Engine.create
  cases config.refusal? <;> simp

namespace CommandLine

/-! ### Accepted options -/

section Options

variable {engine : EngineConfig} {options other : RunOptions} {arguments arguments' : List String}

/-- The options of a run have no say in the task beyond their own. -/
@[simp] theorem Session.task_pipelineConfig :
    (Session.pipelineConfig engine options).task = options.task := rfl

@[simp] theorem Session.context_pipelineConfig :
    (Session.pipelineConfig engine options).context = options.context := by
  simp [Session.pipelineConfig, RunOptions.apply, PipelineConfig.ofEngine]

@[simp] theorem Session.stageTimeout_pipelineConfig :
    (Session.pipelineConfig engine options).stageTimeout =
      options.stageTimeout.getD (.ofSeconds engine.defaults.stageTimeout.toNat) := rfl

theorem Session.retryBudget_pipelineConfig :
    (Session.pipelineConfig engine options).retryBudget =
      if options.noRetry = true ∨ engine.defaults.autoRetry = false then 0
      else options.maxRetries.getD engine.defaults.maxRetries := by
  unfold PipelineConfig.retryBudget
  change (if (if options.noRetry then false else engine.defaults.autoRetry) = true then
    options.maxRetries.getD engine.defaults.maxRetries else 0) = _
  cases options.noRetry <;> cases engine.defaults.autoRetry <;> rfl

/-- The time limit of a pipeline is positive. -/
theorem RunOptions.GivenBy.stageTimeout_pos (h : options.GivenBy arguments)
    (hcheck : engine.check = .ok ()) :
    0 < (Session.pipelineConfig engine options).stageTimeout.nanoseconds := by
  rw [Session.stageTimeout_pipelineConfig]
  by_cases hgiven : ∃ text, Gives arguments "--stage-timeout-secs" text
  · obtain ⟨text, hgives⟩ := hgiven
    obtain ⟨d, hread, hd⟩ := h.stageTimeout.given text hgives
    obtain ⟨n, -, hpos, -, rfl⟩ := readSeconds?_eq_some_iff.mp hread
    rw [hd, Option.getD_some]
    exact Nat.mul_pos hpos (by decide)
  · rw [h.stageTimeout.absent (not_exists.mp hgiven), Option.getD_none]
    exact EngineConfig.stageTimeout_pos hcheck

/-- A time limit that is given is that of the pipeline. -/
theorem RunOptions.GivenBy.exists_stageTimeout (h : options.GivenBy arguments) {text : String}
    (hgives : Gives arguments "--stage-timeout-secs" text) :
    ∃ n, Numeral text n ∧
      (Session.pipelineConfig engine options).stageTimeout = .ofSeconds n := by
  obtain ⟨d, hread, hd⟩ := h.stageTimeout.given text hgives
  obtain ⟨n, hn, -, -, rfl⟩ := readSeconds?_eq_some_iff.mp hread
  exact ⟨n, hn, by rw [Session.stageTimeout_pipelineConfig, hd, Option.getD_some]⟩

/-- Retries are turned off by the flag or by the settings. -/
theorem RunOptions.GivenBy.retryBudget_eq_zero (h : options.GivenBy arguments)
    (hoff : "--no-retry" ∈ arguments ∨ engine.defaults.autoRetry = false) :
    (Session.pipelineConfig engine options).retryBudget = 0 := by
  rw [Session.retryBudget_pipelineConfig, if_pos (hoff.imp_left h.noRetry.mpr)]

theorem RunOptions.GivenBy.retryBudget_eq_getD (h : options.GivenBy arguments)
    (hnoRetry : "--no-retry" ∉ arguments) (hautoRetry : engine.defaults.autoRetry = true) :
    (Session.pipelineConfig engine options).retryBudget =
      options.maxRetries.getD engine.defaults.maxRetries := by
  have hretry : ¬ (options.noRetry = true ∨ engine.defaults.autoRetry = false) := by
    rintro (hflag | hoff)
    · exact hnoRetry (h.noRetry.mp hflag)
    · rw [hautoRetry] at hoff
      cases hoff
  rw [Session.retryBudget_pipelineConfig, if_neg hretry]

/-- Options that are given the same ask for the same pipeline. -/
theorem RunOptions.GivenBy.pipelineConfig_eq (h : options.GivenBy arguments)
    (h' : other.GivenBy arguments')
    (hgives : ∀ a : Argument, a.takesValue = true → ∀ text,
      Gives arguments' a.long text ↔ Gives arguments a.long text)
    (hflag : "--no-retry" ∈ arguments' ↔ "--no-retry" ∈ arguments) :
    Session.pipelineConfig engine other = Session.pipelineConfig engine options := by
  have htask : other.task = options.task :=
    (h'.task _).mp ((hgives .task rfl _).mpr ((h.task _).mpr rfl))
  have hcontext : other.context = options.context := by
    refine Option.ext fun text => ?_
    exact (h'.context text).trans ((hgives .context rfl text).trans (h.context text).symm)
  have hnoRetry : other.noRetry = options.noRetry :=
    Bool.eq_iff_iff.mpr (h'.noRetry.trans (hflag.trans h.noRetry.symm))
  have hmaxRetries : other.maxRetries = options.maxRetries :=
    h.maxRetries.unique h'.maxRetries (hgives .maxRetries rfl)
  have hstageTimeout : other.stageTimeout = options.stageTimeout :=
    h.stageTimeout.unique h'.stageTimeout (hgives .stageTimeout rfl)
  simp [Session.pipelineConfig, RunOptions.apply, htask, hcontext, hnoRetry, hmaxRetries,
    hstageTimeout]

end Options

/-- Settings from a file, or the defaults, and options from the arguments of a run, taken together.
The time limit is positive, and it, the context and the retry budget are what the arguments give in
whatever order, or else what the settings say. So the pipeline is refused exactly if its task is
blank, the state of a pipeline is polled after a positive time, and the first wait between attempts
is the base delay. -/
theorem Session.pipelineConfig_of_accepted {file : Option Settings.File} {settings : Settings}
    {arguments : List String} {i : Invocation} {options : RunOptions}
    (hload : Settings.load file = .ok settings) (hparse : Invocation.parse arguments = .ok i)
    (hrun : i.command = .run options) :
    let c := Session.pipelineConfig settings.engine options
    0 < c.stageTimeout.nanoseconds ∧
    (∀ text, Gives arguments "--stage-timeout-secs" text →
      ∃ n, Numeral text n ∧ c.stageTimeout = .ofSeconds n) ∧
    ((∀ text, ¬ Gives arguments "--stage-timeout-secs" text) →
      c.stageTimeout = .ofSeconds settings.engine.defaults.stageTimeout.toNat) ∧
    (∀ text, c.context = some text ↔ Gives arguments "--context" text) ∧
    ("--no-retry" ∈ arguments ∨ settings.engine.defaults.autoRetry = false →
      c.retryBudget = 0) ∧
    ("--no-retry" ∉ arguments → settings.engine.defaults.autoRetry = true →
      (∀ text, Gives arguments "--max-retries" text → Numeral text c.retryBudget.toNat) ∧
      ((∀ text, ¬ Gives arguments "--max-retries" text) →
        c.retryBudget = settings.engine.defaults.maxRetries)) ∧
    (∀ text, Gives arguments "--task" text ↔ c.task = text) ∧
    (∀ id now store, (∃ e, (Engine.create id c now store).value = .error e) ↔
      Text.trim c.task.toList = []) ∧
    0 < settings.engine.pollSpan.nanoseconds ∧
    ((TrialSettings.ofEngine settings.engine).policy c).delay 0 =
      .ofMilliseconds settings.engine.retry.base.toNat ∧
    ∀ arguments' i' options', Invocation.parse arguments' = .ok i' → i'.command = .run options' →
      (∀ a : Argument, a.takesValue = true → ∀ text,
        Gives arguments' a.long text ↔ Gives arguments a.long text) →
      ("--no-retry" ∈ arguments' ↔ "--no-retry" ∈ arguments) →
      Session.pipelineConfig settings.engine options' = c := by
  intro c
  have hcheck := Settings.check_of_load hload
  have hgiven : options.GivenBy arguments := Invocation.givenBy hparse hrun
  have hpos : 0 < c.stageTimeout.nanoseconds := hgiven.stageTimeout_pos hcheck
  have htask : c.task = options.task := Session.task_pipelineConfig
  refine ⟨hpos, ?_, ?_, ?_, ?_, ?_, ?_, ?_, ?_, ?_, ?_⟩
  · intro text htext
    exact hgiven.exists_stageTimeout htext
  · intro hnone
    rw [Session.stageTimeout_pipelineConfig, hgiven.stageTimeout.absent hnone, Option.getD_none]
  · intro text
    rw [Session.context_pipelineConfig]
    exact hgiven.context text
  · exact hgiven.retryBudget_eq_zero
  · intro hnoRetry hautoRetry
    have hbudget : c.retryBudget = options.maxRetries.getD settings.engine.defaults.maxRetries :=
      hgiven.retryBudget_eq_getD hnoRetry hautoRetry
    refine ⟨fun text htext => ?_, fun hnone => ?_⟩
    · obtain ⟨n, hread, hn⟩ := hgiven.maxRetries.given text htext
      rw [hbudget, hn, Option.getD_some]
      exact readRetries?_eq_some_iff.mp hread
    · rw [hbudget, hgiven.maxRetries.absent hnone, Option.getD_none]
  · intro text
    rw [htask]
    exact hgiven.task text
  · intro id now store
    rw [Engine.create_value_eq_error_iff, PipelineConfig.refusal?_ne_none_iff hpos]
  · exact EngineConfig.pollSpan_pos hcheck
  · exact EngineConfig.delay_zero hcheck c
  · intro arguments' i' options' hparse' hrun' hgives hflag
    exact hgiven.pipelineConfig_eq (Invocation.givenBy hparse' hrun') hgives hflag

/-- A file that sets the retries, and options that set them again together with the time limit. -/
theorem Session.pipelineConfig_of_overriding :
    let file : Settings.File := ⟨"a.toml", some "[engine.defaults]\nmax_retries = 7\n"⟩
    let settings : Settings := ⟨{ EngineConfig.initial with defaults := ⟨true, 7, 300⟩ }, .initial⟩
    let arguments := ["run", "--stage-timeout-secs=+90", "--task", "build", "--max-retries", "2"]
    let options : RunOptions := ⟨"build", none, some 2, false, some (.ofSeconds 90), false⟩
    Settings.load (some file) = .ok settings ∧
    Invocation.parse arguments = .ok ⟨false, none, .run options⟩ ∧
    Gives arguments "--stage-timeout-secs" "+90" ∧ Gives arguments "--max-retries" "2" ∧
    (∃ n, Numeral "+90" n ∧
      (Session.pipelineConfig settings.engine options).stageTimeout = .ofSeconds n) ∧
    Numeral "2" (Session.pipelineConfig settings.engine options).retryBudget.toNat := by
  intro file settings arguments options
  have hload : Settings.load (some file) = .ok settings := by decide +kernel
  have hparse : Invocation.parse arguments = .ok ⟨false, none, .run options⟩ := rfl
  have htimeout : Gives arguments "--stage-timeout-secs" "+90" := .inl (by decide)
  have hretries : Gives arguments "--max-retries" "2" := .inr (by decide)
  obtain ⟨-, hlimit, -, -, -, hbudget, -⟩ := Session.pipelineConfig_of_accepted hload hparse rfl
  obtain ⟨hgiven, -⟩ := hbudget (by decide) rfl
  exact ⟨hload, hparse, htimeout, hretries, hlimit _ htimeout, hgiven _ hretries⟩

end CommandLine

end StagedPipeline
