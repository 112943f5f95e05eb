import StagedPipeline.CommandLine.Program
import StagedPipeline.Proofs.CommandLine.Options
import StagedPipeline.Proofs.CommandLine.Printed
import StagedPipeline.Proofs.Completion.Exchange
import StagedPipeline.Proofs.Driving.Reference

/-!
# How a run ends

A session is started for every task that is not blank. What a session hears that nobody interrupts
is what it waits for, and the program in its surroundings is such a session, in which the executor
answers every request with what comes back for it. `Session.verdict` puts together how a run ends,
what it prints and with which exit code.
-/

namespace StagedPipeline

/-- A pipeline that an executor brings to its end is completed if no stage fails more often than it
may be repeated. -/
theorem Behaviour.status_outcome_eq_completed_iff (b : Behaviour) (config : PipelineConfig) :
    (b.outcome config).status = .completed ↔
      ∀ stage, b.failures stage ≤ config.retryBudget.toNat := by
  cases hstop : b.stop config with
  | none =>
    have hstatus := (Behaviour.outcome_of_stop_eq_none hstop).1
    simp [hstatus, Behaviour.failures_le_of_stop_eq_none hstop]
  | some stage =>
    have hstatus := (Behaviour.outcome_of_stop_eq_some hstop).1
    have hlt := (Behaviour.failures_of_stop_eq_some hstop).1
    rw [hstatus]
    refine ⟨nofun, fun hall => absurd (hall stage) (not_le.mpr hlt)⟩

namespace CommandLine

namespace Session

/-! ### The start -/

section Start

variable {engine : EngineConfig} {options : RunOptions} {id : PipelineId} {now : Moment}

/-- The event with which a session starts. -/
def opening (engine : EngineConfig) (options : RunOptions) (id : PipelineId) (now : Moment) :
    List Event :=
  [⟨.create id (pipelineConfig engine options), now⟩]

/-- A session at its start is an engine in which the pipeline has been created. -/
theorem exists_start (id : PipelineId) (now : Moment)
    (haccepted : (pipelineConfig engine options).refusal? = none) :
    ∃ s remarks, start engine options id now = .ok (s, remarks) ∧ s.id = id ∧
      s.engine = engine ∧ s.progress = none ∧ (∀ t, s.Timed t t) ∧
      s.Mirrors (pipelineConfig engine options)
        (Fleet.initial.run engine (opening engine options id now)) := by
  have hcreated : Engine.create id (pipelineConfig engine options) now .empty =
      ⟨Store.empty.put (.ofPipeline (.pending id now.instant) (pipelineConfig engine options)),
        [.created id (pipelineConfig engine options).task], .ok (.pending id now.instant)⟩ := by
    simp only [Engine.create, haccepted]
  have hrun : Fleet.initial.run engine (opening engine options id now) =
      ⟨Store.empty.put (.ofPipeline (.pending id now.instant) (pipelineConfig engine options)),
        []⟩ := by
    rw [opening, Fleet.run_cons, Fleet.run_nil, Fleet.next,
      Fleet.react_create_of_accepted _ _ haccepted]
    rfl
  have hregular : ((Fleet.initial.run engine (opening engine options id now)).view id).Regular := by
    refine Fleet.regular_next ?_ (Fleet.regular_initial id)
    simp [Fleet.Created, Event.Fresh, Event.Restores, Fleet.initial]
  have hstart : ∃ remarks, start engine options id now = .ok (⟨engine, id,
      Store.empty.put (.ofPipeline (.pending id now.instant) (pipelineConfig engine options)),
      none, ""⟩, remarks) := by
    unfold start
    rw [hcreated]
    exact ⟨_, rfl⟩
  obtain ⟨remarks, hstart⟩ := hstart
  refine ⟨_, remarks, hstart, rfl, rfl, rfl, ?_, ?_⟩
  · intro t
    refine ⟨_, Store.get?_put_self _ _, Nat.le_refl _, ?_⟩
    rintro drive wait ⟨⟩
  refine ⟨congrArg Fleet.store hrun, hregular, ?_, congrArg Fleet.calls hrun⟩
  rw [hrun]
  exact ⟨_, Store.get?_put_self _ _, rfl, by rintro ⟨⟩, fun hbusy => absurd rfl hbusy⟩

/-- The start does not disturb the pipeline. -/
theorem undisturbed_opening (engine : EngineConfig) (options : RunOptions) (id : PipelineId)
    (now : Moment) (b : Behaviour) :
    Fleet.initial.Along engine (Fleet.Undisturbed b id (pipelineConfig engine options))
      (opening engine options id now) := by
  refine ⟨⟨?_, ?_, ?_, ?_, ?_⟩, trivial⟩ <;>
    simp [Event.Fresh, Event.Restores, Event.Cancels, Fleet.initial, eq_comm]

end Start

/-! ### Sessions that nobody interrupts -/

section Serve

variable {config : PipelineConfig} {s : Session} {f : Fleet}
  {respond : CompletionRequest → Except ExecutorError String} {now : Moment}

/-- The session after the next thing that happens by itself. -/
def serveOnce (respond : CompletionRequest → Except ExecutorError String) (now : Moment)
    (s : Session) : Session :=
  match s.awaited? respond with
  | none => s
  | some happening => (s.next happening now).1

/-- What a session hears that nobody interrupts. -/
def served (respond : CompletionRequest → Except ExecutorError String) (now : Moment)
    (s : Session) (n : Nat) : Happening × Moment :=
  ((((serveOnce respond now)^[n] s).awaited? respond).getD .tick, now)

theorem fst_serve (respond : CompletionRequest → Except ExecutorError String) (now : Moment)
    (fuel : Nat) (s : Session) :
    (s.serve respond now fuel).1 = (serveOnce respond now)^[fuel] s := by
  induction fuel generalizing s with
  | zero => rfl
  | succ fuel ih =>
    rw [Function.iterate_succ_apply]
    unfold serve serveOnce
    cases hawaited : s.awaited? respond with
    | none =>
      have hfixed : serveOnce respond now s = s := by simp [serveOnce, hawaited]
      exact (Function.iterate_fixed hfixed fuel).symm
    | some happening => exact ih _

theorem result?_of_awaited? (h : s.awaited? respond = none) : s.result? ≠ none := by
  unfold awaited? at h
  unfold result?
  split at h <;> simp_all

theorem awaits_of_awaited? {happening : Happening} (h : s.awaited? respond = some happening) :
    s.Awaits happening ∧ happening ≠ .interrupt := by
  unfold awaited? at h
  split at h
  case h_1 hprogress =>
    obtain rfl := Option.some.inj h
    exact ⟨hprogress, nofun⟩
  case h_2 drive wait hprogress =>
    obtain rfl := Option.some.inj h
    refine ⟨⟨drive, wait, hprogress, ?_⟩, nofun⟩
    cases wait <;> rfl
  case h_3 => cases h

theorem after_served (respond : CompletionRequest → Except ExecutorError String) (now : Moment)
    (s : Session) (n : Nat) :
    s.after (served respond now s) n = (serveOnce respond now)^[n] s := by
  induction n with
  | zero => rfl
  | succ n ih =>
    rw [after_succ, ih, Function.iterate_succ_apply']
    unfold served
    generalize (serveOnce respond now)^[n] s = t
    unfold serveOnce
    cases hawaited : t.awaited? respond with
    | none => exact congrArg Prod.fst (next_of_result? (result?_of_awaited? hawaited) _ _)
    | some happening => rfl

theorem awaits_served {n : Nat} (h : (s.after (served respond now s) n).result? = none) :
    (s.after (served respond now s) n).Awaits (served respond now s n).1 := by
  rw [after_served] at h ⊢
  unfold served
  cases hawaited : ((serveOnce respond now)^[n] s).awaited? respond with
  | none => exact absurd h (result?_of_awaited? hawaited)
  | some happening => exact (awaits_of_awaited? hawaited).1

theorem fair_served (respond : CompletionRequest → Except ExecutorError String) (now : Moment)
    (s : Session) : s.Fair (served respond now s) :=
  fun n hresult => ⟨n, Nat.le_refl n, awaits_served hresult⟩

theorem served_ne_interrupt (respond : CompletionRequest → Except ExecutorError String)
    (now : Moment) (s : Session) (n : Nat) : (served respond now s n).1 ≠ .interrupt := by
  unfold served
  cases hawaited : ((serveOnce respond now)^[n] s).awaited? respond with
  | none => nofun
  | some happening => exact (awaits_of_awaited? hawaited).2

/-- What a session waits for that nobody interrupts comes at once. -/
theorem timely_served (respond : CompletionRequest → Except ExecutorError String) (now : Moment)
    (s : Session) : Timely (served respond now s) where
  monotone _ _ _ := Nat.le_refl _
  bounded _ := Nat.lt_add_of_pos_right (by decide)

/-- A request is answered as the executor responds to it. -/
theorem served_eq_answered {n : Nat} {drive : Drive} {request : CompletionRequest}
    {limit : Duration}
    (h : (s.after (served respond now s) n).progress =
      some (.waiting drive (.answer request limit))) :
    served respond now s n = (.ended (.answered (respond request)), now) := by
  rw [after_served] at h
  simp [served, awaited?, h, answer]

theorem Mirrors.waits_pos (h : s.Mirrors config f) (hresult : s.result? = none) :
    0 < s.waits config.retryBudget := by
  have hcalls := h.calls
  unfold waits
  cases hprogress : s.progress with
  | none => exact Nat.succ_pos _
  | some progress =>
    cases progress with
    | waiting drive wait =>
      rw [hprogress] at hcalls
      exact Point.waits_pos hcalls.2.2
    | returned result => exact absurd hprogress (result?_eq_none_iff.mp hresult result)

/-- So many steps are enough to come to the end. -/
theorem Mirrors.result?_of_enough (h : s.Mirrors config f) (hprogress : s.progress = none)
    (respond : CompletionRequest → Except ExecutorError String) (now : Moment) :
    (s.after (served respond now s) (enough config.retryBudget)).result? ≠ none := by
  have hcounts : ∀ n, (s.after (served respond now s) n).result? = none →
      (s.after (served respond now s) n).waits config.retryBudget + n ≤
        enough config.retryBudget := by
    intro n
    induction n with
    | zero =>
      intro _
      simp [after, waits, hprogress]
    | succ n ih =>
      intro hresult
      have hbefore : (s.after (served respond now s) n).result? = none := by
        by_contra hended
        rw [after_eq_of_result? hended (Nat.le_succ n)] at hresult
        exact hended hresult
      have hlt := (h.waits_after_succ (served respond now s) n).2 (awaits_served hbefore)
      have hle := ih hbefore
      omega
  intro hresult
  obtain ⟨es, hmirrors, -⟩ := h.exists_after (served respond now s) (enough config.retryBudget)
  have hpos := hmirrors.waits_pos hresult
  have hle := hcounts _ hresult
  omega

end Serve

end Session

/-! ### The verdict -/

section Verdict

variable {engine : EngineConfig} {options : RunOptions}

/-- Settings in range and a positive time limit, if one is asked for, are refused for a blank task
only. -/
theorem refusal?_pipelineConfig_ne_none_iff (hcheck : engine.check = .ok ())
    (htimeout : ∀ d ∈ options.stageTimeout, 0 < d.nanoseconds) :
    (Session.pipelineConfig engine options).refusal? ≠ none ↔
      Text.trim options.task.toList = [] := by
  refine PipelineConfig.refusal?_ne_none_iff ?_
  rw [Session.stageTimeout_pipelineConfig]
  cases hgiven : options.stageTimeout with
  | some d => exact htimeout d hgiven
  | none => exact EngineConfig.stageTimeout_pos hcheck

/-- Without interrupts the executor decides whether the pipeline is completed. -/
theorem Session.completed_iff_of_follows {now : Moment} {s : Session}
    {heard : Nat → Happening × Moment} {n : Nat} {b : Behaviour} {p : Pipeline}
    (hmirrors : s.Mirrors (Session.pipelineConfig s.engine options)
      (Fleet.initial.run s.engine (Session.opening s.engine options s.id now)))
    (hfollows : s.Follows heard b) (hcalm : ∀ m < n, (heard m).1 ≠ .interrupt)
    (hp : (s.after heard n).pipeline? = some p)
    (hstatus : p.status = .completed ∨ p.status = .failed) :
    p.status = .completed ↔
      ∀ stage, b.failures stage ≤
        (Session.pipelineConfig s.engine options).retryBudget.toNat := by
  obtain ⟨es, hlast, halong⟩ := hmirrors.exists_undisturbed hfollows n hcalm
  rw [← Fleet.run_append] at hlast
  have hundisturbed := (Fleet.along_append _ _ _).mpr
    ⟨Session.undisturbed_opening s.engine options s.id now b, halong⟩
  obtain ⟨r, hget, -⟩ := hlast.record
  obtain rfl := Option.some.inj ((hlast.pipeline?_eq hget).symm.trans hp)
  rw [Session.id_after] at hget
  have hterminal : r.pipeline.status.isTerminal = true := by
    rcases hstatus with hstatus | hstatus <;> rw [hstatus] <;> rfl
  obtain ⟨houtcome, -⟩ := Fleet.outcome_of_undisturbed hundisturbed hget hterminal
  rw [← Behaviour.status_outcome_eq_completed_iff, ← houtcome]
  rfl

theorem Session.exists_error_of_refusal (id : PipelineId) (now : Moment)
    (hrefused : (Session.pipelineConfig engine options).refusal? ≠ none) :
    ∃ e, Session.start engine options id now = .error e := by
  obtain ⟨e, he⟩ := Engine.create_value_eq_error_iff.mpr hrefused
  refine ⟨e, ?_⟩
  unfold Session.start
  dsimp only
  rw [he]

/-- The program without interrupts is a session that hears what its drive waits for. -/
theorem Surroundings.run?_eq (w : Surroundings) (arithmetic : Arithmetic) (logJson : Bool)
    {settings : Settings} {s : Session} {remarks : List Remark}
    (hstart : Session.start settings.engine options w.id w.now = .ok (s, remarks)) :
    ∃ told, w.run? arithmetic logJson settings options =
      (Response.ofSession? arithmetic options.json
        (s.after (Session.served (w.respond (w.service settings.executor).1) w.now s)
          (Session.enough
            (Session.pipelineConfig settings.engine options).retryBudget))).map
              (·.after (remarksText logJson w.now.instant told)) := by
  rw [Session.after_served, ← Session.fst_serve]
  unfold run? session
  rw [hstart]
  obtain ⟨service, notices⟩ := w.service settings.executor
  dsimp only
  -- What is served is not evaluated: both sides only report on it.
  generalize Session.serve (w.respond service) w.now _ s = served
  obtain ⟨last, more⟩ := served
  exact ⟨_, rfl⟩

/-- **The verdict of a run.** With settings in range, every task that is not blank is taken up. If
what its drive waits for always comes, the session ends, whatever it hears in between, with a
pipeline that is completed or failed. On a clock that only runs forward it prints one report on this
pipeline, and the exit code is zero exactly if the pipeline is completed. (A build that checks its
sums is broken off instead if it should print text and the retries do not fit 32 bits together,
which takes a budget of a fifth of that.) An interrupt before the end makes the pipeline fail.
Without one, what is heard of the attempts is what some executor answers, and the pipeline is
completed exactly if no stage fails more often than it may be repeated. The program in its
surroundings is such a session: it hears, for every request that it sends, what the executor makes
of the reply. A blank task is refused whatever would be replied, without a report and with the exit
code one. -/
theorem Session.verdict (engine : EngineConfig) (options : RunOptions) (id : PipelineId)
    (now : Moment) (hcheck : engine.check = .ok ())
    (htimeout : ∀ d ∈ options.stageTimeout, 0 < d.nanoseconds) :
    (Text.trim options.task.toList ≠ [] →
      ∃ s remarks, Session.start engine options id now = .ok (s, remarks) ∧
        (∀ heard, s.Fair heard → ∃ n p,
          (∀ m < n, (s.after heard m).result? = none) ∧
          (∀ m, n ≤ m → (s.after heard m).result? ≠ none ∧
            (s.after heard m).pipeline? = some p) ∧
          (p.status = .completed ∨ p.status = .failed) ∧
          p.retriesSpent ≤
            Stage.count * (Session.pipelineConfig engine options).retryBudget.toNat ∧
          (Session.Timely heard → ∀ arithmetic m, n ≤ m →
            Response.ofSession? arithmetic options.json (s.after heard m) =
              if arithmetic = .wrapping ∨ options.json = true ∨ p.retriesSpent < 2 ^ 32 then
                some ⟨p.printed options.json, "", if p.status = .completed then 0 else 1⟩
              else none) ∧
          (∀ m < n, (heard m).1 = .interrupt → p.status = .failed) ∧
          ((∀ m < n, (heard m).1 ≠ .interrupt) → (∃ b, s.Follows heard b) ∧
            ∀ b, s.Follows heard b → (p.status = .completed ↔
              ∀ stage, b.failures stage ≤
                (Session.pipelineConfig engine options).retryBudget.toNat))) ∧
        ∀ (w : Surroundings) (settings : Settings), settings.engine = engine → w.id = id →
          w.now = now →
          let service := (Service.ofConfig settings.executor
            (w.environment? settings.executor.apiKeyVariable)).1
          let receive request := (Service.receive (w.exchange (service.send request))).1
          let heard := Session.served receive now s
          let n := Session.enough (Session.pipelineConfig engine options).retryBudget
          s.Fair heard ∧ Session.Timely heard ∧ (∀ m, (heard m).1 ≠ .interrupt) ∧
          (∀ m drive request limit,
            (s.after heard m).progress = some (.waiting drive (.answer request limit)) →
              heard m = (.ended (.answered (receive request)), now)) ∧
          (s.after heard n).result? ≠ none ∧
          ∀ arithmetic logJson, ∃ told, w.run? arithmetic logJson settings options =
            (Response.ofSession? arithmetic options.json (s.after heard n)).map fun r =>
              ⟨r.output, remarksText logJson now.instant told ++ r.comment, r.exitCode⟩) ∧
    (Text.trim options.task.toList = [] →
      ∃ e, Session.start engine options id now = .error e ∧
        ∀ (w : Surroundings) (arithmetic : Arithmetic) (logJson : Bool) (settings : Settings),
          settings.engine = engine → w.id = id → w.now = now →
          w.run? arithmetic logJson settings options = some (Response.ofRefusal e) ∧
            (Response.ofRefusal e).output = "" ∧ (Response.ofRefusal e).exitCode = 1) := by
  have hrefusal := refusal?_pipelineConfig_ne_none_iff hcheck htimeout
  refine ⟨fun htask => ?_, fun hblank => ?_⟩
  · have haccepted : (Session.pipelineConfig engine options).refusal? = none :=
      not_not.mp (mt hrefusal.mp htask)
    obtain ⟨s, remarks, hstart, rfl, rfl, hprogress, htimed, hmirrors⟩ :=
      Session.exists_start id now haccepted
    refine ⟨s, remarks, hstart, ?_, ?_⟩
    · intro heard hfair
      obtain ⟨n, p, hbefore, hclosed, hstatus, hinterrupt⟩ := hmirrors.exists_conclusion hfair
      have hp := (hclosed n (Nat.le_refl n)).2
      obtain ⟨es, hlast, -⟩ := hmirrors.exists_after heard n
      refine ⟨n, p, hbefore, hclosed, hstatus, hlast.retriesSpent_le hp, ?_, hinterrupt, ?_⟩
      · intro htimely arithmetic m hm
        exact hmirrors.ofSession?_after htimed htimely (hclosed m hm).2 arithmetic options.json
      · intro hcalm
        refine ⟨hmirrors.exists_follows heard, fun b hfollows => ?_⟩
        exact Session.completed_iff_of_follows hmirrors hfollows hcalm hp hstatus
    · rintro w settings hengine hid rfl
      rw [← hengine, ← hid] at hstart
      refine ⟨Session.fair_served _ w.now s, Session.timely_served _ w.now s,
        Session.served_ne_interrupt _ w.now s, ?_,
        hmirrors.result?_of_enough hprogress _ w.now, ?_⟩
      · intro m drive request limit hwaiting
        exact Session.served_eq_answered hwaiting
      · intro arithmetic logJson
        obtain ⟨told, hrun⟩ := w.run?_eq arithmetic logJson hstart
        rw [hengine] at hrun
        exact ⟨told, hrun⟩
  · obtain ⟨e, he⟩ := Session.exists_error_of_refusal id now (hrefusal.mpr hblank)
    refine ⟨e, he, ?_⟩
    rintro w arithmetic logJson settings rfl rfl rfl
    refine ⟨?_, rfl, rfl⟩
    unfold Surroundings.run? Surroundings.session
    rw [he]

end Verdict

/-- An executor that always gives the same answer. -/
theorem Session.follows_served (content : String) (now : Moment) (s : Session) :
    s.Follows (Session.served (fun _ => .ok content) now s) fun _ _ => .text content := by
  intro n drive wait signal hprogress hheard hanswered hresting
  rw [Session.after_served] at hprogress
  have hsignal : Session.answer (fun _ => .ok content) wait = signal := by
    simpa [Session.served, Session.awaited?, hprogress] using hheard
  subst hsignal
  cases wait with
  | answer request limit => rfl
  | rest delay => cases hanswered

/-- What an executor makes of an answer whose first choice is a text. -/
theorem fst_receive_twoChoices (text : String) :
    (Service.receive (.answered 200 ((Chat.twoChoices text).spaced .indented))).1 = .ok text := by
  have hcontent := Chat.content_of_isAnswer (Chat.isJson_twoChoices text .indented)
    (Chat.isAnswer_twoChoices text)
  rw [Service.receive, if_pos (by decide), hcontent]
  rfl

/-- A task whose stages are all answered at once is completed: the program prints the report of its
pipeline, and its exit code is zero. -/
theorem Session.verdict_of_answered :
    let options : RunOptions := ⟨"build", none, none, true, none, false⟩
    let now : Moment := ⟨.zero, ⟨0, 0⟩⟩
    let w : Surroundings := ⟨fun _ => none, fun _ => none,
      fun _ => .answered 200 ((Chat.twoChoices "x").spaced .indented), .ofNat 1, now⟩
    EngineConfig.initial.check = .ok () ∧ Text.trim options.task.toList ≠ [] ∧
      ∃ (s : Session) (p : Pipeline),
        s.Fair (Session.served (fun _ => .ok "x") now s) ∧
        Session.Timely (Session.served (fun _ => .ok "x") now s) ∧ p.status = .completed ∧
        ∀ arithmetic, ∃ comment, w.run? arithmetic false .initial options =
          some ⟨p.printed false, comment, 0⟩ := by
  intro options now w
  have hcheck : EngineConfig.initial.check = .ok () := rfl
  have htask : Text.trim options.task.toList ≠ [] := by decide
  obtain ⟨hrun, -⟩ := Session.verdict .initial options (.ofNat 1) now hcheck (by simp [options])
  obtain ⟨s, remarks, hstart, hends, hprogram⟩ := hrun htask
  have hreceive : (fun request => (Service.receive (w.exchange ((Service.ofConfig
      Settings.initial.executor
        (w.environment? Settings.initial.executor.apiKeyVariable)).1.send request))).1) =
      fun _ => .ok "x" := funext fun _ => fst_receive_twoChoices "x"
  have hprogram := hprogram w .initial rfl rfl rfl
  dsimp only at hprogram
  rw [hreceive] at hprogram
  obtain ⟨hfair, htimely, hcalm, -, hended, hresponse⟩ := hprogram
  obtain ⟨n, p, hbefore, hclosed, -, hretries, hprinted, -, hdecided⟩ := hends _ hfair
  have hfailures : ∀ stage, Behaviour.failures (fun _ _ => .text "x") stage = (0 : Nat) :=
    fun stage => Behaviour.failures_eq_coe_iff.mpr ⟨rfl, nofun⟩
  have hcompleted : p.status = .completed := by
    obtain ⟨-, hverdict⟩ := hdecided fun m _ => hcalm m
    rw [hverdict _ (Session.follows_served "x" now s)]
    intro stage
    rw [hfailures stage]
    simp
  have hreached : n ≤ Session.enough (Session.pipelineConfig .initial options).retryBudget :=
    Nat.le_of_not_lt fun hlt => hended (hbefore _ hlt)
  have hfits : p.retriesSpent < 2 ^ 32 := Nat.lt_of_le_of_lt hretries (by decide)
  refine ⟨hcheck, htask, s, p, hfair, htimely, hcompleted, fun arithmetic => ?_⟩
  obtain ⟨told, hrun⟩ := hresponse arithmetic false
  rw [hprinted htimely arithmetic _ hreached, if_pos (.inr (.inr hfits)), if_pos hcompleted] at hrun
  exact ⟨_, hrun⟩

end CommandLine

end StagedPipeline
