import StagedPipeline.Proofs.Driving.Undisturbed

/-!
# Interruptions do not show

A pipeline that is paused and resumed, or whose driver is given up and replaced, comes to what it
would have come to in one go, as long as nothing else disturbs it. The run without interruptions is
`Fleet.uninterrupted`: the pipeline is created and run, and its driver is left to itself until it
returns.
-/

namespace StagedPipeline

namespace Fleet

variable {engine : EngineConfig} {b : Behaviour} {config : PipelineConfig} {id : PipelineId}
  {s : Fleet} {e : Event} {es : List Event} {n : Nat}

/-- A pipeline is created and run. -/
def opening (id : PipelineId) (config : PipelineConfig) (now : Moment) : List Event :=
  [⟨.create id config, now⟩, ⟨.drive .execute id, now⟩]

/-- A pipeline is created and run, and its driver is left to itself. -/
def uninterrupted (engine : EngineConfig) (b : Behaviour) (id : PipelineId)
    (config : PipelineConfig) (now : Moment) (nows : List Moment) : List Event :=
  opening id config now ++
    (initial.run engine (opening id config now)).pursuit engine b 0 nows

theorem run_opening (engine : EngineConfig) (id : PipelineId) (now : Moment)
    (haccepted : config.refusal? = none) :
    (initial.run engine (opening id config now)).calls = [⟨id, .walking Stage.all⟩] ∧
      ∃ r, (initial.run engine (opening id config now)).store.get? id = some r ∧
        r.pipeline.status = .running := by
  have hget : (initial.next engine ⟨.create id config, now⟩).store.get? id =
      some (.ofPipeline (.pending id now.instant) config) := by
    rw [next, react_create_of_accepted engine now haccepted]
    exact Store.get?_put_self _ _
  have hcalls : (initial.next engine ⟨.create id config, now⟩).calls = [] := by
    rw [next, react_create_of_accepted engine now haccepted]
    rfl
  rw [opening, run_cons, run_cons, run_nil]
  generalize initial.next engine ⟨.create id config, now⟩ = s at hget hcalls
  rw [next, react_drive_of_undriven engine now hget rfl rfl, hcalls]
  exact ⟨rfl, _, Store.get?_set_self (by simp [hget]), rfl⟩

theorem along_uninterrupted (engine : EngineConfig) (b : Behaviour) (id : PipelineId)
    (config : PipelineConfig) (now : Moment) (nows : List Moment) :
    initial.Along engine (Undisturbed b id config)
      (uninterrupted engine b id config now nows) := by
  rw [uninterrupted, along_append]
  refine ⟨⟨⟨?_, ?_, ?_, ?_, ?_⟩, ⟨?_, ?_, ?_, ?_, ?_⟩, trivial⟩,
    undisturbed_pursuit engine b id config _ 0 nows⟩
  · simp [Event.Fresh, initial]
  · simp
  · simp [Event.Restores]
  · simp [Event.Cancels]
  · simp
  · simp [Event.Fresh]
  · simp
  · simp [Event.Restores]
  · simp [Event.Cancels]
  · simp

/-- Nothing but its only call moves the pipeline, and it neither waits for its start nor is
paused. -/
structure Underway (id : PipelineId) (s : Fleet) : Prop where
  known : (s.view id).Known
  single : s.calls.length = 1
  started : ∃ r, s.store.get? id = some r ∧ r.pipeline.status ≠ .pending ∧
    r.pipeline.status ≠ .paused

theorem length_calls_next {move : Move} {now : Moment} :
    (s.next engine ⟨.advance n move, now⟩).calls.length = s.calls.length := by
  simp only [next, react]
  split
  · rfl
  · split
    · rfl
    · exact List.length_set

theorem underway_next (he : e.IsMove) (h : s.Underway id) : (s.next engine e).Underway id := by
  obtain ⟨act, now⟩ := e
  obtain ⟨n, move, hact, hmove⟩ := he
  obtain rfl : act = .advance n move := hact
  obtain ⟨r, hget, hpending, hpaused⟩ := h.started
  have hfresh : Event.Fresh s ⟨.advance n move, now⟩ := by simp [Event.Fresh]
  rcases accounted engine hfresh h.known with ⟨hsame, -⟩ | hstep
  · refine ⟨hsame ▸ h.known, length_calls_next.trans h.single, r, ?_, hpending, hpaused⟩
    exact (congrArg View.record hsame).trans hget
  · generalize hv : (s.next engine ⟨.advance n move, now⟩).view id = v at hstep
    generalize (s.react engine ⟨.advance n move, now⟩).2 = outs at hstep
    rw [view_of_get? hget] at hstep
    cases hstep with
    | move hpoint hmoves =>
      have hstatus := hmoves.started hmove hpending hpaused
      have hrecord := congrArg View.record hv
      refine ⟨?_, length_calls_next.trans h.single, _, hrecord, hstatus⟩
      rw [hv]
      simp [View.Known]

theorem sound_opening (engine : EngineConfig) (id : PipelineId) (config : PipelineConfig)
    (now : Moment) : ((initial.run engine (opening id config now)).view id).Sound := by
  have hopening : initial.Along engine (fun s e => e.Fresh s) (opening id config now) := by
    refine ⟨?_, ?_, trivial⟩ <;> simp [Event.Fresh, initial]
  exact hopening.preserves (fun _ _ he => sound_next he) (sound_initial id)

theorem underway_uninterrupted (engine : EngineConfig) (b : Behaviour) (id : PipelineId)
    (now : Moment) (nows : List Moment) (haccepted : config.refusal? = none) :
    (initial.run engine (uninterrupted engine b id config now nows)).Underway id := by
  obtain ⟨hcalls, r, hget, hrunning⟩ := run_opening engine id now haccepted
  have hopening : (initial.run engine (opening id config now)).Underway id :=
    ⟨(sound_opening engine id config now).known, by rw [hcalls]; rfl, r, hget, by simp [hrunning],
      by simp [hrunning]⟩
  have hmoves : (initial.run engine (opening id config now)).Along engine (fun _ e => e.IsMove)
      ((initial.run engine (opening id config now)).pursuit engine b 0 nows) :=
    along_pursuit_isMove nows
  rw [uninterrupted, run_append]
  exact hmoves.preserves (fun _ _ he => underway_next he) hopening

/-- The uninterrupted run comes to an end, at which its call has returned. -/
theorem exists_end (engine : EngineConfig) (b : Behaviour) (id : PipelineId) (now : Moment)
    (haccepted : config.refusal? = none) :
    ∃ k, ∀ nows : List Moment, k ≤ nows.length →
      ∃ r result,
        (initial.run engine (uninterrupted engine b id config now nows)).store.get? id = some r ∧
        r.pipeline.status.isTerminal = true ∧
        (initial.run engine (uninterrupted engine b id config now nows)).calls =
          [⟨id, .returned result⟩] := by
  refine ⟨(Point.walking Stage.all).rank, ?_⟩
  intro nows hlong
  obtain ⟨hopened, -⟩ := run_opening engine id now haccepted
  have hcall : (initial.run engine (opening id config now)).calls[0]? =
      some ⟨id, .walking Stage.all⟩ := by rw [hopened]; rfl
  obtain ⟨result, hreturned⟩ := returns_of_pursuit engine b hcall rfl
    (sound_opening engine id config now) hlong
  rw [← run_append] at hreturned
  obtain ⟨-, hsingle, r, hget, hpending, hpaused⟩ :=
    underway_uninterrupted engine b id now nows haccepted
  have hcalls : (initial.run engine (uninterrupted engine b id config now nows)).calls =
      [⟨id, .returned result⟩] := by
    obtain ⟨call, hcall⟩ := List.length_eq_one_iff.mp hsingle
    rw [hcall]
    rw [← uninterrupted, hcall] at hreturned
    rw [Option.some.inj hreturned]
  refine ⟨r, result, hget, ?_, hcalls⟩
  obtain ⟨hfaithful, -⟩ := traced_of_along (along_uninterrupted engine b id config now nows)
  have hsole := hfaithful.regular.sole
  have hidle : r.driven = false := by
    refine hsole.driven_eq_false hget ?_
    rintro n ⟨p, hp, hlive⟩
    rw [points_view_eq_some_iff, hcalls] at hp
    cases n with
    | zero =>
      obtain rfl := congrArg Call.point (Option.some.inj hp)
      contradiction
    | succ n => contradiction
  exact (hsole.consistent r hget).isTerminal hidle hpending hpaused

/-- A run in which a pipeline is interrupted, at whatever points and however often, and that has
brought it to its end, has brought it where the uninterrupted run brings it; and if no driver was
given up, the executor has received the same requests in the same order. -/
theorem interruptions_do_not_show (hes : initial.Along engine (Undisturbed b id config) es)
    {r : PipelineRecord} (hget : (initial.run engine es).store.get? id = some r)
    (hterminal : r.pipeline.status.isTerminal = true) (now : Moment) :
    ∃ k, ∀ nows : List Moment, k ≤ nows.length →
      ∃ r' result,
        (initial.run engine (uninterrupted engine b id config now nows)).store.get? id = some r' ∧
        (initial.run engine (uninterrupted engine b id config now nows)).calls =
          [⟨id, .returned result⟩] ∧
        r'.pipeline.status.isTerminal = true ∧
        r.pipeline.outcome = r'.pipeline.outcome ∧
        ((∀ n : Nat, (initial.run engine es).calls[n]? ≠ some ⟨id, .dropped⟩) →
          requestsFor id (initial.emitted engine es) =
            requestsFor id
              (initial.emitted engine (uninterrupted engine b id config now nows))) := by
  obtain ⟨hfaithful, -⟩ := traced_of_along hes
  obtain ⟨-, haccepted, -⟩ := hfaithful.record r hget
  obtain ⟨houtcome, hrequests⟩ := outcome_of_undisturbed hes hget hterminal
  obtain ⟨k, hend⟩ := exists_end engine b id now haccepted
  refine ⟨k, fun nows hlong => ?_⟩
  obtain ⟨r', result, hget', hterminal', hcalls⟩ := hend nows hlong
  obtain ⟨houtcome', hrequests'⟩ := outcome_of_undisturbed
    (along_uninterrupted engine b id config now nows) hget' hterminal'
  have hkept : ∀ n : Nat,
      (initial.run engine (uninterrupted engine b id config now nows)).calls[n]? ≠
        some ⟨id, .dropped⟩ := by
    intro n
    rw [hcalls]
    cases n <;> simp
  refine ⟨r', result, hget', hcalls, hterminal', houtcome.trans houtcome'.symm, ?_⟩
  intro hkept₀
  rw [hrequests hkept₀, hrequests' hkept]

/-- An executor that answers every request but those for the design. -/
def withoutDesign : Behaviour := fun stage _ => if stage = .design then .silence else .text ""

/-- A pipeline is paused while its first stage is worked on, and then resumed by a new driver, at
whose first stage there is no answer. -/
def pausedRun (id : PipelineId) (config : PipelineConfig) (now : Moment) : List Event :=
  [.create id config, .drive .execute id, .advance 0 .proceed, .pause id,
    .advance 0 (.hear (.answered (.ok ""))), .advance 0 .proceed, .advance 0 .proceed,
    .drive .resume id, .advance 1 .proceed, .advance 1 .proceed, .advance 1 (.hear .timedOut),
    .advance 1 .proceed].map (⟨·, now⟩)

theorem along_pausedRun :
    initial.Along .initial
      (Undisturbed withoutDesign (.ofNat 1) singleAttempt)
      (pausedRun (.ofNat 1) singleAttempt ⟨.zero, ⟨0, 0⟩⟩) := by
  simp only [pausedRun, List.map_cons, List.map_nil, along_cons, along_nil, and_true]
  refine ⟨?_, ?_, ?_, ?_, ?_, ?_, ?_, ?_, ?_, ?_, ?_, ?_⟩ <;>
    refine ⟨by simp [Event.Fresh, initial], by simp, by simp [Event.Restores],
      by simp [Event.Cancels], ?_⟩ <;>
    rintro n move p hact hp trial wait signal rfl rfl - - <;>
    cases hact <;> cases hp <;> rfl

theorem calls_pausedRun : ∃ result₀ result₁,
    (initial.run .initial (pausedRun (.ofNat 1) singleAttempt ⟨.zero, ⟨0, 0⟩⟩)).calls =
      [⟨.ofNat 1, .returned result₀⟩, ⟨.ofNat 1, .returned result₁⟩] :=
  ⟨_, _, rfl⟩

/-- The paused run comes to the same end as the uninterrupted one, with the same requests. -/
theorem pausedRun_does_not_show :
    ∃ r, (initial.run .initial
        (pausedRun (.ofNat 1) singleAttempt ⟨.zero, ⟨0, 0⟩⟩)).store.get? (.ofNat 1) = some r ∧
      r.pipeline.status = .failed ∧
      ∃ k, ∀ nows : List Moment, k ≤ nows.length →
        ∃ r', (initial.run .initial
            (uninterrupted .initial withoutDesign (.ofNat 1) singleAttempt ⟨.zero, ⟨0, 0⟩⟩
              nows)).store.get? (.ofNat 1) = some r' ∧
          r.pipeline.outcome = r'.pipeline.outcome ∧
          requestsFor (.ofNat 1) (initial.emitted .initial
              (pausedRun (.ofNat 1) singleAttempt ⟨.zero, ⟨0, 0⟩⟩)) =
            requestsFor (.ofNat 1) (initial.emitted .initial
              (uninterrupted .initial withoutDesign (.ofNat 1) singleAttempt ⟨.zero, ⟨0, 0⟩⟩
                nows)) := by
  refine ⟨_, rfl, rfl, ?_⟩
  obtain ⟨k, hend⟩ := interruptions_do_not_show along_pausedRun rfl rfl ⟨.zero, ⟨0, 0⟩⟩
  refine ⟨k, fun nows hlong => ?_⟩
  obtain ⟨r', -, hget, -, -, houtcome, hrequests⟩ := hend nows hlong
  refine ⟨r', hget, houtcome, hrequests ?_⟩
  obtain ⟨result₀, result₁, hcalls⟩ := calls_pausedRun
  intro n
  rw [hcalls]
  match n with
  | 0 | 1 | n + 2 => simp

end Fleet

end StagedPipeline
