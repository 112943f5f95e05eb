import StagedPipeline.Proofs.Simulation.Setup
import StagedPipeline.Proofs.Simulation.Traffic
import StagedPipeline.Simulation.Run

/-!
# A script is followed

What the traffic of an executor comes to (`Traffic.Scripted`) holds however the executor was set up
and whatever happened (`Traffic.scripted_run`). A call that is polled whenever it may go on has its
answer when the delays of its outcome are over (`Traffic.alwaysAnswers`), which is what a rehearsal
makes of it (`Play.exists_answers_call`).
-/

namespace StagedPipeline.Simulation

namespace Traffic

open ScriptedExecutor

variable {e : ScriptedExecutor} {t : Traffic} {number : Nat} {visit : Visit}

/-! ### Coming to the answer -/

/-- Nothing happens but that time passes and a call is polled. -/
def Event.AwaitsOnly (number : Nat) : Event → Prop
  | poll other => other = number
  | pass _ => True
  | _ => False

theorem onWaiting_of_waiting {c : Call} (hvisit : t.visits[number]? = some visit)
    (hstanding : visit.standing = .waiting c) (f : Visit → Call → Traffic) :
    t.onWaiting number f = f visit c := by
  unfold onWaiting
  rw [hvisit]
  dsimp only
  rw [hstanding]

/-- A call that sleeps and is polled when it may wake follows its outcome from then on. -/
theorem react_poll_asleep {stage : Stage} {wake : Nat} {next : Outcome}
    (hvisit : t.visits[number]? = some visit)
    (hstanding : visit.standing = .waiting (.asleep stage wake next)) (hwake : wake ≤ t.now) :
    t.react (.poll number) =
      { t with
        visits := t.visits.set number
          ⟨visit.prompt, .ofProgress t.now (next.follow stage t.now),
            visit.overslept + (t.now - wake)⟩ } := by
  rw [react, onWaiting_of_waiting hvisit hstanding, proceed_asleep, if_pos hwake]

/-- What becomes of a call that is polled whenever it may go on, while nothing else happens: it
comes to its answer. -/
structure Answers (t : Traffic) (number : Nat) (visit : Visit) (more : List Event) : Prop where
  only : ∀ event ∈ more, event.AwaitsOnly number
  visit : (t.run more).visits[number]? = some visit
  executor : (t.run more).executor = t.executor
  passages : (t.run more).passages = t.passages

/-- A call comes to the answer of its outcome when the sum of the delays is over, if it follows the
outcome now and is polled whenever it may go on. -/
def AlwaysAnswers (number : Nat) (stage : Stage) (outcome : Outcome) : Prop :=
  ∀ (t : Traffic) (prompt : String) (overslept : Nat),
    t.visits[number]? = some ⟨prompt, .ofProgress t.now (outcome.follow stage t.now), overslept⟩ →
    ∃ more, t.Answers number
      ⟨prompt, .answered (outcome.answer stage) (t.now + outcome.totalDelay), overslept⟩ more

/-- A call that sleeps is left alone until it wakes, and then goes on. -/
theorem AlwaysAnswers.of_asleep {stage : Stage} {wake : Nat} {next : Outcome}
    (hnext : AlwaysAnswers number stage next) (hvisit : t.visits[number]? = some visit)
    (hstanding : visit.standing = .waiting (.asleep stage wake next)) :
    ∃ more, t.Answers number
      ⟨visit.prompt, .answered (next.answer stage) (max t.now wake + next.totalDelay),
        visit.overslept + (t.now - wake)⟩ more := by
  let later := t.react (.pass (wake - t.now))
  have hnow : later.now = max t.now wake := by
    change t.now + (wake - t.now) = _
    omega
  have hreact : later.react (.poll number) = _ :=
    react_poll_asleep hvisit hstanding (hnow ▸ Nat.le_max_right ..)
  have hlate : later.now - wake = t.now - wake := by omega
  rw [hlate] at hreact
  obtain ⟨more, hanswers⟩ := hnext (later.react (.poll number)) visit.prompt
    (visit.overslept + (t.now - wake)) (by
      rw [hreact]
      exact List.getElem?_set_self (List.getElem?_eq_some_iff.mp hvisit).1)
  have hnow' : (later.react (.poll number)).now = max t.now wake := by rw [hreact, hnow]
  rw [hnow'] at hanswers
  refine ⟨.pass (wake - t.now) :: .poll number :: more, ?_, hanswers.visit, ?_, ?_⟩
  · rintro event (_ | ⟨_, _ | ⟨_, hevent⟩⟩)
    · trivial
    · exact rfl
    · exact hanswers.only event hevent
  · exact hanswers.executor.trans (hreact ▸ rfl)
  · exact hanswers.passages.trans (hreact ▸ rfl)

/-- The induction is on the outcome: a delay is slept through, and one that takes no time is not
noticed. -/
theorem alwaysAnswers (number : Nat) (stage : Stage) (outcome : Outcome) :
    AlwaysAnswers number stage outcome := by
  induction outcome with
  | succeed text => exact fun t prompt overslept h => ⟨[], nofun, h, rfl, rfl⟩
  | canned => exact fun t prompt overslept h => ⟨[], nofun, h, rfl, rfl⟩
  | fail error => exact fun t prompt overslept h => ⟨[], nofun, h, rfl, rfl⟩
  | delay time inner ih =>
    intro t prompt overslept h
    rw [Outcome.follow] at h
    split at h
    · rename_i htime
      rw [Outcome.totalDelay, htime, Nat.zero_add]
      exact ih t prompt overslept h
    · have hmax : max t.now (t.now + time) + inner.totalDelay =
          t.now + (time + inner.totalDelay) := by omega
      have hlate : overslept + (t.now - (t.now + time)) = overslept := by omega
      have hanswers := ih.of_asleep h rfl
      rw [hmax, hlate] at hanswers
      exact hanswers

/-! ### Gates, and calls that are given up -/

/-- A call gets past its gate when it is polled after it has been let through, and not before. -/
theorem passages_poll_gated {stage : Stage} {ticket : Nat}
    (hvisit : t.visits[number]? = some visit)
    (hstanding : visit.standing = .waiting (.gated stage ticket)) :
    (t.react (.poll number)).passages =
      t.passages ++ if t.executor.isReady t.now (.gated stage ticket) then [⟨number, stage, t.now⟩]
        else [] := by
  rw [react, onWaiting_of_waiting hvisit hstanding]
  unfold Traffic.proceed ScriptedExecutor.poll
  cases t.executor.isReady t.now (.gated stage ticket) with
  | false => rfl
  | true =>
    refine congrArg (t.passages ++ ·) ?_
    dsimp only [Call.isHeld, if_true, ScriptedExecutor.proceed, Call.stage]
    rw [if_pos rfl, if_pos rfl, (served_serve _ stage t.now).2, passing, Standing.isHeld_follow]
    rfl

/-- A call that is given up takes nothing, and gets past no gate. -/
theorem alike_drop (t : Traffic) (number : Nat) :
    t.executor.Alike (t.react (.drop number)).executor ∧
      (t.react (.drop number)).passages = t.passages := by
  rw [react, onWaiting]
  split
  · exact ⟨.refl _, rfl⟩
  · split
    · exact ⟨alike_abandon _ _, rfl⟩
    · exact ⟨.refl _, rfl⟩

/-! ### The script is followed -/

/-- Traffic of an executor that was set up by some steps, after some events. -/
structure Scripted (setups : List Setup) (events : List Event) (t : Traffic) : Prop where
  /-- The calls are those that were made. -/
  made : t.visits.map (·.prompt) = events.filterMap Event.prompt?
  /-- The log lists the stages of all calls that are for one. -/
  logged : t.executor.calls = (events.filterMap Event.prompt?).filterMap stageOf?
  /-- A call that names no role is refused. -/
  refused : ∀ number (visit : Visit), t.visits[number]? = some visit →
    (∀ stage, ¬ Names visit.prompt stage) →
    (∃ time, visit.standing =
      .answered (.error (.invalidResponse "unrecognised stage prompt")) time) ∧
    ∀ passage ∈ t.passages, passage.number ≠ number
  /-- A call that is held at a gate, or was given up there, has taken nothing. -/
  held : ∀ number (visit : Visit) stage, t.visits[number]? = some visit →
    visit.stage? = some stage → visit.standing.isHeld = true →
    .gated stage ∈ setups ∧ ∀ passage ∈ t.passages, passage.number ≠ number
  /-- Any other call has made a passage, and has taken the outcome in the place of its passage among
  those of its stage. -/
  passed : ∀ number (visit : Visit) stage, t.visits[number]? = some visit →
    visit.stage? = some stage → visit.standing.isHeld = false →
    ∃ k time, (passagesFor t.passages stage)[k]? = some ⟨number, stage, time⟩ ∧
      visit.standing.Leads stage (Setup.outcomeAt setups stage k)
        (time + (Setup.outcomeAt setups stage k).totalDelay + visit.overslept)
  /-- Every passage was made by one of the calls. -/
  caller : ∀ passage ∈ t.passages,
    ∃ visit, t.visits[passage.number]? = some visit ∧ visit.stage? = some passage.stage
  /-- No call makes more than one passage. -/
  once : (t.passages.map (·.number)).Nodup
  /-- As many outcomes of a stage are gone as passages were made in the stage. -/
  script : ∀ stage, t.executor.scripts.get stage =
    (setups.flatMap (Setup.outcomes stage)).drop (passagesFor t.passages stage).length
  fallback : t.executor.fallback = (setups.filterMap Setup.fallback?).getLast?

theorem outcomeAt_executor (setups : List Setup) (stage : Stage) (k : Nat) :
    (Setup.executor setups).outcomeAt stage k = Setup.outcomeAt setups stage k := by
  rw [outcomeAt, Setup.scripts_executor, Setup.fallback_executor, Setup.outcomeAt]

/-- Traffic that is in order follows the script. -/
theorem Orderly.scripted {setups : List Setup} {events : List Event}
    (h : t.Orderly (Setup.executor setups))
    (hmade : t.visits.map (·.prompt) = events.filterMap Event.prompt?) :
    t.Scripted setups events where
  made := hmade
  logged := by rw [h.calls, hmade, Setup.calls_executor, List.nil_append]
  refused number visit hvisit hnames := by
    have hstage : visit.stage? = none := stageOf?_eq_none_iff.mpr hnames
    cases h.fits number visit hvisit with
    | refused time _ hstanding hnone => exact ⟨⟨time, hstanding⟩, hnone⟩
    | held stage ticket hstage' => simp [hstage] at hstage'
    | passed stage k time hstage' => simp [hstage] at hstage'
  held number visit stage hvisit hstage hheld := by
    rcases (h.fits number visit hvisit).held_or_passed hstage with ⟨-, hgate, hnone⟩ | ⟨hpast, -⟩
    · exact ⟨(Setup.isSome_gate_executor setups stage).mp hgate, hnone⟩
    · exact absurd hheld (Bool.eq_false_iff.mp hpast)
  passed number visit stage hvisit hstage hpast := by
    rcases (h.fits number visit hvisit).held_or_passed hstage with ⟨hheld, -⟩ | ⟨-, k, time, hfits⟩
    · exact absurd hheld (Bool.eq_false_iff.mp hpast)
    · exact ⟨k, time, outcomeAt_executor setups stage k ▸ hfits⟩
  caller := h.made
  once := h.once
  script stage := Setup.scripts_executor setups stage ▸ h.supplied.scripts stage
  fallback := h.supplied.fallback.trans (Setup.fallback_executor setups)

/-- **The script is followed.** However an executor is set up, and whatever happens: the traffic
follows the script. A call that names no role is refused and changes nothing else, and the role that
counts is the first one in the order of the stages. A call that is given up leaves log and scripts
as they are. A call at a gate gets past it when it is polled after it has been let through. A call
that sleeps comes to its answer when the sum of its delays is over, if it is polled whenever it may
go on. -/
theorem scripted_run (setups : List Setup) (now : Nat) (events : List Event) :
    let t := (start (Setup.executor setups) now).run events
    t.Scripted setups events ∧
      (∀ prompt, (∀ stage, ¬ Names prompt stage) → t.react (.call prompt) =
        { t with
          visits := t.visits ++ [⟨prompt,
            .answered (.error (.invalidResponse "unrecognised stage prompt")) t.now, 0⟩] }) ∧
      (∀ prompt stage, stageOf? prompt = some stage ↔
        Names prompt stage ∧ ∀ other, other < stage → ¬ Names prompt other) ∧
      (∀ number, t.executor.Alike (t.react (.drop number)).executor ∧
        (t.react (.drop number)).passages = t.passages) ∧
      ∀ number visit, t.visits[number]? = some visit →
        (∀ stage ticket, visit.standing = .waiting (.gated stage ticket) →
          (t.react (.poll number)).passages =
            t.passages ++
              if t.executor.isReady t.now (.gated stage ticket) then [⟨number, stage, t.now⟩]
              else []) ∧
        ∀ stage wake next, visit.standing = .waiting (.asleep stage wake next) →
          ∃ more, t.Answers number
            ⟨visit.prompt, .answered (next.answer stage) (max t.now wake + next.totalDelay),
              visit.overslept + (t.now - wake)⟩ more := by
  intro t
  have horderly : t.Orderly (Setup.executor setups) := orderly_run _ now events
  refine ⟨horderly.scripted (map_prompt_run _ now events), ?_, fun _ _ => stageOf?_eq_some_iff,
    alike_drop t, ?_⟩
  · intro prompt hnone
    exact enter_of_none (stageOf?_eq_none_iff.mpr hnone)
  · intro number visit hvisit
    exact ⟨fun _ _ hstanding => passages_poll_gated hvisit hstanding,
      fun stage _ next hstanding => (alwaysAnswers number stage next).of_asleep hvisit hstanding⟩

/-- An executor with a failure, a gate and a fallback of two delays. -/
def rehearsal : List Setup :=
  [.failing .requirements 1 "down", .gated .testing, .script .testing [.succeed "a", .succeed "b"],
    .fallback (.delay 100 (.delay 50 .canned))]

/-- A failure, a call that is given up at the gate and one that gets past it, a refusal, a call that
oversleeps, and one that is given up in a delay. -/
def rehearsed : List Event :=
  [.call "Requirements Analyst", .call "QA Engineer", .call "QA Engineer", .drop 1,
    .atGate .testing fun gate => { gate with release := gate.release.ring }, .poll 2,
    .call "Nobody", .call "Requirements Analyst", .pass 110, .poll 4, .call "Software Architect",
    .pass 50, .poll 4, .drop 5]

theorem scripted_rehearsed :
    let t := (start (Setup.executor rehearsal) 0).run rehearsed
    t.Scripted rehearsal rehearsed ∧
      t.visits.map (·.standing) =
        [.answered (.error (.other "down")) 0, .dropped (.gated .testing 1), .answered (.ok "a") 0,
          .answered (.error unrecognised) 0,
          .answered (.ok Stage.requirements.cannedResponse) 160,
          .dropped (.asleep .design 210 (.delay 50 .canned))] ∧
      t.executor.calls = [.requirements, .testing, .testing, .requirements, .design] ∧
      t.passages =
        [⟨0, .requirements, 0⟩, ⟨2, .testing, 0⟩, ⟨4, .requirements, 0⟩, ⟨5, .design, 110⟩] :=
  ⟨(scripted_run rehearsal 0 rehearsed).1, rfl, rfl, rfl⟩

end Traffic

/-! ### Rehearsed calls -/

namespace Play

open Traffic

variable {prompt : String} (w : World)

theorem call_of_none (h : stageOf? prompt = none) :
    w.play (Play.call prompt) = (.error ScriptedExecutor.unrecognised, w) := by
  unfold World.play Play.call
  rw [h]
  rfl

theorem call_of_some {stage : Stage} (h : stageOf? prompt = some stage) :
    w.play (Play.call prompt) =
      let (executor, outcome) := (w.executor.note stage).take stage
      (outcome.answer stage, { w with executor, now := w.now + outcome.totalDelay }) := by
  unfold World.play Play.call
  rw [h]
  rfl

/-- What a rehearsal makes of a call, if there are no gates, is what becomes of it in traffic when
it is polled whenever it may go on. -/
theorem exists_answers_call (prompt : String)
    (hgates : ∀ stage, w.executor.gates.get stage = none) :
    let (answer, w') := w.play (Play.call prompt)
    let t := (start w.executor w.now).react (.call prompt)
    t.executor = w'.executor ∧ ∃ more, t.Answers 0 ⟨prompt, .answered answer w'.now, 0⟩ more := by
  cases hstage : stageOf? prompt with
  | none =>
    rw [call_of_none w hstage, react, enter_of_none hstage]
    exact ⟨rfl, [], nofun, rfl, rfl, rfl⟩
  | some stage =>
    have hungated : (w.executor.note stage).gates.get stage = none := hgates stage
    rw [call_of_some w hstage, react, enter_of_some hstage]
    dsimp only [start, List.nil_append, List.length_nil]
    rw [ScriptedExecutor.enter_of_ungated hungated]
    exact ⟨rfl, alwaysAnswers 0 stage _ _ prompt 0 rfl⟩

end Play

end StagedPipeline.Simulation
