import StagedPipeline.CommandLine.Session
import StagedPipeline.Proofs.Driving.Cancellation
import StagedPipeline.Proofs.Driving.Polling
import StagedPipeline.Proofs.Driving.Undisturbed

/-!
# Sessions as runs of an engine

A session is an engine with a single pipeline and a single call, and what it hears becomes a run of
that engine: an interrupt is a cancel, and what the drive waits for is heard by the call, which then
looks at the store until it waits again or returns (`Session.Mirrors.exists_run`). So what holds
along the runs of an engine holds of sessions. `Point.waits` bounds how often the call has still to
wait; it goes down whenever the session hears what its drive waits for, and nothing else raises it.
-/

namespace StagedPipeline

/-- Whether a wait is a rest, and not one for an answer. -/
def Wait.isRest : Wait → Bool
  | answer _ _ => false
  | rest _ => true

/-! ### How often a call waits -/

/-- The waits that a stage can take: one for every attempt, and a rest in front of each but the
first. -/
def stageWaits (budget : UInt32) : Nat := 2 * (budget.toNat + 1)

namespace Point

/-- Where a call can stand that works with some settings: the stages ahead are the last ones, the
attempts are within the budget, and it waits as its trial says. -/
def Served (config : PipelineConfig) : Point → Prop
  | walking ahead => ∃ k, ahead = Stage.all.drop k
  | waiting trial wait =>
    trial.WithinBudget ∧ trial.attempt.config = config ∧ wait.isRest = trial.resting
  | _ => True

/-- A bound on the waits of a call until it ends, the present one included. -/
def waits (budget : UInt32) : Point → Nat
  | walking ahead => ahead.length * stageWaits budget
  | waiting trial _ =>
    trial.attempt.stage.after.length * stageWaits budget +
      2 * (budget.toNat - trial.count.toNat) + if trial.resting then 0 else 1
  | settling result => result.stage.after.length * stageWaits budget
  | returned _ => 0
  | dropped => 0

theorem Served.sound {config : PipelineConfig} {p : Point} (h : p.Served config) : p.Sound := by
  cases p with
  | walking ahead => exact h
  | waiting trial wait => exact h.1
  | _ => trivial

/-- A call that waits is not at its end. -/
theorem waits_pos {config : PipelineConfig} {trial : Trial} {wait : Wait}
    (h : (waiting trial wait).Served config) :
    0 < (waiting trial wait).waits config.retryBudget := by
  obtain ⟨hbudget, hconfig, -⟩ := h
  simp only [waits]
  split
  case isTrue hresting =>
    have hlt : trial.count.toNat < config.retryBudget.toNat := by
      rw [← hconfig]
      exact UInt32.lt_iff_toNat_lt.mp (hbudget.resting hresting)
    omega
  case isFalse => omega

end Point

section Moves

variable {engine : EngineConfig} {id : PipelineId} {r r' : PipelineRecord} {p p' : Point}
  {move : Move} {config : PipelineConfig}

theorem Trial.Step.served {trial : Trial} {now : Duration} {signal : Signal} {wait : Wait}
    {progress : Trial.Progress} (hstep : trial.Step (.ofEngine engine) now signal progress)
    (h : (Point.waiting trial wait).Served config) : (Point.ofTrial progress).Served config := by
  obtain ⟨hbudget, hconfig, -⟩ := h
  cases progress with
  | waiting trial' wait' =>
    refine ⟨hbudget.of_step hstep, hstep.attempt_eq ▸ hconfig, ?_⟩
    cases hstep <;> rfl
  | finished result => trivial

/-- Hearing what it waits for brings a call nearer to its end. -/
theorem Trial.Step.waits_lt {trial : Trial} {now : Duration} {signal : Signal} {wait : Wait}
    {progress : Trial.Progress} (hstep : trial.Step (.ofEngine engine) now signal progress)
    (h : (Point.waiting trial wait).Served config) :
    (Point.ofTrial progress).waits config.retryBudget <
      (Point.waiting trial wait).waits config.retryBudget := by
  obtain ⟨hbudget, hconfig, -⟩ := h
  cases hstep with
  | succeed hresting =>
    simp only [Point.ofTrial, Point.waits, Trial.success, hresting, Bool.false_eq_true, if_false]
    omega
  | exhaust hresting hfailure hspent =>
    simp only [Point.ofTrial, Point.waits, Trial.failure, hresting, Bool.false_eq_true, if_false]
    omega
  | rest hresting hfailure hleft =>
    simp only [Point.ofTrial, Point.waits, hresting, Bool.false_eq_true, if_false, if_true]
    omega
  | again hresting =>
    have hlt := hbudget.resting hresting
    have hnext := Trial.toNat_count_succ hlt
    rw [hconfig] at hlt
    have hlt' : trial.count.toNat < config.retryBudget.toNat := UInt32.lt_iff_toNat_lt.mp hlt
    simp only [Point.ofTrial, Point.waits, hresting, hnext, Bool.false_eq_true, if_false, if_true]
    omega

/-- A call that goes on stands where a call can stand. -/
theorem Moves.served (h : Moves engine id r p move r' p') (hconfig : r.config = config)
    (hp : p.Served config) : p'.Served config := by
  cases h with
  | skip hpaused hfailed hdone =>
    obtain ⟨k, hahead⟩ := hp
    exact ⟨_, (Stage.drop_eq_cons_iff.mp hahead.symm).2⟩
  | begin now hpaused hfailed hopen => exact ⟨⟨by simp, by simp⟩, hconfig, rfl⟩
  | record now hfailed hsuccess => exact ⟨_, rfl⟩
  | hear hresume => exact (Trial.Step.of_resume hresume).served hp
  | _ => trivial

/-- A look at the store does not take a call further from its end. -/
theorem Moves.waits_le (h : Moves engine id r p .proceed r' p') (hp : p.Served config) :
    p'.waits config.retryBudget ≤ p.waits config.retryBudget := by
  cases h with
  | skip hpaused hfailed hdone =>
    simp only [Point.waits, List.length_cons, Nat.succ_mul]
    omega
  | begin now hpaused hfailed hopen =>
    obtain ⟨k, hahead⟩ := hp
    obtain ⟨-, hafter⟩ := Stage.drop_eq_cons_iff.mp hahead.symm
    simp only [Point.waits, List.length_cons, Nat.succ_mul, hafter, UInt32.toNat_zero,
      Bool.false_eq_true, if_false, stageWaits]
    omega
  | record now hfailed hsuccess => exact Nat.le_refl _
  | _ => exact Nat.zero_le _

end Moves

namespace Fleet

variable {engine : EngineConfig} {config : PipelineConfig} {id : PipelineId} {s : Fleet}
  {now : Moment} {k : Nat}

/-- An engine with a single call, at work on a pipeline that has been started and is not paused. It
ends after at most so many waits. -/
structure Attends (config : PipelineConfig) (id : PipelineId) (k : Nat) (s : Fleet) : Prop where
  record : ∃ r, s.store.get? id = some r ∧ r.config = config ∧ r.pipeline.status ≠ .pending ∧
    r.pipeline.status ≠ .paused
  call : ∃ p, s.calls = [⟨id, p⟩] ∧ p.Served config ∧ p.waits config.retryBudget ≤ k

/-- The call of such an engine makes a move. -/
theorem Attends.next_advance {move : Move} {p : Point} (h : s.Attends config id k)
    (hcalls : s.calls = [⟨id, p⟩]) (hmove : move ≠ .drop) {store : Store} {p' : Point}
    (hadvance : p.advance engine id move now s.store = some (store, p')) :
    (move = .proceed → p'.waits config.retryBudget ≤ p.waits config.retryBudget) ∧
      (s.next engine ⟨.advance 0 move, now⟩).Attends config id (p'.waits config.retryBudget) := by
  obtain ⟨r, hget, hconfig, hpending, hpaused⟩ := h.record
  obtain ⟨q, hq, hserved, -⟩ := h.call
  obtain rfl : q = p := by simpa [hcalls] using hq.symm
  obtain ⟨r', hmoves, hget'⟩ := Moves.of_advance hget hadvance
  have hserved' := hmoves.served hconfig hserved
  have hstarted := hmoves.started hmove hpending hpaused
  have hcall : s.calls[0]? = some ⟨id, q⟩ := by rw [hcalls]; rfl
  rw [Fleet.next_advance hcall hadvance]
  refine ⟨?_, ⟨r', hget', hmoves.config_eq.trans hconfig, hstarted⟩, p', ?_, hserved',
    Nat.le_refl _⟩
  · rintro rfl
    exact hmoves.waits_le hserved
  · rw [hcalls]
    rfl

/-- Looks at the store do not take the call further from its end. -/
theorem Attends.run_proceeds (h : s.Attends config id k) (engine : EngineConfig) (now : Moment)
    (n : Nat) :
    (s.run engine (proceeds 0 now n)).Attends config id k := by
  induction n generalizing s with
  | zero => exact h
  | succ n ih =>
    refine ih ?_
    obtain ⟨p, hcalls, hserved, hwaits⟩ := h.call
    cases hadvance : p.advance engine id .proceed now s.store with
    | none =>
      have hnext : s.next engine ⟨.advance 0 .proceed, now⟩ = s := by
        simp [next, react, hcalls, hadvance]
      rw [hnext]
      exact h
    | some result =>
      obtain ⟨store, p'⟩ := result
      have hmove : Move.proceed ≠ .drop := by rintro ⟨⟩
      obtain ⟨hle, hattends⟩ := h.next_advance hcalls hmove hadvance
      obtain ⟨q, hq, hserved', hq'⟩ := hattends.call
      exact ⟨hattends.record, q, hq, hserved', Nat.le_trans hq' (Nat.le_trans (hle rfl) hwaits)⟩

end Fleet

/-! ### The drives of a pipeline -/

/-- What an effect leaves waiting is a drive of the pipeline. -/
def Effect.IsOf (id : PipelineId) (e : Effect Progress) : Prop :=
  ∀ drive wait, e.value = .waiting drive wait → drive.id = id

/-- The store after a call that asks to drive a pipeline and is refused. -/
theorem Engine.store_start_of_error {engine : EngineConfig} {entry : PipelineRecord.Entry}
    {id : PipelineId} {store : Store} {r : PipelineRecord} {e : PipelineError} (now : Moment)
    (hget : store.get? id = some r)
    (h : PipelineRecord.entryError? entry id r.pipeline.status = some e) :
    (Engine.start engine entry id now store).store = store.set id r := by
  unfold Engine.start Engine.claim
  rw [Store.update_of_get?_eq_some _ hget, PipelineRecord.start_of_error _ h]

section Drives

variable {engine : EngineConfig} {id : PipelineId} {now : Moment} {store : Store}
  {effect : Effect Progress}

theorem Effect.IsOf.after (h : effect.IsOf id) (notices : List Notice) :
    (effect.after notices).IsOf id := h

theorem Drive.isOf_walk (engine : EngineConfig) (id : PipelineId) (now : Moment)
    (ahead : List Stage) (store : Store) : (Drive.walk engine id now ahead store).IsOf id := by
  induction ahead generalizing store with
  | nil =>
    intro drive wait hvalue
    unfold Drive.walk Drive.finish at hvalue
    split at hvalue <;> cases hvalue
  | cons stage ahead ih =>
    unfold Drive.walk
    split
    case h_1 hvisit =>
      rintro drive wait rfl
      unfold Drive.visit at hvisit
      split at hvisit <;> cases hvisit
      rfl
    case h_2 => exact (ih _).after _

theorem Drive.isOf_resume {drive : Drive} {signal : Signal}
    (h : drive.resume engine signal now store = some effect) : effect.IsOf drive.id := by
  unfold Drive.resume at h
  split at h
  · cases h
  · obtain rfl := Option.some.inj h
    rintro drive' wait hvalue
    cases hvalue
    rfl
  · obtain rfl := Option.some.inj h
    refine Effect.IsOf.after ?_ _
    unfold Drive.settle
    split
    · rintro drive' wait hvalue
      cases hvalue
    · exact (Drive.isOf_walk _ _ _ _ _).after _

/-- A drive goes on if its trial does. -/
theorem Drive.exists_of_resume {drive : Drive} {signal : Signal}
    (h : drive.resume engine signal now store = some effect) :
    ∃ progress notices,
      drive.trial.resume (.ofEngine engine) signal now.elapsed = some (progress, notices) := by
  cases hresume : drive.trial.resume (.ofEngine engine) signal now.elapsed with
  | none => simp [Drive.resume, hresume] at h
  | some answer => exact ⟨answer.1, answer.2, rfl⟩

/-- Whoever is given what it waits for goes on. -/
theorem Drive.exists_resume (engine : EngineConfig) (drive : Drive) (now : Moment) (store : Store)
    {signal : Signal} (h : signal.isRested = drive.trial.resting) :
    ∃ effect, drive.resume engine signal now store = some effect := by
  obtain ⟨⟨progress, notices⟩, hresume⟩ :=
    Option.isSome_iff_exists.mp (drive.trial.isSome_resume (.ofEngine engine) now.elapsed h)
  unfold Drive.resume
  rw [hresume]
  cases progress <;> exact ⟨_, rfl⟩

theorem Engine.isOf_start (entry : PipelineRecord.Entry) :
    (Engine.start engine entry id now store).IsOf id := by
  unfold Engine.start
  split
  · rintro drive wait hvalue
    cases hvalue
  · exact (Drive.isOf_walk _ _ _ _ _).after _

end Drives

namespace CommandLine

namespace Session

/-- What the session hears is what its drive waits for: its first turn, the end of a rest, or an
answer or the limit of an attempt. -/
def Awaits (s : Session) : Happening → Prop
  | .begun => s.progress = none
  | .ended signal =>
    ∃ drive wait, s.progress = some (.waiting drive wait) ∧ signal.isRested = wait.isRest
  | _ => False

/-- A bound on how often a session has still to hear what its drive waits for. -/
def waits (budget : UInt32) (s : Session) : Nat :=
  match s.progress with
  | none => enough budget
  | some progress => (Point.ofProgress progress).waits budget

/-- The calls of the engine that a session is, by how far its drive has come. -/
def Stands (config : PipelineConfig) (id : PipelineId) (calls : List Call) :
    Option Progress → Prop
  | none => calls = []
  | some (.waiting drive wait) =>
    drive.id = id ∧ calls = [⟨id, .waiting drive.trial wait⟩] ∧
      (Point.waiting drive.trial wait).Served config
  | some (.returned _) => ∀ call ∈ calls, call.point.isLive = false

/-- A session is an engine with one pipeline, which nobody pauses. -/
structure Mirrors (config : PipelineConfig) (s : Session) (f : Fleet) : Prop where
  store : f.store = s.store
  regular : (f.view s.id).Regular
  record : ∃ r, f.store.get? s.id = some r ∧ r.config = config ∧ r.pipeline.status ≠ .paused ∧
    (s.progress ≠ none → r.pipeline.status ≠ .pending)
  calls : Stands config s.id f.calls s.progress

/-- The events that something heard amounts to. -/
inductive Hears (id : PipelineId) (now : Moment) : Happening → List Event → Prop
  | nothing (happening : Happening) : Hears id now happening []
  | begun (k : Nat) :
      Hears id now .begun (⟨.drive .execute id, now⟩ :: Fleet.proceeds 0 now k)
  | ended (signal : Signal) (k : Nat) :
      Hears id now (.ended signal) (⟨.advance 0 (.hear signal), now⟩ :: Fleet.proceeds 0 now k)
  | interrupt : Hears id now .interrupt [⟨.cancel id, now⟩]

/-- What a session can do when it hears something. -/
inductive Turn (s : Session) (now : Moment) : Happening → Session → Prop
  /-- Nothing changes but what was told last. -/
  | idle {happening : Happening} (line : String) (hawaits : ¬ s.Awaits happening)
      (hinterrupt : happening = .interrupt → s.result? ≠ none) :
      Turn s now happening { s with lastLine := line }
  | begun (hprogress : s.progress = none) :
      Turn s now .begun (s.follow (Engine.execute s.engine s.id now s.store)).1
  | ended {drive : Drive} {wait : Wait} {signal : Signal} {effect : Effect Progress}
      (hprogress : s.progress = some (.waiting drive wait))
      (hresume : drive.resume s.engine signal now s.store = some effect) :
      Turn s now (.ended signal) (s.follow effect).1
  | interrupt (hresult : s.result? = none) : Turn s now .interrupt (s.interrupt now).1

theorem exists_look (s : Session) : ∃ line, s.look.1 = { s with lastLine := line } := by
  unfold look
  split
  · exact ⟨s.lastLine, rfl⟩
  · dsimp only
    split
    · exact ⟨s.lastLine, rfl⟩
    · exact ⟨_, rfl⟩

theorem exists_of_result? {s : Session} (h : s.result? ≠ none) :
    ∃ result, s.progress = some (.returned result) := by
  unfold result? at h
  split at h
  case h_1 result hprogress => exact ⟨result, hprogress⟩
  case h_2 => contradiction

/-- A session whose drive has returned hears nothing more. -/
theorem next_of_result? {s : Session} (h : s.result? ≠ none) (happening : Happening)
    (now : Moment) : s.next happening now = (s, []) := by
  obtain ⟨result, hprogress⟩ := exists_of_result? h
  unfold next
  rw [hprogress]

theorem result?_eq_none_iff {s : Session} :
    s.result? = none ↔ ∀ result, s.progress ≠ some (.returned result) := by
  unfold result?
  split
  case h_1 hprogress => simp [hprogress]
  case h_2 hreturned => simpa using hreturned

theorem next_begun {s : Session} (h : s.progress = none) (now : Moment) :
    s.next .begun now = s.follow (Engine.execute s.engine s.id now s.store) := by
  simp [next, h]

/-- A drive begins once only. -/
theorem next_begun_of_ne_none {s : Session} (h : s.progress ≠ none) (now : Moment) :
    s.next .begun now = (s, []) := by
  obtain ⟨progress, hprogress⟩ := Option.ne_none_iff_exists'.mp h
  cases progress <;> simp [next, hprogress]

/-- What ends before the drive has begun is not heard. -/
theorem next_ended_of_none {s : Session} (h : s.progress = none) (signal : Signal)
    (now : Moment) : s.next (.ended signal) now = (s, []) := by
  simp [next, h]

theorem next_ended {s : Session} {drive : Drive} {wait : Wait}
    (h : s.progress = some (.waiting drive wait)) (signal : Signal) (now : Moment) :
    s.next (.ended signal) now =
      (drive.resume s.engine signal now s.store).elim (s, []) s.follow := by
  cases hresume : drive.resume s.engine signal now s.store <;> simp [next, h, hresume]

theorem next_tick {s : Session} (h : s.result? = none) (now : Moment) :
    s.next .tick now = s.look := by
  have hreturned := result?_eq_none_iff.mp h
  unfold next
  split <;> simp_all

theorem next_interrupt {s : Session} (h : s.result? = none) (now : Moment) :
    s.next .interrupt now = s.interrupt now := by
  have hreturned := result?_eq_none_iff.mp h
  unfold next
  split <;> simp_all

/-- A session remains that of its pipeline. -/
@[simp] theorem id_next (s : Session) (happening : Happening) (now : Moment) :
    (s.next happening now).1.id = s.id := by
  obtain ⟨line, hline⟩ := s.exists_look
  unfold next
  split
  case h_3 => split <;> rfl
  case h_4 => rw [hline]
  all_goals rfl

@[simp] theorem engine_next (s : Session) (happening : Happening) (now : Moment) :
    (s.next happening now).1.engine = s.engine := by
  obtain ⟨line, hline⟩ := s.exists_look
  unfold next
  split
  case h_3 => split <;> rfl
  case h_4 => rw [hline]
  all_goals rfl

/-- What a drive waits for is heard if it is of the kind that is waited for. -/
theorem turn_ended (s : Session) (signal : Signal) (now : Moment) {drive : Drive} {wait : Wait}
    (hprogress : s.progress = some (.waiting drive wait))
    (hfits : wait.isRest = drive.trial.resting) :
    s.Turn now (.ended signal) (s.next (.ended signal) now).1 := by
  rw [next_ended hprogress]
  cases hresume : drive.resume s.engine signal now s.store with
  | some effect => exact .ended hprogress hresume
  | none =>
    refine .idle s.lastLine ?_ nofun
    rintro ⟨drive', wait', hprogress', hsignal⟩
    obtain ⟨rfl, rfl⟩ : drive = drive' ∧ wait = wait' := by simpa [hprogress] using hprogress'
    obtain ⟨effect, heffect⟩ :=
      drive.exists_resume s.engine now s.store (hsignal.trans hfits)
    rw [hresume] at heffect
    cases heffect

/-- Whatever a session does is one of the turns. -/
theorem turn (s : Session) (happening : Happening) (now : Moment)
    (hfits : ∀ drive wait, s.progress = some (.waiting drive wait) →
      wait.isRest = drive.trial.resting) : s.Turn now happening (s.next happening now).1 := by
  by_cases hresult : s.result? = none
  · cases happening with
    | begun =>
      by_cases hprogress : s.progress = none
      · rw [next_begun hprogress]
        exact .begun hprogress
      · rw [next_begun_of_ne_none hprogress]
        exact .idle s.lastLine hprogress nofun
    | ended signal =>
      cases hprogress : s.progress with
      | none =>
        rw [next_ended_of_none hprogress]
        exact .idle s.lastLine (by simp [Awaits, hprogress]) nofun
      | some progress =>
        cases progress with
        | returned result => exact absurd hprogress (result?_eq_none_iff.mp hresult result)
        | waiting drive wait => exact s.turn_ended signal now hprogress (hfits drive wait hprogress)
    | tick =>
      obtain ⟨line, hline⟩ := s.exists_look
      rw [next_tick hresult, hline]
      exact .idle line (by simp [Awaits]) nofun
    | interrupt =>
      rw [next_interrupt hresult]
      exact .interrupt hresult
  · rw [next_of_result? hresult]
    obtain ⟨result, hprogress⟩ := exists_of_result? hresult
    refine .idle s.lastLine ?_ fun _ => hresult
    cases happening <;> simp [Awaits, hprogress]

section Turns

variable {config : PipelineConfig} {s : Session} {f : Fleet} {now : Moment} {k : Nat}
  {happening : Happening} {es : List Event} {admits : Fleet → Event → Prop}

/-- What is admitted of what a session hears. -/
theorem Hears.along (h : Hears s.id now happening es) (engine : EngineConfig)
    (hbegun : admits f ⟨.drive .execute s.id, now⟩)
    (hproceed : ∀ f, admits f ⟨.advance 0 .proceed, now⟩)
    (hended : ∀ signal, happening = .ended signal → admits f ⟨.advance 0 (.hear signal), now⟩)
    (hinterrupt : happening = .interrupt → admits f ⟨.cancel s.id, now⟩) :
    f.Along engine admits es := by
  have hproceeds : ∀ f k, Fleet.Along engine admits f (Fleet.proceeds 0 now k) := by
    intro f k
    refine Fleet.along_of_forall (fun e he f => ?_) f
    rw [List.eq_of_mem_replicate he]
    exact hproceed f
  cases h with
  | nothing => trivial
  | begun k => exact ⟨hbegun, hproceeds _ k⟩
  | ended signal k => exact ⟨hended signal rfl, hproceeds _ k⟩
  | interrupt => exact ⟨hinterrupt rfl, trivial⟩

/-- Nothing that a session hears creates or restores a pipeline. -/
theorem Hears.created (h : Hears s.id now happening es) (engine : EngineConfig) (id : PipelineId) :
    f.Along engine (Fleet.Created id) es :=
  h.along engine (by simp [Fleet.Created, Event.Fresh, Event.Restores])
    (by simp [Fleet.Created, Event.Fresh, Event.Restores])
    (by simp [Fleet.Created, Event.Fresh, Event.Restores])
    (by simp [Fleet.Created, Event.Fresh, Event.Restores])

theorem regular_run (h : (f.view s.id).Regular) (hes : f.Along s.engine (Fleet.Created s.id) es) :
    ((f.run s.engine es).view s.id).Regular :=
  hes.preserves (fun _ _ => Fleet.regular_next) h

/-- The engine of a session whose drive has gone on. -/
theorem mirrors_follow {effect : Effect Progress} (hattends : f.Attends config s.id k)
    (hregular : (f.view s.id).Regular)
    (hf : f = ⟨effect.store, [⟨s.id, .ofProgress effect.value⟩]⟩) (hof : effect.IsOf s.id) :
    (s.follow effect).1.Mirrors config f ∧
      (s.follow effect).1.waits config.retryBudget ≤ k := by
  obtain ⟨r, hget, hconfig, hpending, hpaused⟩ := hattends.record
  obtain ⟨p, hp, hserved, hwaits⟩ := hattends.call
  obtain rfl : .ofProgress effect.value = p := by simpa [hf] using hp
  refine ⟨⟨by rw [hf]; rfl, hregular, ⟨r, hget, hconfig, hpaused, fun _ => hpending⟩, ?_⟩, hwaits⟩
  change Stands config s.id f.calls (some effect.value)
  cases hvalue : effect.value with
  | waiting drive wait =>
    rw [hvalue] at hp hserved
    exact ⟨hof drive wait hvalue, hp, hserved⟩
  | returned result =>
    rw [hvalue] at hp
    rw [hp]
    simp [Stands, Point.ofProgress, Point.isLive]

theorem Mirrors.isRest_eq (h : s.Mirrors config f) {drive : Drive} {wait : Wait}
    (hprogress : s.progress = some (.waiting drive wait)) :
    wait.isRest = drive.trial.resting := by
  have hcalls := h.calls
  rw [hprogress] at hcalls
  exact hcalls.2.2.2.2

/-- A pipeline that has been cancelled before its drive begins is not claimed. -/
theorem Mirrors.exists_begun_of_error (h : s.Mirrors config f) (now : Moment)
    (hprogress : s.progress = none) {r : PipelineRecord} (hget : f.store.get? s.id = some r)
    {err : PipelineError}
    (hentry : PipelineRecord.entryError? .execute s.id r.pipeline.status = some err) :
    ∃ es, Hears s.id now .begun es ∧
      (s.follow (Engine.execute s.engine s.id now f.store)).1.Mirrors config
        (f.run s.engine es) ∧
      (s.follow (Engine.execute s.engine s.id now f.store)).1.waits config.retryBudget <
        enough config.retryBudget := by
  obtain ⟨r', hget', hconfig, hpaused, -⟩ := h.record
  obtain rfl := Option.some.inj (hget.symm.trans hget')
  have hcalls : f.calls = [] := by simpa [hprogress, Stands] using h.calls
  have hvalue : (Engine.execute s.engine s.id now f.store).value = .returned (.error err) :=
    Engine.start_of_error now hget hentry
  have hpending : r.pipeline.status ≠ .pending := by
    intro hstatus
    rw [hstatus] at hentry
    cases hentry
  have hhears : Hears s.id now .begun [⟨.drive .execute s.id, now⟩] := .begun 0
  have hrun : f.run s.engine [⟨.drive .execute s.id, now⟩] =
      ⟨f.store.set s.id r, f.calls⟩ := by
    rw [Fleet.run_cons, Fleet.run_nil, Fleet.next, Fleet.react_drive_of_error _ _ hget hentry]
  have hregular := regular_run h.regular (hhears.created s.engine s.id)
  rw [hrun] at hregular
  refine ⟨_, hhears, ?_, ?_⟩
  · rw [hrun]
    refine ⟨(Engine.store_start_of_error now hget hentry).symm, hregular,
      ⟨r, Store.get?_set_self (by simp [hget]), hconfig, hpaused, fun _ => hpending⟩, ?_⟩
    simp [follow, hvalue, Stands, hcalls]
  · simp [follow, waits, hvalue, Point.ofProgress, Point.waits, enough]

/-- A pending pipeline is claimed by its drive, which then goes on. -/
theorem Mirrors.exists_begun_of_pending (h : s.Mirrors config f) (now : Moment)
    (hprogress : s.progress = none) {r : PipelineRecord} (hget : f.store.get? s.id = some r)
    (hentry : PipelineRecord.entryError? .execute s.id r.pipeline.status = none) :
    ∃ es, Hears s.id now .begun es ∧
      (s.follow (Engine.execute s.engine s.id now f.store)).1.Mirrors config
        (f.run s.engine es) ∧
      (s.follow (Engine.execute s.engine s.id now f.store)).1.waits config.retryBudget <
        enough config.retryBudget := by
  obtain ⟨r', hget', hconfig, hpaused, -⟩ := h.record
  obtain rfl := Option.some.inj (hget.symm.trans hget')
  have hcalls : f.calls = [] := by simpa [hprogress, Stands] using h.calls
  have hpending : r.pipeline.status = .pending :=
    (PipelineRecord.pending_or_paused hentry).resolve_right hpaused
  have hdriven : r.driven = false := (h.regular.sole.consistent r hget).2 (.inl hpending)
  have hreact := Fleet.react_drive_of_undriven s.engine now hget hentry hdriven
  rcases Fleet.start_eq_run s.engine .execute s.id now f with
    ⟨result, -, hanswered⟩ | ⟨k, hrun, -⟩
  · rw [hreact] at hanswered
    cases congrArg Prod.snd hanswered
  · have hhears : Hears s.id now .begun
        (⟨.drive .execute s.id, now⟩ :: Fleet.proceeds 0 now k) := .begun k
    have hregular := regular_run h.regular (hhears.created s.engine s.id)
    have hclaimed : (f.next s.engine ⟨.drive .execute s.id, now⟩).Attends config s.id
        (Stage.count * stageWaits config.retryBudget) := by
      rw [Fleet.next, hreact, hcalls]
      exact ⟨⟨_, Store.get?_set_self (by simp [hget]), hconfig, by rintro ⟨⟩, by rintro ⟨⟩⟩,
        .walking Stage.all, rfl, ⟨0, rfl⟩, Nat.le_refl _⟩
    have hattends := hclaimed.run_proceeds s.engine now k
    rw [hcalls, List.length_nil] at hrun
    rw [← Fleet.run_cons] at hattends
    obtain ⟨hmirrors, hle⟩ := mirrors_follow hattends hregular hrun (Engine.isOf_start _)
    exact ⟨_, hhears, hmirrors, Nat.lt_succ_of_le hle⟩

/-- The drive gets its first turn: it claims the pipeline, unless that has been cancelled. -/
theorem Mirrors.exists_begun (h : s.Mirrors config f) (now : Moment)
    (hprogress : s.progress = none) :
    ∃ es, Hears s.id now .begun es ∧
      (s.follow (Engine.execute s.engine s.id now s.store)).1.Mirrors config
        (f.run s.engine es) ∧
      (s.follow (Engine.execute s.engine s.id now s.store)).1.waits config.retryBudget <
        s.waits config.retryBudget := by
  obtain ⟨r, hget, -⟩ := h.record
  have hwaits : s.waits config.retryBudget = enough config.retryBudget := by
    simp [waits, hprogress]
  rw [← h.store, hwaits]
  cases hentry : PipelineRecord.entryError? .execute s.id r.pipeline.status with
  | some err => exact h.exists_begun_of_error now hprogress hget hentry
  | none => exact h.exists_begun_of_pending now hprogress hget hentry

/-- What the drive waits for ends, and the drive goes on. -/
theorem Mirrors.exists_ended (h : s.Mirrors config f) {drive : Drive} {wait : Wait}
    {signal : Signal} (hprogress : s.progress = some (.waiting drive wait))
    {effect : Effect Progress} (hresume : drive.resume s.engine signal now s.store = some effect) :
    ∃ es, Hears s.id now (.ended signal) es ∧
      (s.follow effect).1.Mirrors config (f.run s.engine es) ∧
      (s.follow effect).1.waits config.retryBudget < s.waits config.retryBudget := by
  obtain ⟨hid, hcalls, hserved⟩ : drive.id = s.id ∧
      f.calls = [⟨s.id, .waiting drive.trial wait⟩] ∧
        (Point.waiting drive.trial wait).Served config := by
    simpa [hprogress, Stands] using h.calls
  have hwaits : s.waits config.retryBudget =
      (Point.waiting drive.trial wait).waits config.retryBudget := by
    simp [waits, hprogress, Point.ofProgress]
  have hcall : f.calls[0]? = some ⟨drive.id, .waiting drive.trial wait⟩ := by
    rw [hcalls, hid]
    rfl
  rw [← h.store] at hresume
  obtain ⟨k, hcomes⟩ := Fleet.comes_resume hcall hresume
  have hhears : Hears s.id now (.ended signal)
      (⟨.advance 0 (.hear signal), now⟩ :: Fleet.proceeds 0 now k) := .ended signal k
  have hregular := regular_run h.regular (hhears.created s.engine s.id)
  obtain ⟨r, hget, hconfig, hpaused, hpending⟩ := h.record
  have hattends : f.Attends config s.id (s.waits config.retryBudget) :=
    ⟨⟨r, hget, hconfig, hpending (by simp [hprogress]), hpaused⟩, _, hcalls, hserved,
      Nat.le_of_eq hwaits.symm⟩
  obtain ⟨progress, notices, htrial⟩ := Drive.exists_of_resume hresume
  have hadvance : (Point.waiting drive.trial wait).advance s.engine s.id (.hear signal) now
      f.store = some (f.store, .ofTrial progress) := by
    simp only [Point.advance, htrial, Option.map_some]
  have hmove : Move.hear signal ≠ .drop := by rintro ⟨⟩
  obtain ⟨-, hheard⟩ := hattends.next_advance hcalls hmove hadvance
  have hlt := (Trial.Step.of_resume htrial).waits_lt hserved
  have hgone := hheard.run_proceeds s.engine now k
  rw [← Fleet.run_cons] at hgone
  have hrun := hcomes.run
  rw [hcalls, hid] at hrun
  have hof : effect.IsOf s.id := hid ▸ Drive.isOf_resume hresume
  obtain ⟨hmirrors, hle⟩ := mirrors_follow hgone hregular hrun hof
  rw [hwaits]
  exact ⟨_, hhears, hmirrors, Nat.lt_of_le_of_lt hle hlt⟩

/-- An interrupt cancels the pipeline. -/
theorem Mirrors.interrupt (h : s.Mirrors config f) (now : Moment) :
    (s.interrupt now).1.Mirrors config (f.cancelled s.engine s.id now) := by
  obtain ⟨r, hget, hconfig, -⟩ := h.record
  have hhears : Hears s.id now .interrupt [⟨.cancel s.id, now⟩] := .interrupt
  have hget' : (f.cancelled s.engine s.id now).store.get? s.id = some (r.cancel now.instant).1 :=
    congrArg View.record (Fleet.view_cancelled s.engine now hget)
  have hstore : (f.cancelled s.engine s.id now).store = (s.interrupt now).1.store := by
    rw [Session.interrupt, ← h.store]
    rfl
  exact ⟨hstore, regular_run h.regular (hhears.created s.engine s.id),
    ⟨_, hget', hconfig, nofun, fun _ => nofun⟩, h.calls⟩

/-- Whatever a session hears is a run of its engine. Hearing what its drive waits for takes it
nearer to its end, and nothing takes it further away. -/
theorem Mirrors.exists_run (h : s.Mirrors config f) (happening : Happening) (now : Moment) :
    ∃ es, Hears s.id now happening es ∧
      (s.next happening now).1.Mirrors config (f.run s.engine es) ∧
      (s.next happening now).1.waits config.retryBudget ≤ s.waits config.retryBudget ∧
      (s.Awaits happening →
        (s.next happening now).1.waits config.retryBudget < s.waits config.retryBudget) := by
  have hturn := s.turn happening now fun _ _ => h.isRest_eq
  generalize (s.next happening now).1 = s' at hturn
  cases hturn with
  | idle line hawaits hinterrupt =>
    exact ⟨[], .nothing happening, ⟨h.store, h.regular, h.record, h.calls⟩, Nat.le_refl _,
      (absurd · hawaits)⟩
  | begun hprogress =>
    obtain ⟨es, hhears, hmirrors, hlt⟩ := h.exists_begun now hprogress
    exact ⟨es, hhears, hmirrors, Nat.le_of_lt hlt, fun _ => hlt⟩
  | ended hprogress hresume =>
    obtain ⟨es, hhears, hmirrors, hlt⟩ := h.exists_ended hprogress hresume
    exact ⟨es, hhears, hmirrors, Nat.le_of_lt hlt, fun _ => hlt⟩
  | interrupt hresult =>
    exact ⟨_, .interrupt, h.interrupt now, Nat.le_refl _, False.elim⟩

end Turns

end Session

end CommandLine

end StagedPipeline
