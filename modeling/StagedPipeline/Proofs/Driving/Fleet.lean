import StagedPipeline.Engine.Drive

/-!
# Runs of an engine

An engine is used by many callers at once. A `Fleet` is its store together with every call that has
claimed a pipeline, and an `Event` is the smallest thing that can happen to it: a request, or one
move of a driving call. Either of them changes the store at most once, so that requests may come
between any two changes that a call makes, and not only while it waits; it can be given up only
while it waits.

In two places a change is followed by a second look at the store, for the pipeline to be returned:
when a call observes a pause in front of a stage (`Drive.visit`), and when a pipeline is to be
driven whose driver is still at work (`Engine.claim`). The two looks belong to one event, and
nothing comes between them. Where callers run at the same time, another request may slip in there;
the pipeline that is returned then shows it already, and nothing else depends on it.

A run is a list of events. `Fleet.run` follows it, `Fleet.emitted` collects what comes out of the
engine on the way, and `Fleet.Along` says of a run that each of its events is admitted where it
happens.
-/

namespace StagedPipeline

/-- Where a driving call stands. -/
inductive Point where
  /-- In front of the stages ahead. -/
  | walking (ahead : List Stage)
  /-- At a stage, where it waits. -/
  | waiting (trial : Trial) (wait : Wait)
  /-- Behind a stage, with its result in hand. -/
  | settling (result : StageResult)
  | returned (result : DriveResult)
  /-- It was given up while it waited. -/
  | dropped

/-- How a driving call is moved. -/
inductive Move where
  /-- It looks at the store. -/
  | proceed
  /-- What it waits for has ended. -/
  | hear (signal : Signal)
  /-- It is given up. -/
  | drop

namespace Point

/-- Whether the call has neither returned nor been given up. -/
def isLive : Point → Bool
  | returned _ => false
  | dropped => false
  | _ => true

/-- The point of a call that has come as far as it can by itself. -/
def ofProgress : Progress → Point
  | .waiting drive wait => waiting drive.trial wait
  | .returned result => returned result

/-- The point of a call whose trial has gone on. -/
def ofTrial : Trial.Progress → Point
  | .waiting trial wait => waiting trial wait
  | .finished result => settling result

@[simp] theorem isLive_ofTrial (progress : Trial.Progress) : (ofTrial progress).isLive = true := by
  cases progress <;> rfl

/-- A trial does not end its call. -/
theorem ofTrial_ne {p : Point} (h : p.isLive = false) (progress : Trial.Progress) :
    ofTrial progress ≠ p := by
  rintro rfl
  simp at h

/-- Makes a move, if it is one that can be made at the point. -/
def advance (engine : EngineConfig) (id : PipelineId) (move : Move) (now : Moment)
    (store : Store) : Point → Option (Store × Point)
  | walking [] =>
    match move with
    | .proceed =>
      let effect := Drive.finish id now store
      some (effect.store, ofProgress effect.value)
    | _ => none
  | walking (stage :: ahead) =>
    match move with
    | .proceed =>
      let effect := Drive.visit engine id stage now store
      some (effect.store, (effect.value.map ofProgress).getD (walking ahead))
    | _ => none
  | settling result =>
    match move with
    | .proceed =>
      let effect := Drive.handIn id result now store
      some (effect.store, (effect.value.map returned).getD (walking result.stage.after))
    | _ => none
  | waiting trial _ =>
    match move with
    | .hear signal =>
      (trial.resume (.ofEngine engine) signal now.elapsed).map fun answer =>
        (store, ofTrial answer.1)
    | .drop => some ((Drive.drop ⟨id, trial⟩ now store).store, dropped)
    | .proceed => none
  | returned _ => none
  | dropped => none

end Point

/-- A call that has claimed a pipeline. -/
structure Call where
  id : PipelineId
  point : Point

/-- An engine in use. -/
structure Fleet where
  store : Store
  /-- Every call that has ever claimed a pipeline. A call goes by its place in the list. -/
  calls : List Call

/-- Something that happens to an engine. -/
inductive Act where
  /-- A pipeline is created, under an identifier that is generated for it. -/
  | create (id : PipelineId) (config : PipelineConfig)
  /-- A pipeline is to be driven. -/
  | drive (entry : PipelineRecord.Entry) (id : PipelineId)
  | pause (id : PipelineId)
  | cancel (id : PipelineId)
  | restore (pipeline : Pipeline) (config : PipelineConfig)
  /-- A driving call makes a move. -/
  | advance (call : Nat) (move : Move)

/-- Something that happens, and when. -/
structure Event where
  act : Act
  now : Moment

/-- What comes out of an engine. -/
inductive Output where
  /-- A driving call sends the executor a request for a stage. -/
  | request (call : Nat) (id : PipelineId) (stage : Stage) (request : CompletionRequest)
  /-- A driving call returns. -/
  | returned (call : Nat) (id : PipelineId) (result : DriveResult)
  /-- A caller who does not drive the pipeline is told about it. -/
  | answered (id : PipelineId) (result : DriveResult)
  | acknowledged (id : PipelineId) (result : Except PipelineError Unit)
  | restored (pipeline : Pipeline)

/-- What comes out when a call comes to a point. -/
def Point.outputs (call : Nat) (id : PipelineId) : Point → List Output
  | waiting trial (.answer request _) => [.request call id trial.attempt.stage request]
  | returned result => [.returned call id result]
  | _ => []

namespace Fleet

/-- The engine before anything has happened. -/
def initial : Fleet := ⟨.empty, []⟩

/-- What becomes of an engine in an event, and what comes out of it. A move that cannot be made
changes nothing. -/
def react (engine : EngineConfig) (s : Fleet) (e : Event) : Fleet × List Output :=
  match e.act with
  | .create id config =>
    let effect := Engine.create id config e.now s.store
    ({ s with store := effect.store }, [.answered id effect.value])
  | .drive entry id =>
    let effect := Engine.claim entry id e.now s.store
    match effect.value with
    | some result => ({ s with store := effect.store }, [.answered id result])
    | none => (⟨effect.store, s.calls ++ [⟨id, .walking Stage.all⟩]⟩, [])
  | .pause id =>
    let effect := Engine.pause id e.now s.store
    ({ s with store := effect.store }, [.acknowledged id effect.value])
  | .cancel id =>
    let effect := Engine.cancel id e.now s.store
    ({ s with store := effect.store }, [.acknowledged id effect.value])
  | .restore pipeline config =>
    let effect := Engine.restore pipeline config e.now s.store
    ({ s with store := effect.store }, [.restored effect.value])
  | .advance n move =>
    match s.calls[n]? with
    | none => (s, [])
    | some call =>
      match call.point.advance engine call.id move e.now s.store with
      | none => (s, [])
      | some (store, point) =>
        (⟨store, s.calls.set n ⟨call.id, point⟩⟩, point.outputs n call.id)

/-- The engine after an event. -/
def next (engine : EngineConfig) (s : Fleet) (e : Event) : Fleet :=
  (s.react engine e).1

/-- The engine after a run. -/
def run (engine : EngineConfig) : Fleet → List Event → Fleet
  | s, [] => s
  | s, e :: es => run engine (s.next engine e) es

/-- What comes out of the engine in a run. -/
def emitted (engine : EngineConfig) : Fleet → List Event → List Output
  | _, [] => []
  | s, e :: es => (s.react engine e).2 ++ emitted engine (s.next engine e) es

/-- Whether every event of a run is admitted where it happens. -/
def Along (engine : EngineConfig) (admits : Fleet → Event → Prop) : Fleet → List Event → Prop
  | _, [] => True
  | s, e :: es => admits s e ∧ Along engine admits (s.next engine e) es

/-- The fleet is the end of a run from the start with such events only. -/
def Reached (engine : EngineConfig) (admits : Fleet → Event → Prop) (s : Fleet) : Prop :=
  ∃ es, initial.Along engine admits es ∧ initial.run engine es = s

/-- The pipeline of an identifier is driven by a call. -/
def Drives (s : Fleet) (id : PipelineId) (n : Nat) : Prop :=
  ∃ p, s.calls[n]? = some ⟨id, p⟩ ∧ p.isLive = true

end Fleet

namespace Event

/-- An identifier that is generated is not known yet. -/
def Fresh (s : Fleet) (e : Event) : Prop :=
  ∀ id config, e.act = .create id config → s.store.get? id = none

/-- The event restores the pipeline of an identifier. -/
def Restores (id : PipelineId) (e : Event) : Prop :=
  ∃ pipeline config, e.act = .restore pipeline config ∧ pipeline.id = id

/-- The event cancels the pipeline of an identifier. -/
def Cancels (id : PipelineId) (e : Event) : Prop :=
  e.act = .cancel id

end Event

namespace Fleet

variable {engine : EngineConfig} {admits admits' : Fleet → Event → Prop}

@[simp] theorem run_nil (s : Fleet) : s.run engine [] = s := rfl

@[simp] theorem run_cons (s : Fleet) (e : Event) (es : List Event) :
    s.run engine (e :: es) = (s.next engine e).run engine es := rfl

@[simp] theorem emitted_nil (s : Fleet) : s.emitted engine [] = [] := rfl

@[simp] theorem emitted_cons (s : Fleet) (e : Event) (es : List Event) :
    s.emitted engine (e :: es) =
      (s.react engine e).2 ++ (s.next engine e).emitted engine es := rfl

@[simp] theorem along_nil (s : Fleet) : s.Along engine admits [] := trivial

@[simp] theorem along_cons (s : Fleet) (e : Event) (es : List Event) :
    s.Along engine admits (e :: es) ↔ admits s e ∧ (s.next engine e).Along engine admits es :=
  Iff.rfl

/-- A move that a call can make is made. -/
theorem react_advance {s : Fleet} {n : Nat} {call : Call} {move : Move} {now : Moment}
    {store : Store} {p : Point} (hcall : s.calls[n]? = some call)
    (h : call.point.advance engine call.id move now s.store = some (store, p)) :
    s.react engine ⟨.advance n move, now⟩ =
      (⟨store, s.calls.set n ⟨call.id, p⟩⟩, p.outputs n call.id) := by
  simp only [react, hcall, h]

theorem next_advance {s : Fleet} {n : Nat} {call : Call} {move : Move} {now : Moment}
    {store : Store} {p : Point} (hcall : s.calls[n]? = some call)
    (h : call.point.advance engine call.id move now s.store = some (store, p)) :
    s.next engine ⟨.advance n move, now⟩ = ⟨store, s.calls.set n ⟨call.id, p⟩⟩ :=
  congrArg Prod.fst (react_advance hcall h)

theorem run_append (s : Fleet) (es fs : List Event) :
    s.run engine (es ++ fs) = (s.run engine es).run engine fs := by
  induction es generalizing s with
  | nil => rfl
  | cons e es ih => exact ih (s.next engine e)

theorem emitted_append (s : Fleet) (es fs : List Event) :
    s.emitted engine (es ++ fs) = s.emitted engine es ++ (s.run engine es).emitted engine fs := by
  induction es generalizing s with
  | nil => rfl
  | cons e es ih =>
    rw [List.cons_append, emitted_cons, emitted_cons, ih, run_cons, List.append_assoc]

theorem along_append (s : Fleet) (es fs : List Event) :
    s.Along engine admits (es ++ fs) ↔
      s.Along engine admits es ∧ (s.run engine es).Along engine admits fs := by
  induction es generalizing s with
  | nil => simp
  | cons e es ih =>
    simp only [List.cons_append, along_cons, run_cons, ih, and_assoc]

theorem Along.imp (himp : ∀ s e, admits s e → admits' s e) {s : Fleet} {es : List Event}
    (h : s.Along engine admits es) : s.Along engine admits' es := by
  induction es generalizing s with
  | nil => trivial
  | cons e es ih => exact ⟨himp s e h.1, ih h.2⟩

/-- Events that are admitted everywhere are admitted along every run of them. -/
theorem along_of_forall {es : List Event} (h : ∀ e ∈ es, ∀ s, admits s e) (s : Fleet) :
    s.Along engine admits es := by
  induction es generalizing s with
  | nil => trivial
  | cons e es ih =>
    exact ⟨h e List.mem_cons_self s, ih (fun e he => h e (List.mem_cons_of_mem _ he)) _⟩

/-- What every admitted event preserves holds at the end of a run. -/
theorem Along.preserves {holds : Fleet → Prop}
    (hstep : ∀ s e, admits s e → holds s → holds (s.next engine e)) {s : Fleet}
    {es : List Event} (h : s.Along engine admits es) (hs : holds s) :
    holds (s.run engine es) := by
  induction es generalizing s with
  | nil => exact hs
  | cons e es ih => exact ih h.2 (hstep s e h.1 hs)

/-- What holds at the start and is preserved by every admitted event holds wherever such events
lead. -/
theorem Reached.induction {holds : Fleet → Prop} (hinitial : holds initial)
    (hstep : ∀ s e, admits s e → holds s → holds (s.next engine e)) {s : Fleet}
    (h : s.Reached engine admits) : holds s := by
  obtain ⟨es, halong, rfl⟩ := h
  exact halong.preserves hstep hinitial

/-- The same for a property of the fleet together with what has come out so far. -/
theorem Along.preserves_emitted {holds : Fleet → List Output → Prop}
    (hstep : ∀ s e outs, admits s e → holds s outs →
      holds (s.next engine e) (outs ++ (s.react engine e).2))
    {s : Fleet} {es : List Event} {outs : List Output} (h : s.Along engine admits es)
    (hs : holds s outs) : holds (s.run engine es) (outs ++ s.emitted engine es) := by
  induction es generalizing s outs with
  | nil => simpa using hs
  | cons e es ih =>
    have hnext := ih h.2 (hstep s e outs h.1 hs)
    simpa only [run_cons, emitted_cons, List.append_assoc] using hnext

end Fleet

end StagedPipeline
