import StagedPipeline.Proofs.Driving.Fleet

/-!
# Calls that go on in one go

`Engine.start` and `Drive.resume` take a driving call from one wait to the next in one go, which is
what becomes of a call that nobody gets in between. In a fleet a call looks at the store once in a
move. Both come to the same: `Fleet.start_eq_run` and `Fleet.comes_resume` say which run takes the
call there, so that whatever holds along every run of a fleet holds of the calls that go on in one
go as well.
-/

namespace StagedPipeline

namespace Fleet

variable {engine : EngineConfig} {s : Fleet} {es : List Event} {id : PipelineId} {n : Nat}
  {p p' : Point} {move : Move} {now : Moment} {store : Store} {effect : Effect Progress}

/-- A call looks at the store several times, all at one moment. -/
def proceeds (n : Nat) (now : Moment) (k : Nat) : List Event :=
  List.replicate k ⟨.advance n .proceed, now⟩

/-- A run takes a call, and nothing else, to where an effect says, and nothing comes out before the
call is there. -/
structure Comes (engine : EngineConfig) (s : Fleet) (es : List Event) (n : Nat) (id : PipelineId)
    (effect : Effect Progress) : Prop where
  run : s.run engine es = ⟨effect.store, s.calls.set n ⟨id, .ofProgress effect.value⟩⟩
  emitted : s.emitted engine es = (Point.ofProgress effect.value).outputs n id

/-- A single move takes the call there. -/
theorem Comes.single (hcall : s.calls[n]? = some ⟨id, p⟩)
    (h : p.advance engine id move now s.store = some (effect.store, .ofProgress effect.value)) :
    s.Comes engine [⟨.advance n move, now⟩] n id effect where
  run := next_advance hcall h
  emitted := by
    rw [emitted_cons, react_advance hcall h]
    exact List.append_nil _

/-- A silent move in front. -/
theorem Comes.cons (hcall : s.calls[n]? = some ⟨id, p⟩)
    (h : p.advance engine id move now s.store = some (store, p')) (hsilent : p'.outputs n id = [])
    (notices : List Notice)
    (hcomes : Comes engine ⟨store, s.calls.set n ⟨id, p'⟩⟩ es n id effect) :
    s.Comes engine (⟨.advance n move, now⟩ :: es) n id (effect.after notices) where
  run := by
    rw [run_cons, next_advance hcall h, hcomes.run, List.set_set]
    rfl
  emitted := by
    rw [emitted_cons, react_advance hcall h, next_advance hcall h, hcomes.emitted, hsilent]
    rfl

theorem getElem?_set_of_call {call : Call} (hcall : s.calls[n]? = some call) (p : Point) :
    (s.calls.set n ⟨id, p⟩)[n]? = some ⟨id, p⟩ :=
  List.getElem?_set_self (List.getElem?_eq_some_iff.mp hcall).1

/-- Walking in one go is walking stage by stage. -/
theorem comes_walk (engine : EngineConfig) (now : Moment) {ahead : List Stage}
    (hcall : s.calls[n]? = some ⟨id, .walking ahead⟩) :
    ∃ k, s.Comes engine (proceeds n now k) n id (Drive.walk engine id now ahead s.store) := by
  induction ahead generalizing s with
  | nil => exact ⟨1, .single hcall rfl⟩
  | cons stage ahead ih =>
    rcases hvisit : Drive.visit engine id stage now s.store with ⟨store, notices, value⟩
    have hadvance : (Point.walking (stage :: ahead)).advance engine id .proceed now s.store =
        some (store, (value.map .ofProgress).getD (.walking ahead)) := by
      simp only [Point.advance, hvisit]
    unfold Drive.walk
    rw [hvisit]
    cases value with
    | some progress => exact ⟨1, .single hcall hadvance⟩
    | none =>
      obtain ⟨k, hcomes⟩ := ih (s := ⟨store, s.calls.set n ⟨id, .walking ahead⟩⟩)
        (getElem?_set_of_call hcall _)
      exact ⟨k + 1, hcomes.cons hcall hadvance rfl notices⟩

/-- Handing a result in and walking on, in one go. -/
theorem comes_settle (engine : EngineConfig) (now : Moment) {result : StageResult}
    (hcall : s.calls[n]? = some ⟨id, .settling result⟩) :
    ∃ k, s.Comes engine (proceeds n now k) n id (Drive.settle engine id result now s.store) := by
  rcases hhand : Drive.handIn id result now s.store with ⟨store, notices, value⟩
  have hadvance : (Point.settling result).advance engine id .proceed now s.store =
      some (store, (value.map .returned).getD (.walking result.stage.after)) := by
    simp only [Point.advance, hhand]
  unfold Drive.settle
  rw [hhand]
  cases value with
  | some returned => exact ⟨1, .single hcall hadvance⟩
  | none =>
    obtain ⟨k, hcomes⟩ := comes_walk (s := ⟨store, s.calls.set n ⟨id, .walking result.stage.after⟩⟩)
      engine now (getElem?_set_of_call hcall _)
    exact ⟨k + 1, hcomes.cons hcall hadvance rfl notices⟩

/-- A call that waits goes on after a signal: it hears it, and then looks at the store until it
waits again or returns. -/
theorem comes_resume {drive : Drive} {wait : Wait} {signal : Signal}
    (hcall : s.calls[n]? = some ⟨drive.id, .waiting drive.trial wait⟩)
    (h : drive.resume engine signal now s.store = some effect) :
    ∃ k, s.Comes engine (⟨.advance n (.hear signal), now⟩ :: proceeds n now k) n drive.id
      effect := by
  unfold Drive.resume at h
  cases hresume : drive.trial.resume (.ofEngine engine) signal now.elapsed with
  | none =>
    rw [hresume] at h
    contradiction
  | some answer =>
    obtain ⟨progress, notices⟩ := answer
    have hadvance : (Point.waiting drive.trial wait).advance engine drive.id (.hear signal) now
        s.store = some (s.store, .ofTrial progress) := by
      simp only [Point.advance, hresume, Option.map_some]
    rw [hresume] at h
    cases progress with
    | waiting trial wait' =>
      obtain rfl := Option.some.inj h
      exact ⟨0, .single hcall hadvance⟩
    | finished result =>
      obtain rfl := Option.some.inj h
      obtain ⟨k, hcomes⟩ := comes_settle
        (s := ⟨s.store, s.calls.set n ⟨drive.id, .settling result⟩⟩) engine now
        (getElem?_set_of_call hcall _)
      exact ⟨k, hcomes.cons hcall hadvance rfl notices⟩

/-- A call that asks to drive a pipeline is answered at once, or it claims the pipeline and looks at
the store until it waits or returns. -/
theorem start_eq_run (engine : EngineConfig) (entry : PipelineRecord.Entry) (id : PipelineId)
    (now : Moment) (s : Fleet) :
    (∃ result, (Engine.start engine entry id now s.store).value = .returned result ∧
      s.react engine ⟨.drive entry id, now⟩ =
        ({ s with store := (Engine.start engine entry id now s.store).store },
          [.answered id result])) ∨
    ∃ k, s.run engine (⟨.drive entry id, now⟩ :: proceeds s.calls.length now k) =
        ⟨(Engine.start engine entry id now s.store).store,
          s.calls ++ [⟨id, .ofProgress (Engine.start engine entry id now s.store).value⟩]⟩ ∧
      s.emitted engine (⟨.drive entry id, now⟩ :: proceeds s.calls.length now k) =
        (Point.ofProgress (Engine.start engine entry id now s.store).value).outputs
          s.calls.length id := by
  rcases hclaim : Engine.claim entry id now s.store with ⟨store, notices, value⟩
  unfold Engine.start
  rw [hclaim]
  cases value with
  | some result =>
    left
    refine ⟨result, rfl, ?_⟩
    simp only [react, hclaim]
  | none =>
    right
    have hreact : s.react engine ⟨.drive entry id, now⟩ =
        (⟨store, s.calls ++ [⟨id, .walking Stage.all⟩]⟩, []) := by
      simp only [react, hclaim]
    have hcall : (s.calls ++ [⟨id, .walking Stage.all⟩])[s.calls.length]? =
        some ⟨id, .walking Stage.all⟩ := List.getElem?_concat_length
    obtain ⟨k, hcomes⟩ :=
      comes_walk (s := ⟨store, s.calls ++ [⟨id, .walking Stage.all⟩]⟩) engine now hcall
    refine ⟨k, ?_, ?_⟩
    · rw [run_cons, next, hreact, hcomes.run]
      simp [Effect.after]
    · rw [emitted_cons, next, hreact, hcomes.emitted]
      rfl

end Fleet

end StagedPipeline
