import StagedPipeline.Proofs.Driving.Agreement

/-!
# Texts do not decide

Whether an attempt succeeds is decided by whether there is a text, and never by what it says. A
`Cue` is an event without what the executor says in it, and an executor makes a run of a list of
cues (`Fleet.play`). Two such runs, of executors that are `Twins`, agree after every cue: in the
records, in where the calls stand, and in what comes out (`Fleet.texts_do_not_decide`).
-/

namespace StagedPipeline

/-! ### Requests -/

theorem CompletionRequest.agree_ofStage (stage : Stage) (config : PipelineConfig)
    (artifacts artifacts' : ArtifactSet) (settings : CompletionSettings) :
    CompletionRequest.Agree (.ofStage stage config artifacts settings)
      (.ofStage stage config artifacts' settings) where
  systemPrompt := rfl
  userPrompt := by
    refine ⟨"Task: " ++ config.task ++ "\n" ++ Prompts.contextText config.context
      ++ "\nArtifacts from previous stages:\n",
      "\n" ++ "\nProduce the " ++ stage.name ++ " stage output now.", artifacts, artifacts', ?_, ?_⟩
    all_goals simp [ofStage, Prompts.ofStage, Prompts.userText, String.append_assoc]
  maxTokens := rfl
  temperature := rfl

/-- Two waits. -/
inductive Wait.Agree : Wait → Wait → Prop
  | answer {request request' : CompletionRequest} (limit : Duration)
      (h : request.Agree request') : Agree (.answer request limit) (.answer request' limit)
  | rest (delay : Duration) : Agree (.rest delay) (.rest delay)

/-! ### Trials -/

variable {w : Twins} {engine : EngineConfig}

/-- Two trials; the artifacts that they send may differ. -/
structure Trial.Agree (w : Twins) (t t' : Trial) : Prop where
  stage : t.attempt.stage = t'.attempt.stage
  config : t.attempt.config = t'.attempt.config
  startedAt : w.timed → t.startedAt = t'.startedAt
  count : t.count = t'.count
  resting : t.resting = t'.resting

/-- How far two trials have come. -/
inductive Trial.Progress.Agree (w : Twins) : Progress → Progress → Prop
  | waiting {t t' : Trial} {wait wait' : Wait} (ht : t.Agree w t') (hwait : wait.Agree wait') :
      Agree w (.waiting t wait) (.waiting t' wait')
  | finished {x x' : StageResult} (h : x.Agree w x') : Agree w (.finished x) (.finished x')

theorem Attempt.agree_start (settings : CompletionSettings) (a a' : Attempt)
    (hstage : a.stage = a'.stage) (hconfig : a.config = a'.config) :
    (a.start settings).1.Agree (a'.start settings).1 := by
  unfold Attempt.start
  rw [← hstage, ← hconfig]
  exact .answer _ (CompletionRequest.agree_ofStage ..)

theorem Attempt.exists_conclude_text (a : Attempt) (content : String) :
    ∃ notices, a.conclude (.answered (.ok content)) =
      some (.ok ⟨content, Artifact.decode? a.stage content⟩, notices) := by
  rw [← a.fst_read]
  exact ⟨_, rfl⟩

namespace Trial.Agree

variable {settings : TrialSettings} {t t' : Trial} {now now' : Duration}

/-- Two trials that hear of the same failure both rest, or both give up. -/
theorem resume_of_failure (h : t.Agree w t') (hnow : w.timed → now = now')
    (hresting : t.resting = false) {signal : Signal} {e : AttemptError}
    (hconclude : t.attempt.conclude signal = some (.error e, []))
    (hconclude' : t'.attempt.conclude signal = some (.error e, [])) :
    Option.Rel (fun o o' => Progress.Agree w o.1 o'.1) (t.resume settings signal now)
      (t'.resume settings signal now') := by
  have hresting' : t'.resting = false := h.resting ▸ hresting
  unfold Trial.resume
  simp only [hresting, hresting', hconclude, hconclude', Bool.false_eq_true, if_false]
  rw [← h.config, ← h.count]
  split
  · exact .some (.waiting ⟨h.stage, h.config, h.startedAt, rfl, rfl⟩ (.rest _))
  · refine .some (.finished ⟨h.stage, rfl, rfl, h.count, ?_, by simp [failure]⟩)
    intro htimed
    simp only [failure, elapsed, hnow htimed, h.startedAt htimed]

/-- Two trials that hear replies of the same kind go on alike. -/
theorem resume_of_alike (h : t.Agree w t') (settings : TrialSettings) (hnow : w.timed → now = now')
    {reply reply' : Reply} (halike : reply.Alike reply')
    (hsaid : ∀ content other, reply = .text content → reply' = .text other →
      w.Said t.attempt.stage t.count.toNat content other) :
    Option.Rel (fun o o' => Progress.Agree w o.1 o'.1) (t.resume settings reply.signal now)
      (t'.resume settings reply'.signal now') := by
  cases hresting : t.resting with
  | true =>
    have hresting' : t'.resting = true := h.resting ▸ hresting
    unfold Trial.resume
    simp only [hresting, hresting', if_true]
    cases halike <;> exact .none
  | false =>
    have hresting' : t'.resting = false := h.resting ▸ hresting
    cases halike with
    | text content other =>
      obtain ⟨notices, hconclude⟩ := t.attempt.exists_conclude_text content
      obtain ⟨notices', hconclude'⟩ := t'.attempt.exists_conclude_text other
      simp only [Reply.signal, Trial.resume, hresting, hresting', hconclude, hconclude',
        Bool.false_eq_true, if_false]
      refine .some (.finished ⟨h.stage, rfl, rfl, h.count, ?_, fun _ => hsaid _ _ rfl rfl⟩)
      intro htimed
      simp only [success, elapsed, hnow htimed, h.startedAt htimed]
    | error e => exact h.resume_of_failure hnow hresting rfl (by rw [h.stage]; rfl)
    | silence => exact h.resume_of_failure hnow hresting rfl (by rw [h.stage, h.config]; rfl)

/-- Two trials whose rest is over make their next attempts. -/
theorem resume_rested (h : t.Agree w t') (settings : TrialSettings) :
    Option.Rel (fun o o' => Progress.Agree w o.1 o'.1) (t.resume settings .rested now)
      (t'.resume settings .rested now') := by
  have hwait := Attempt.agree_start settings.completion _ _ h.stage h.config
  unfold Trial.resume
  rw [← h.resting]
  split
  · exact .some (.waiting ⟨h.stage, h.config, h.startedAt, by rw [h.count], rfl⟩ hwait)
  · exact .none

end Trial.Agree

/-! ### Calls -/

/-- Where two calls stand. -/
inductive Point.Agree (w : Twins) : Point → Point → Prop
  | walking (ahead : List Stage) : Agree w (.walking ahead) (.walking ahead)
  | waiting {t t' : Trial} {wait wait' : Wait} (ht : t.Agree w t') (hwait : wait.Agree wait') :
      Agree w (.waiting t wait) (.waiting t' wait')
  | settling {x x' : StageResult} (h : x.Agree w x') : Agree w (.settling x) (.settling x')
  | returned {result result' : DriveResult} (h : Agreeing (Pipeline.Agree w) result result') :
      Agree w (.returned result) (.returned result')
  | dropped : Agree w .dropped .dropped

/-- What comes out of two engines. -/
inductive Output.Agree (w : Twins) : Output → Output → Prop
  | request (call : Nat) (id : PipelineId) (stage : Stage) {request request' : CompletionRequest}
      (h : request.Agree request') :
      Agree w (.request call id stage request) (.request call id stage request')
  | returned (call : Nat) (id : PipelineId) {result result' : DriveResult}
      (h : Agreeing (Pipeline.Agree w) result result') :
      Agree w (.returned call id result) (.returned call id result')
  | answered (id : PipelineId) {result result' : DriveResult}
      (h : Agreeing (Pipeline.Agree w) result result') :
      Agree w (.answered id result) (.answered id result')
  | acknowledged (id : PipelineId) (result : Except PipelineError Unit) :
      Agree w (.acknowledged id result) (.acknowledged id result)

theorem Point.Agree.outputs {p p' : Point} (h : p.Agree w p') (n : Nat) (id : PipelineId) :
    List.Forall₂ (Output.Agree w) (p.outputs n id) (p'.outputs n id) := by
  cases h with
  | waiting ht hwait =>
    cases hwait with
    | answer limit hrequest =>
      simp only [Point.outputs, ← ht.stage]
      exact .cons (.request n id _ hrequest) .nil
    | rest delay => exact .nil
  | returned hresult => exact .cons (.returned n id hresult) .nil
  | _ => exact .nil

theorem Point.agree_ofTrial {progress progress' : Trial.Progress}
    (h : progress.Agree w progress') :
    (Point.ofTrial progress).Agree w (.ofTrial progress') := by
  cases h with
  | waiting ht hwait => exact .waiting ht hwait
  | finished hx => exact .settling hx

/-- What two calls leave in their stores, and where they have come to. -/
def Reaches (w : Twins) (o o' : Store × Point) : Prop :=
  o.1.Agree w o'.1 ∧ o.2.Agree w o'.2

section Steps

variable {s s' : Store} {now now' : Moment}

theorem Store.Agree.create (h : s.Agree w s') (id : PipelineId) (config : PipelineConfig)
    (hnow : w.timed → now = now') :
    (Engine.create id config now s).store.Agree w (Engine.create id config now' s').store ∧
      Agreeing (Pipeline.Agree w) (Engine.create id config now s).value
        (Engine.create id config now' s').value := by
  have hpending : Pipeline.Agree w (.pending id now.instant) (.pending id now'.instant) :=
    .pending id fun htimed => congrArg Moment.instant (hnow htimed)
  unfold Engine.create
  cases config.refusal? with
  | some refusal => exact ⟨h, .error _⟩
  | none => exact ⟨h.put ⟨hpending, rfl, rfl⟩, .ok hpending⟩

theorem Store.Agree.claim (h : s.Agree w s') (entry : PipelineRecord.Entry) (id : PipelineId)
    (hnow : w.timed → now = now') :
    (Engine.claim entry id now s).store.Agree w (Engine.claim entry id now' s').store ∧
      Option.Rel (Agreeing (Pipeline.Agree w)) (Engine.claim entry id now s).value
        (Engine.claim entry id now' s').value := by
  obtain ⟨store, store', value, value', hupdate, hupdate', hstore, hvalue⟩ := h.update id
    fun r r' hr => hr.start entry id fun htimed => congrArg Moment.instant (hnow htimed)
  unfold Engine.claim
  rw [hupdate, hupdate']
  cases hvalue with
  | error e => exact ⟨hstore, .some (.error e)⟩
  | ok hclaimed =>
    rename_i claimed claimed'
    subst hclaimed
    cases claimed with
    | false => exact ⟨hstore, .some (hstore.snapshot id)⟩
    | true => exact ⟨hstore, .none⟩

theorem Store.Agree.pause (h : s.Agree w s') (id : PipelineId) (hnow : w.timed → now = now') :
    (Engine.pause id now s).store.Agree w (Engine.pause id now' s').store ∧
      (Engine.pause id now s).value = (Engine.pause id now' s').value := by
  obtain ⟨store, store', value, value', hupdate, hupdate', hstore, hvalue⟩ := h.update id
    fun r r' hr => hr.pause id fun htimed => congrArg Moment.instant (hnow htimed)
  unfold Engine.pause
  rw [hupdate, hupdate']
  cases hvalue <;> exact ⟨hstore, rfl⟩

theorem Store.Agree.cancel (h : s.Agree w s') (id : PipelineId) (hnow : w.timed → now = now') :
    (Engine.cancel id now s).store.Agree w (Engine.cancel id now' s').store ∧
      (Engine.cancel id now s).value = (Engine.cancel id now' s').value := by
  obtain ⟨store, store', value, value', hupdate, hupdate', hstore, hvalue⟩ := h.update id
    fun r r' hr => hr.cancel fun htimed => congrArg Moment.instant (hnow htimed)
  unfold Engine.cancel
  rw [hupdate, hupdate']
  cases hvalue <;> exact ⟨hstore, rfl⟩

theorem Store.Agree.finish (h : s.Agree w s') (id : PipelineId) (hnow : w.timed → now = now') :
    Reaches w
      ((Drive.finish id now s).store, .ofProgress (Drive.finish id now s).value)
      ((Drive.finish id now' s').store, .ofProgress (Drive.finish id now' s').value) := by
  obtain ⟨store, store', value, value', hupdate, hupdate', hstore, hvalue⟩ := h.update id
    fun r r' hr => hr.finish id fun htimed => congrArg Moment.instant (hnow htimed)
  unfold Drive.finish
  rw [hupdate, hupdate']
  cases hvalue with
  | ok hp => exact ⟨hstore, .returned (.ok hp)⟩
  | error e => exact ⟨hstore, .returned (.error e)⟩

theorem Store.Agree.visit (h : s.Agree w s') (engine : EngineConfig) (id : PipelineId)
    (stage : Stage) (ahead : List Stage) (hnow : w.timed → now = now') :
    Reaches w
      ((Drive.visit engine id stage now s).store,
        ((Drive.visit engine id stage now s).value.map .ofProgress).getD (.walking ahead))
      ((Drive.visit engine id stage now' s').store,
        ((Drive.visit engine id stage now' s').value.map .ofProgress).getD (.walking ahead)) := by
  obtain ⟨store, store', value, value', hupdate, hupdate', hstore, hvalue⟩ := h.update id
    fun r r' hr => hr.boundary id stage fun htimed => congrArg Moment.instant (hnow htimed)
  unfold Drive.visit
  rw [hupdate, hupdate']
  cases hvalue with
  | error e => exact ⟨hstore, .returned (.error e)⟩
  | ok hboundary =>
    cases hboundary with
    | halt => exact ⟨hstore, .returned (hstore.snapshot id)⟩
    | skip => exact ⟨hstore, .walking ahead⟩
    | run config artifacts artifacts' =>
      have hwait := Attempt.agree_start engine.completion ⟨stage, config, artifacts⟩
        ⟨stage, config, artifacts'⟩ rfl rfl
      have hstarted : w.timed → now.elapsed = now'.elapsed :=
        fun htimed => congrArg Moment.elapsed (hnow htimed)
      exact ⟨hstore, .waiting ⟨rfl, rfl, hstarted, rfl, rfl⟩ hwait⟩

theorem Store.Agree.handIn (h : s.Agree w s') (id : PipelineId) {x x' : StageResult}
    (hx : x.Agree w x') (hnow : w.timed → now = now') :
    Reaches w
      ((Drive.handIn id x now s).store,
        ((Drive.handIn id x now s).value.map .returned).getD (.walking x.stage.after))
      ((Drive.handIn id x' now' s').store,
        ((Drive.handIn id x' now' s').value.map .returned).getD (.walking x'.stage.after)) := by
  obtain ⟨store, store', value, value', hupdate, hupdate', hstore, hvalue⟩ := h.update id
    fun r r' hr => hr.addResult id hx fun htimed => congrArg Moment.instant (hnow htimed)
  unfold Drive.handIn
  rw [hupdate, hupdate', ← hx.stage]
  cases hvalue with
  | ok _ => exact ⟨hstore, .walking _⟩
  | error e => exact ⟨hstore, .returned (.error e)⟩

end Steps

/-- What the wait of a call ends in. -/
def Point.heard (b : Stage → Nat → CompletionRequest → Reply) : Point → Signal
  | waiting trial (.answer request _) => (b trial.attempt.stage trial.count.toNat request).signal
  | _ => .rested

/-- Two trials whose waits have ended. -/
theorem Trial.Agree.hear {t t' : Trial} {wait wait' : Wait} {now now' : Duration}
    (ht : t.Agree w t') (hwait : wait.Agree wait') (settings : TrialSettings) (n : Nat)
    (hnow : w.timed → now = now') :
    Option.Rel (fun o o' => Progress.Agree w o.1 o'.1)
      (t.resume settings ((Point.waiting t wait).heard (w.left n)) now)
      (t'.resume settings ((Point.waiting t' wait').heard (w.right n)) now') := by
  cases hwait with
  | rest delay => exact ht.resume_rested settings
  | answer limit hrequest =>
    simp only [Point.heard, ← ht.stage, ← ht.count]
    exact ht.resume_of_alike settings hnow (w.alike ..) fun _ _ htext htext' =>
      ⟨n, _, _, hrequest, htext, htext'⟩

section Advance

variable {s s' : Store} {p p' : Point} {now now' : Moment}

/-- Two calls that look at the store. -/
theorem Point.Agree.proceed (hp : p.Agree w p') (h : s.Agree w s') (engine : EngineConfig)
    (id : PipelineId) (hnow : w.timed → now = now') :
    Option.Rel (Reaches w) (p.advance engine id .proceed now s)
      (p'.advance engine id .proceed now' s') := by
  cases hp with
  | walking ahead =>
    cases ahead with
    | nil => exact .some (h.finish id hnow)
    | cons stage ahead => exact .some (h.visit engine id stage ahead hnow)
  | settling hx => exact .some (h.handIn id hx hnow)
  | _ => exact .none

/-- Two calls whose waits have ended. -/
theorem Point.Agree.hear (hp : p.Agree w p') (h : s.Agree w s') (engine : EngineConfig)
    (id : PipelineId) (n : Nat) (hnow : w.timed → now = now') :
    Option.Rel (Reaches w) (p.advance engine id (.hear (p.heard (w.left n))) now s)
      (p'.advance engine id (.hear (p'.heard (w.right n))) now' s') := by
  cases hp with
  | walking ahead => cases ahead <;> exact .none
  | waiting ht hwait =>
    rename_i t t' wait wait'
    have hresume := ht.hear hwait (.ofEngine engine) n fun htimed =>
      congrArg Moment.elapsed (hnow htimed)
    simp only [Point.advance]
    generalize t.resume (.ofEngine engine) ((Point.waiting t wait).heard (w.left n)) now.elapsed = o
      at hresume ⊢
    generalize t'.resume (.ofEngine engine) ((Point.waiting t' wait').heard (w.right n))
      now'.elapsed = o' at hresume ⊢
    cases hresume with
    | none => exact .none
    | some hprogress => exact .some ⟨h, Point.agree_ofTrial hprogress⟩
  | _ => exact .none

/-- Two calls that are given up. -/
theorem Point.Agree.drop (hp : p.Agree w p') (h : s.Agree w s') (engine : EngineConfig)
    (id : PipelineId) (hnow : w.timed → now = now') :
    Option.Rel (Reaches w) (p.advance engine id .drop now s)
      (p'.advance engine id .drop now' s') := by
  cases hp with
  | walking ahead => cases ahead <;> exact .none
  | waiting ht hwait =>
    obtain ⟨store, store', value, value', hupdate, hupdate', hstore, -⟩ := h.update id
      fun r r' hr => hr.release fun htimed => congrArg Moment.instant (hnow htimed)
    refine .some ⟨?_, .dropped⟩
    rw [Drive.store_drop, Drive.store_drop, hupdate, hupdate']
    exact hstore
  | _ => exact .none

end Advance

/-! ### Runs -/

/-- Something that happens to an engine, but for what an executor says. -/
inductive Cue where
  | create (id : PipelineId) (config : PipelineConfig)
  | drive (entry : PipelineRecord.Entry) (id : PipelineId)
  | pause (id : PipelineId)
  | cancel (id : PipelineId)
  /-- A driving call looks at the store. -/
  | proceed (call : Nat)
  /-- What a driving call waits for has ended. -/
  | listen (call : Nat)
  /-- A driving call is given up. -/
  | drop (call : Nat)

namespace Fleet

/-- What the wait of a call ends in. -/
def heard (b : Executor) (s : Fleet) (n : Nat) : Signal :=
  match s.calls[n]? with
  | some call => call.point.heard (b n)
  | none => .rested

end Fleet

/-- What happens on a cue if the executor is given. -/
def Cue.act (b : Executor) (s : Fleet) : Cue → Act
  | create id config => .create id config
  | drive entry id => .drive entry id
  | pause id => .pause id
  | cancel id => .cancel id
  | proceed n => .advance n .proceed
  | listen n => .advance n (.hear (s.heard b n))
  | drop n => .advance n .drop

namespace Fleet

/-- The run that an executor makes of some cues and the moments they come at. -/
def play (engine : EngineConfig) (b : Executor) : Fleet → List (Cue × Moment) → List Event
  | _, [] => []
  | s, (cue, now) :: script =>
    ⟨cue.act b s, now⟩ :: play engine b (s.next engine ⟨cue.act b s, now⟩) script

/-- Two engines. -/
structure Agree (w : Twins) (s s' : Fleet) : Prop where
  store : s.store.Agree w s'.store
  calls : List.Forall₂ (fun c c' => c.id = c'.id ∧ c.point.Agree w c'.point) s.calls s'.calls

section Calls

variable {α : Type} {agree : α → α → Prop} {l l' : List α}

private theorem forall₂_getElem? (h : List.Forall₂ agree l l') (n : Nat) :
    Option.Rel agree l[n]? l'[n]? := by
  induction h generalizing n with
  | nil => exact .none
  | cons hhead _ ih =>
    cases n with
    | zero => exact .some hhead
    | succ n => exact ih n

private theorem forall₂_set (h : List.Forall₂ agree l l') (n : Nat) {a a' : α} (ha : agree a a') :
    List.Forall₂ agree (l.set n a) (l'.set n a') := by
  induction h generalizing n with
  | nil => exact .nil
  | cons hhead htail ih =>
    cases n with
    | zero => exact .cons ha htail
    | succ n => exact .cons hhead (ih n)

end Calls

variable {s s' : Fleet} {now now' : Moment}

/-- What becomes of two engines in an event, and what comes out of them. -/
def Reacts (w : Twins) (o o' : Fleet × List Output) : Prop :=
  o.1.Agree w o'.1 ∧ List.Forall₂ (Output.Agree w) o.2 o'.2

/-- Two calls make their moves, or cannot. -/
theorem Agree.advance (h : s.Agree w s') (n : Nat) {move move' : Move}
    (hadvance : ∀ id p p', s.calls[n]? = some ⟨id, p⟩ → s'.calls[n]? = some ⟨id, p'⟩ →
      p.Agree w p' → Option.Rel (Reaches w) (p.advance engine id move now s.store)
        (p'.advance engine id move' now' s'.store)) :
    Reacts w (s.react engine ⟨.advance n move, now⟩)
      (s'.react engine ⟨.advance n move', now'⟩) := by
  have hcall := forall₂_getElem? h.calls n
  simp only [react]
  cases hget : s.calls[n]? with
  | none =>
    rw [hget] at hcall
    cases hget' : s'.calls[n]? with
    | none => exact ⟨h, .nil⟩
    | some call' =>
      rw [hget'] at hcall
      cases hcall
  | some call =>
    rw [hget] at hcall
    cases hget' : s'.calls[n]? with
    | none =>
      rw [hget'] at hcall
      cases hcall
    | some call' =>
      obtain ⟨id, p⟩ := call
      obtain ⟨id', p'⟩ := call'
      rw [hget'] at hcall
      cases hcall with
      | some hcall =>
        obtain ⟨rfl, hp⟩ := hcall
        have hmove := hadvance id p p' hget hget' hp
        dsimp only
        generalize p.advance engine id move now s.store = o at hmove ⊢
        generalize p'.advance engine id move' now' s'.store = o' at hmove ⊢
        cases hmove with
        | none => exact ⟨h, .nil⟩
        | some hreaches =>
          exact ⟨⟨hreaches.1, forall₂_set h.calls n ⟨rfl, hreaches.2⟩⟩, hreaches.2.outputs n id⟩

/-- What is asked of two engines, or done with a call of theirs. -/
theorem Agree.react (h : s.Agree w s') (engine : EngineConfig) (cue : Cue)
    (hnow : w.timed → now = now') :
    Reacts w (s.react engine ⟨cue.act w.left s, now⟩)
      (s'.react engine ⟨cue.act w.right s', now'⟩) := by
  cases cue with
  | create id config =>
    obtain ⟨hstore, hvalue⟩ := h.store.create id config hnow
    exact ⟨⟨hstore, h.calls⟩, .cons (.answered id hvalue) .nil⟩
  | drive entry id =>
    obtain ⟨hstore, hvalue⟩ := h.store.claim entry id hnow
    simp only [Cue.act, Fleet.react]
    generalize Engine.claim entry id now s.store = effect at hstore hvalue ⊢
    generalize Engine.claim entry id now' s'.store = effect' at hstore hvalue ⊢
    obtain ⟨store, notices, value⟩ := effect
    obtain ⟨store', notices', value'⟩ := effect'
    cases hvalue with
    | some hresult => exact ⟨⟨hstore, h.calls⟩, .cons (.answered id hresult) .nil⟩
    | none => exact ⟨⟨hstore, List.rel_append h.calls (.cons ⟨rfl, .walking _⟩ .nil)⟩, .nil⟩
  | pause id =>
    obtain ⟨hstore, hvalue⟩ := h.store.pause id hnow
    simp only [Cue.act, Fleet.react, ← hvalue]
    exact ⟨⟨hstore, h.calls⟩, .cons (.acknowledged id _) .nil⟩
  | cancel id =>
    obtain ⟨hstore, hvalue⟩ := h.store.cancel id hnow
    simp only [Cue.act, Fleet.react, ← hvalue]
    exact ⟨⟨hstore, h.calls⟩, .cons (.acknowledged id _) .nil⟩
  | proceed n => exact h.advance n fun id p p' _ _ hp => hp.proceed h.store engine id hnow
  | listen n =>
    refine h.advance n fun id p p' hget hget' hp => ?_
    simp only [heard, hget, hget']
    exact hp.hear h.store engine id n hnow
  | drop n => exact h.advance n fun id p p' _ _ hp => hp.drop h.store engine id hnow

/-- Two engines in which the same happens agree at the end, and in what has come out of them. -/
theorem Agree.play (h : s.Agree w s') (engine : EngineConfig) {script script' : List (Cue × Moment)}
    (hscript : List.Forall₂ (fun e e' => e.1 = e'.1 ∧ (w.timed → e.2 = e'.2)) script script') :
    (s.run engine (s.play engine w.left script)).Agree w
        (s'.run engine (s'.play engine w.right script')) ∧
      List.Forall₂ (Output.Agree w) (s.emitted engine (s.play engine w.left script))
        (s'.emitted engine (s'.play engine w.right script')) := by
  induction hscript generalizing s s' with
  | nil => exact ⟨h, .nil⟩
  | cons hhead _ ih =>
    rename_i e e' _ _ _
    obtain ⟨cue, now⟩ := e
    obtain ⟨cue', now'⟩ := e'
    obtain ⟨rfl, hnow⟩ := hhead
    obtain ⟨hnext, houtputs⟩ := h.react engine cue hnow
    obtain ⟨hrun, hemitted⟩ := ih hnext
    simp only [Fleet.play, run_cons, emitted_cons]
    exact ⟨hrun, List.rel_append houtputs hemitted⟩

theorem agree_initial (w : Twins) : initial.Agree w initial where
  store id := by
    rw [show initial.store.get? id = none from rfl]
    exact .none
  calls := .nil

/-- Two runs in which the same happens, with executors whose replies are of the same kind at every
attempt, end in records that agree and put out what agrees, whatever the texts are. Times agree as
well if the two runs keep the same time. -/
theorem texts_do_not_decide (engine : EngineConfig) {left right : Executor}
    (halike : ∀ call stage n request request',
      (left call stage n request).Alike (right call stage n request'))
    {script script' : List (Cue × Moment)}
    (hcues : script.map Prod.fst = script'.map Prod.fst) :
    let w : Twins := ⟨left, right, halike, script = script'⟩
    let es := initial.play engine left script
    let es' := initial.play engine right script'
    (initial.run engine es).Agree w (initial.run engine es') ∧
      List.Forall₂ (Output.Agree w) (initial.emitted engine es) (initial.emitted engine es') := by
  intro w es es'
  have hsame : List.Forall₂ (fun e e' => e.1 = e'.1) script script' := by
    rwa [← List.forall₂_eq_eq_eq, List.forall₂_map_left_iff, List.forall₂_map_right_iff] at hcues
  refine (agree_initial w).play engine ?_
  by_cases htimed : script = script'
  · subst htimed
    exact List.forall₂_same.mpr fun _ _ => ⟨rfl, fun _ => rfl⟩
  · exact hsame.imp fun _ _ hcue => ⟨hcue, fun hw => absurd hw htimed⟩

/-- An executor that always says the same. -/
def saying (text : String) : Executor := fun _ _ _ _ => .text text

/-- The first stage of a new pipeline is worked on, and the second one is begun. -/
def stageScript (id : PipelineId) (now : Moment) : List (Cue × Moment) :=
  [.create id (.ofTask "t"), .drive .execute id, .proceed 0, .listen 0, .proceed 0,
    .proceed 0].map (·, now)

/-- An executor that says nothing and one whose text looks like an artifact and is none, a second
later, both get the first stage completed. -/
theorem texts_do_not_decide_stageScript :
    let script := stageScript (.ofNat 1) ⟨.zero, ⟨0, 0⟩⟩
    let script' := stageScript (.ofNat 1) ⟨.zero, ⟨1, 0⟩⟩
    let es := initial.play .initial (saying "") script
    let es' := initial.play .initial (saying "\x7b\"api\":") script'
    ∃ r r', (initial.run .initial es).store.get? (.ofNat 1) = some r ∧
      (initial.run .initial es').store.get? (.ofNat 1) = some r' ∧
      r.pipeline.completed = [.requirements] ∧ r.pipeline.current = some .design ∧
      r.pipeline.results.map (·.output) = [""] ∧
      r'.pipeline.completed = [.requirements] ∧ r'.pipeline.current = some .design ∧
      r'.pipeline.results.map (·.output) = ["\x7b\"api\":"] := by
  intro script script' es es'
  obtain ⟨hfleet, -⟩ := @texts_do_not_decide .initial (saying "") (saying "\x7b\"api\":")
    (fun _ _ _ _ _ => .text _ _) script script' rfl
  rcases hfleet.store.get? (.ofNat 1) with ⟨hnone, -⟩ | ⟨r, r', hget, hget', hr⟩
  · exact absurd hnone nofun
  · have hcompleted : r.pipeline.completed = [.requirements] := by cases hget; rfl
    have hcurrent : r.pipeline.current = some .design := by cases hget; rfl
    have houtput : r.pipeline.results.map (·.output) = [""] := by cases hget; rfl
    have houtput' : r'.pipeline.results.map (·.output) = ["\x7b\"api\":"] := by cases hget'; rfl
    exact ⟨r, r', hget, hget', hcompleted, hcurrent, houtput, hr.pipeline.completed ▸ hcompleted,
      hr.pipeline.current ▸ hcurrent, houtput'⟩

end Fleet

end StagedPipeline
